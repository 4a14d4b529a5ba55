import Mathlib.Data.List.Nodup
import PathEquiv.Json.Record
import PathEquiv.Proofs.Containers
import PathEquiv.Proofs.Json.Reading

set_option autoImplicit false

namespace PathEquiv.Json

variable {fields given : List (String × Json)}

theorem record_of_perm (perm : given.Perm fields) (distinct : (fields.map Prod.fst).Nodup)
    (extras : Extras) :
    record? (fields.map Prod.fst) extras (.obj given) = some (fields.map fun f => some f.2) := by
  have givenDistinct := ((perm.map Prod.fst).nodup_iff).mpr distinct
  have known : given.all (fun field => (fields.map Prod.fst).contains field.1) = true := by
    rw [List.all_eq_true]
    intro field member
    rw [List.contains_iff_mem]
    exact List.mem_map_of_mem (perm.mem_iff.mp member)
  have once : (fields.map Prod.fst).all
      (fun name => (given.filter (·.1 == name)).length ≤ 1) = true := by
    rw [List.all_eq_true]
    intro name _
    have count := List.nodup_iff_count_le_one.mp givenDistinct name
    rw [List.count, List.countP_map, List.countP_eq_length_filter] at count
    exact decide_eq_true count
  have values : (fields.map Prod.fst).map (fun name => given.lookup name) =
      fields.map fun f => some f.2 := by
    rw [List.map_map]
    apply List.map_congr_left
    intro field member
    exact lookup_of_mem givenDistinct (perm.mem_iff.mpr member)
  simp only [record?, known, once, values]
  rfl

theorem tagged_of_perm {tag kind : String} (perm : given.Perm ((tag, .str kind) :: fields))
    (free : tag ∉ fields.map Prod.fst) (place : Place) {tags : List String}
    (listed : kind ∈ tags) :
    ∃ body, tagged? place tag tags (.obj given) = some (kind, .obj body) ∧ body.Perm fields := by
  have others : ∀ f ∈ fields, f.1 ≠ tag := by
    intro f member same
    exact free (same ▸ List.mem_map_of_mem member)
  have found : given.filter (·.1 == tag) = [(tag, .str kind)] := by
    have filtered := perm.filter (·.1 == tag)
    have none : fields.filter (·.1 == tag) = [] := by simpa using others
    simpa [none] using filtered
  have body : (given.filter (·.1 != tag)).Perm fields := by
    have filtered := perm.filter (·.1 != tag)
    have all : fields.filter (·.1 != tag) = fields := by simpa using others
    simpa [all] using filtered
  refine ⟨given.filter (·.1 != tag), ?_, body⟩
  simp [tagged?, found, tag?, listed]

theorem tagged_record_of_perm {tag kind : String}
    (perm : given.Perm ((tag, .str kind) :: fields))
    (distinct : (tag :: fields.map Prod.fst).Nodup) (place : Place) {tags : List String}
    (listed : kind ∈ tags) (extras : Extras) :
    ∃ body, tagged? place tag tags (.obj given) = some (kind, .obj body) ∧
      record? (fields.map Prod.fst) extras (.obj body) = some (fields.map fun f => some f.2) := by
  rw [List.nodup_cons] at distinct
  obtain ⟨body, split, rest⟩ := tagged_of_perm perm distinct.1 place listed
  exact ⟨body, split, record_of_perm rest distinct.2 extras⟩

theorem list_of_read {α : Type} {read : Json → Option α} {write : α → Json} {values : List α}
    (each : ∀ value ∈ values, read (write value) = some value) :
    list? read (.arr (values.map write)) = some values := by
  rw [list?]
  induction values with
  | nil => rfl
  | cons value values ih =>
    have first := each value (by simp)
    have rest := ih fun other member => each other (by simp [member])
    simp [first, rest]

theorem insertField_perm (field : String × Json) (fields : List (String × Json)) :
    (insertField field fields).Perm (field :: fields) := by
  induction fields with
  | nil => exact .refl _
  | cons other fields ih =>
    rw [insertField]
    split
    next => exact .refl _
    next => exact (ih.cons other).trans (.swap field other fields)

theorem sortMembers_perm (fields : List (String × Json)) :
    (sortMembers fields).Perm (fields.map fun f => (f.1, f.2.sortFields)) := by
  induction fields with
  | nil => exact .refl _
  | cons field fields ih =>
    rw [sortMembers, List.map_cons]
    exact (insertField_perm _ _).trans (ih.cons _)

theorem sortItems_eq (items : List Json) : sortItems items = items.map sortFields := by
  induction items with
  | nil => rfl
  | cons item items ih => simp [sortItems, ih]

theorem depthFields_of_perm (perm : given.Perm fields) :
    depthFields given = depthFields fields := by
  apply Nat.le_antisymm
  · rw [depthFields_le]
    intro field member
    exact depthFields_le.mp (Nat.le_refl _) field (perm.mem_iff.mp member)
  · rw [depthFields_le]
    intro field member
    exact depthFields_le.mp (Nat.le_refl _) field (perm.mem_iff.mpr member)

mutual

theorem depth_sortFields : ∀ value : Json, value.sortFields.depth = value.depth
  | .arr items => by rw [sortFields, depth, depth, depth_sortItems items]
  | .obj fields => by rw [sortFields, depth, depth, depth_sortMembers fields]
  | .null | .bool _ | .int _ | .decimal _ | .str _ => rfl

theorem depth_sortItems : ∀ items : List Json, depthItems (sortItems items) = depthItems items
  | [] => rfl
  | item :: items => by
    rw [sortItems, depthItems, depthItems, depth_sortFields item, depth_sortItems items]

theorem depth_sortMembers :
    ∀ fields : List (String × Json), depthFields (sortMembers fields) = depthFields fields
  | [] => rfl
  | (name, value) :: fields => by
    rw [sortMembers, depthFields_of_perm (insertField_perm _ _), depthFields, depthFields,
      depth_sortFields value, depth_sortMembers fields]

end

theorem Plain.sortFields {value : Json} (plain : Plain value) : Plain value.sortFields := by
  induction plain with
  | null => exact .null
  | bool value => exact .bool value
  | nat small => exact .nat small
  | str value => exact .str value
  | arr _ each =>
    rw [Json.sortFields, sortItems_eq]
    exact .arr (by simpa using each)
  | @obj fields _ each =>
    rw [Json.sortFields]
    refine .obj fun field member => ?_
    obtain ⟨unsorted, listed, rfl⟩ := List.mem_map.mp ((sortMembers_perm fields).mem_iff.mp member)
    exact each unsorted listed

theorem nat_int {n : Nat} (small : n < Nat.pow 2 64) : nat? (.int n) = some n :=
  if_pos small

theorem lt_of_nat {document : Json} {n : Nat} (read : nat? document = some n) :
    n < Nat.pow 2 64 := by
  unfold nat? at read
  split at read
  next value =>
    simp only [Option.ite_none_right_eq_some, Option.some.injEq] at read
    exact read.2 ▸ read.1
  next => cases read

theorem exists_of_mem_list {α : Type} {read : Json → Option α} {document : Json} {values : List α}
    (given : list? read document = some values) {value : α} (member : value ∈ values) :
    ∃ item, read item = some value := by
  cases document with
  | arr items =>
    rw [list?] at given
    induction items generalizing values with
    | nil =>
      cases given
      cases member
    | cons item items ih =>
      simp only [List.mapM_cons, Option.bind_eq_bind, Option.bind_eq_some_iff, pure,
        Option.some.injEq] at given
      obtain ⟨first, firstRead, others, othersRead, rfl⟩ := given
      rcases List.mem_cons.mp member with rfl | later
      · exact ⟨item, firstRead⟩
      · exact ih later othersRead
  | _ => cases given

end PathEquiv.Json
