import Mathlib.Data.List.Induction
import Mathlib.Data.List.Nodup
import PathEquiv.Partition.Summary
import PathEquiv.Proofs.Containers

set_option autoImplicit false

namespace PathEquiv

namespace Classification

theorem mem_all (c : Classification) : c ∈ all := by
  cases c <;> decide

theorem rank_inj {a b : Classification} (same : a.rank = b.rank) : a = b :=
  (List.idxOf_inj (mem_all a)).mp same

def strength : List Classification :=
  [neq, missing, baseToolMissing, error, timeout, depthLimited, unknown, maybeNeq, maybeEq, eq,
    unreachable]

def place (c : Classification) : Nat :=
  strength.idxOf c

def stronger (a b : Classification) : Classification :=
  if a.place ≤ b.place then a else b

theorem mem_strength (c : Classification) : c ∈ strength := by
  cases c <;> decide

theorem place_inj {a b : Classification} (same : a.place = b.place) : a = b :=
  (List.idxOf_inj (mem_strength a)).mp same

theorem eq_or_unreachable_of_place {c : Classification} :
    eq.place ≤ c.place ↔ c = .eq ∨ c = .unreachable := by
  cases c <;> decide

theorem place_of_find {wanted : Classification → Bool} {c : Classification}
    (found : strength.find? wanted = some c) {d : Classification} (other : wanted d = true) :
    c.place ≤ d.place := by
  obtain ⟨own, before, after, order, refused⟩ := List.find?_eq_some_iff_append.mp found
  have later {e : Classification} (holds : wanted e = true) :
      e.place = before.length + (c :: after).idxOf e := by
    have absent : e ∉ before := by
      intro member
      have no := refused e member
      simp [holds] at no
    rw [place, order, List.idxOf_append_of_notMem absent]
  rw [later own, later other, List.idxOf_cons_self]
  omega

end Classification

open Classification

namespace Counts

variable {classes others : List Classification} {counts : Counts}

def total (counts : Counts) : Nat :=
  counts.foldr (fun entry sum => entry.2 + sum) 0

/-- The entries stand in the order of their classes, none of them is empty, and they count the
classes of a list. -/
structure Tallies (counts : Counts) (classes : List Classification) : Prop where
  ordered : counts.Pairwise fun first second => first.1.rank < second.1.rank
  positive : ∀ entry ∈ counts, 0 < entry.2
  count_eq : ∀ c, counts.count c = classes.count c
  total_eq : counts.total = classes.length

theorem count_cons (c d : Classification) (n : Nat) :
    count ((d, n) :: counts) c = if c = d then n else counts.count c := by
  rw [count, lookup_cons_eq]
  split <;> rfl

theorem count_eq_zero_of_before {c : Classification}
    (before : ∀ entry ∈ counts, c.rank < entry.1.rank) : counts.count c = 0 := by
  have missing : counts.lookup c = none := by
    rw [List.lookup_eq_none_iff]
    intro entry member
    have less := before entry member
    have other : entry.1 ≠ c := fun same => Nat.lt_irrefl _ (same ▸ less)
    simpa using other.symm
  rw [count, missing, Option.getD_none]

theorem key_of_mem_add {c : Classification} {entry : Classification × Nat}
    (member : entry ∈ add c counts) : entry.1 = c ∨ ∃ n, (entry.1, n) ∈ counts := by
  fun_induction add c counts with
  | case1 => exact .inl (by simp_all)
  | case2 n rest =>
    rcases List.mem_cons.mp member with rfl | later
    · exact .inl rfl
    · exact .inr ⟨entry.2, List.mem_cons_of_mem _ later⟩
  | case3 =>
    rcases List.mem_cons.mp member with rfl | later
    · exact .inl rfl
    · exact .inr ⟨entry.2, later⟩
  | case4 d n rest other after ih =>
    rcases List.mem_cons.mp member with rfl | later
    · exact .inr ⟨n, List.mem_cons_self⟩
    · rcases ih later with own | ⟨m, found⟩
      · exact .inl own
      · exact .inr ⟨m, List.mem_cons_of_mem _ found⟩

theorem ordered_add (c : Classification)
    (ordered : counts.Pairwise fun first second => first.1.rank < second.1.rank) :
    (add c counts).Pairwise fun first second => first.1.rank < second.1.rank := by
  fun_induction add c counts with
  | case1 => exact List.pairwise_singleton _ _
  | case2 => simpa using ordered
  | case3 d n rest other before =>
    refine List.pairwise_cons.mpr ⟨fun entry member => ?_, ordered⟩
    rcases List.mem_cons.mp member with rfl | later
    · exact before
    · exact Nat.lt_trans before ((List.pairwise_cons.mp ordered).1 entry later)
  | case4 d n rest other notBefore ih =>
    obtain ⟨above, sorted⟩ := List.pairwise_cons.mp ordered
    refine List.pairwise_cons.mpr ⟨fun entry member => ?_, ih sorted⟩
    rcases key_of_mem_add member with own | ⟨m, found⟩
    · rw [own]
      exact Nat.lt_of_le_of_ne (Nat.le_of_not_lt notBefore) fun same => other (rank_inj same).symm
    · exact above (entry.1, m) found

theorem count_add (c d : Classification)
    (ordered : counts.Pairwise fun first second => first.1.rank < second.1.rank) :
    (add c counts).count d = counts.count d + if c = d then 1 else 0 := by
  fun_induction add c counts with
  | case1 =>
    rw [count_cons]
    by_cases same : c = d
    next => simp [same, count]
    next => simp [same, Ne.symm same]
  | case2 n rest =>
    rw [count_cons, count_cons]
    by_cases same : c = d
    next => simp [same]
    next => simp [same, Ne.symm same]
  | case3 e n rest other before =>
    rw [count_cons]
    by_cases same : c = d
    next =>
      -- An entry of the class would stand at this place.
      have absent : count ((e, n) :: rest) c = 0 := by
        refine count_eq_zero_of_before fun entry member => ?_
        rcases List.mem_cons.mp member with rfl | later
        · exact before
        · exact Nat.lt_trans before ((List.pairwise_cons.mp ordered).1 entry later)
      simp [← same, absent]
    next => simp [same, Ne.symm same]
  | case4 e n rest other _ ih =>
    rw [count_cons, count_cons, ih (List.pairwise_cons.mp ordered).2]
    by_cases same : d = e
    next => simp [same, other]
    next => simp [same]

theorem positive_add (c : Classification) (positive : ∀ entry ∈ counts, 0 < entry.2) :
    ∀ entry ∈ add c counts, 0 < entry.2 := by
  fun_induction add c counts with
  | case1 => simp
  | case2 n rest =>
    rw [List.forall_mem_cons] at positive ⊢
    exact ⟨Nat.succ_pos n, positive.2⟩
  | case3 => exact List.forall_mem_cons.mpr ⟨Nat.one_pos, positive⟩
  | case4 d n rest other _ ih =>
    rw [List.forall_mem_cons] at positive ⊢
    exact ⟨positive.1, ih positive.2⟩

theorem total_add (c : Classification) (counts : Counts) :
    (add c counts).total = counts.total + 1 := by
  fun_induction add c counts with
  | case1 => rfl
  | case2 n rest =>
    simp only [total, List.foldr_cons]
    omega
  | case3 d n rest =>
    simp only [total, List.foldr_cons]
    omega
  | case4 d n rest other _ ih =>
    simp only [total, List.foldr_cons] at ih ⊢
    omega

theorem Tallies.add {counts : Counts} (tallies : Tallies counts classes) (c : Classification) :
    Tallies (add c counts) (classes ++ [c]) where
  ordered := ordered_add c tallies.ordered
  positive := positive_add c tallies.positive
  count_eq d := by
    rw [count_add c d tallies.ordered, tallies.count_eq, List.count_append, List.count_singleton]
    simp
  total_eq := by
    rw [total_add, tallies.total_eq, List.length_append, List.length_singleton]

theorem tallies_ofList (classes : List Classification) : Tallies (ofList classes) classes := by
  induction classes using List.reverseRecOn with
  | nil => exact ⟨.nil, by simp [ofList], fun _ => rfl, rfl⟩
  | append_singleton classes c ih =>
    have last : ofList (classes ++ [c]) = Counts.add c (ofList classes) := by simp [ofList]
    rw [last]
    exact ih.add c

theorem count_ofList (classes : List Classification) (c : Classification) :
    (ofList classes).count c = classes.count c :=
  (tallies_ofList classes).count_eq c

theorem total_ofList (classes : List Classification) : (ofList classes).total = classes.length :=
  (tallies_ofList classes).total_eq

theorem nodup_keys_ofList (classes : List Classification) :
    ((ofList classes).map Prod.fst).Nodup :=
  List.pairwise_map.mpr ((tallies_ofList classes).ordered.imp fun less same =>
    Nat.ne_of_lt less (congrArg rank same))

theorem mem_ofList {c : Classification} {n : Nat} :
    (c, n) ∈ ofList classes ↔ 0 < n ∧ n = classes.count c := by
  rw [← count_ofList, count]
  constructor
  next =>
    intro member
    rw [lookup_of_mem (nodup_keys_ofList classes) member]
    exact ⟨(tallies_ofList classes).positive _ member, rfl⟩
  next =>
    rintro ⟨positive, counted⟩
    cases found : (ofList classes).lookup c with
    | none =>
      rw [counted, found] at positive
      cases positive
    | some m =>
      rw [found] at counted
      obtain ⟨before, after, split, -⟩ := List.lookup_eq_some_iff.mp found
      simp [split, counted]

theorem ofList_perm (same : classes.Perm others) : ofList classes = ofList others := by
  have members (entry : Classification × Nat) : entry ∈ ofList classes ↔ entry ∈ ofList others := by
    rw [mem_ofList, mem_ofList, same.count_eq]
  have rows := (List.perm_ext_iff_of_nodup (nodup_keys_ofList classes).of_map
    (nodup_keys_ofList others).of_map).mpr members
  exact rows.eq_of_pairwise (fun _ _ _ _ first second => absurd first (Nat.lt_asymm second))
    (tallies_ofList classes).ordered (tallies_ofList others).ordered

theorem verdict_nil : (ofList []).verdict = .missing := by
  decide

theorem find_strength (some : classes ≠ []) :
    strength.find? classes.contains = Option.some (ofList classes).verdict := by
  obtain ⟨first, member⟩ := List.exists_mem_of_ne_nil classes some
  have counted : ((ofList classes).all fun entry => entry.2 == 0) = false := by
    have positive := List.count_pos_iff.mpr member
    rw [List.all_eq_false]
    exact ⟨(first, classes.count first), mem_ofList.mpr ⟨positive, rfl⟩,
      by simpa using Nat.ne_of_gt positive⟩
  have occurring : (fun c => decide (0 < (ofList classes).count c)) = classes.contains := by
    funext c
    rw [count_ofList, Bool.eq_iff_iff, decide_eq_true_eq, List.count_pos_iff, List.contains_iff_mem]
  have order : strength = precedence ++ [.unreachable] := rfl
  rw [verdict, counted, if_neg Bool.false_ne_true, occurring, order, List.find?_append]
  cases found : precedence.find? classes.contains with
  | some c => rfl
  | none =>
    -- No other class occurs, and some class does.
    have weakest : first = .unreachable := by
      have listed : first ∈ precedence ++ [.unreachable] := order ▸ mem_strength first
      rcases List.mem_append.mp listed with decisive | last
      · have refused := List.find?_eq_none.mp found first decisive
        simp [member] at refused
      · exact List.mem_singleton.mp last
    simp [← weakest, member]

theorem verdict_eq_iff (some : classes ≠ []) {c : Classification} :
    (ofList classes).verdict = c ↔ c ∈ classes ∧ ∀ d ∈ classes, c.place ≤ d.place := by
  have found := find_strength some
  have occurs : (ofList classes).verdict ∈ classes := by
    simpa using List.find?_some found
  have least : ∀ d ∈ classes, (ofList classes).verdict.place ≤ d.place :=
    fun d member => place_of_find found (by simpa using member)
  constructor
  next =>
    rintro rfl
    exact ⟨occurs, least⟩
  next =>
    intro strongest
    exact place_inj (Nat.le_antisymm (least c strongest.1) (strongest.2 _ occurs))

theorem verdict_append (some : classes ≠ []) (someOthers : others ≠ []) :
    (ofList (classes ++ others)).verdict =
      stronger (ofList classes).verdict (ofList others).verdict := by
  obtain ⟨first, leastFirst⟩ := (verdict_eq_iff some).mp rfl
  obtain ⟨second, leastSecond⟩ := (verdict_eq_iff someOthers).mp rfl
  rw [verdict_eq_iff (by simp [some])]
  unfold stronger
  split
  next before =>
    refine ⟨List.mem_append_left _ first, fun d member => ?_⟩
    rcases List.mem_append.mp member with here | there
    · exact leastFirst d here
    · exact Nat.le_trans before (leastSecond d there)
  next after =>
    refine ⟨List.mem_append_right _ second, fun d member => ?_⟩
    rcases List.mem_append.mp member with here | there
    · exact Nat.le_trans (Nat.le_of_not_le after) (leastFirst d here)
    · exact leastSecond d there

theorem verdict_eq_neq_iff : (ofList classes).verdict = .neq ↔ .neq ∈ classes := by
  by_cases empty : classes = []
  next => simp [empty, verdict_nil]
  next =>
    rw [verdict_eq_iff empty]
    exact ⟨And.left, fun occurs => ⟨occurs, fun d _ => Nat.zero_le _⟩⟩

theorem verdict_eq_eq_iff :
    (ofList classes).verdict = .eq ↔
      (∀ c ∈ classes, c = .eq ∨ c = .unreachable) ∧ .eq ∈ classes := by
  by_cases empty : classes = []
  next => simp [empty, verdict_nil]
  next =>
    rw [verdict_eq_iff empty, and_comm]
    simp only [eq_or_unreachable_of_place]

theorem eq_or_unreachable_of_verdict (verdict : (ofList classes).verdict = .eq)
    {c : Classification} (member : c ∈ classes) : c = .eq ∨ c = .unreachable :=
  (verdict_eq_eq_iff.mp verdict).1 c member

end Counts

namespace Summary

theorem map_classification_ne_nil {records : List Record} (some : records ≠ []) :
    records.map Record.classification ≠ [] :=
  fun empty => some (List.map_eq_nil_iff.mp empty)

/-- A summary has the exact count of every class that occurs. The verdict on two runs together is
the stronger one of their verdicts. So the order of the records does not matter, a difference stays
whatever is added, and equality is the verdict if nothing else occurs but paths that are not taken
and some partition is equal. -/
theorem counts_exact_verdict_composes (runId : String) :
    let classes (records : List Record) := records.map Record.classification
    let verdict (records : List Record) := (ofRecords runId records).verdict
    (∀ records : List Record,
      let summary := ofRecords runId records
      summary.partitions = records.length ∧
      (∀ c n, (c, n) ∈ summary.counts ↔ 0 < n ∧ n = (classes records).count c) ∧
      (summary.counts.map Prod.fst).Nodup ∧
      summary.counts.total = summary.partitions) ∧
    (∀ xs ys : List Record, xs ≠ [] → ys ≠ [] →
      verdict (xs ++ ys) = stronger (verdict xs) (verdict ys)) ∧
    (∀ xs ys : List Record, xs.Perm ys → verdict xs = verdict ys) ∧
    (∀ xs ys : List Record, xs ⊆ ys → verdict xs = .neq → verdict ys = .neq) ∧
    ∀ records : List Record, verdict records = .eq ↔
      (∀ record ∈ records, record.classification = .eq ∨ record.classification = .unreachable) ∧
        ∃ record ∈ records, record.classification = .eq := by
  intro classes verdict
  refine ⟨fun records => ⟨rfl, fun c n => Counts.mem_ofList, Counts.nodup_keys_ofList _, ?_⟩,
    ?_, ?_, ?_, ?_⟩
  next => exact (Counts.total_ofList _).trans (List.length_map _)
  next =>
    intro xs ys some someOthers
    have composed := Counts.verdict_append (map_classification_ne_nil some)
      (map_classification_ne_nil someOthers)
    rw [← List.map_append] at composed
    exact composed
  next =>
    intro xs ys same
    exact congrArg Counts.verdict (Counts.ofList_perm (same.map Record.classification))
  next =>
    intro xs ys added differs
    have occurs := Counts.verdict_eq_neq_iff.mp differs
    exact Counts.verdict_eq_neq_iff.mpr (List.map_subset _ added occurs)
  next =>
    intro records
    refine Counts.verdict_eq_eq_iff.trans ?_
    rw [List.forall_mem_map, List.mem_map]

theorem counts_exact_verdict_composes_mixed :
    let record (c : Classification) : Record := { (default : Record) with classification := c }
    let xs := [record .eq, record .timeout, record .eq]
    let ys := [record .unreachable, record .maybeNeq]
    (ofRecords "r" xs).verdict = .timeout ∧ (ofRecords "r" ys).verdict = .maybeNeq ∧
      (ofRecords "r" (xs ++ ys)).verdict = .timeout ∧
      (ofRecords "r" (ys ++ xs)).verdict = .timeout ∧
      (ofRecords "r" (record .neq :: xs ++ ys)).verdict = .neq := by
  intro record xs ys
  obtain ⟨-, composes, order, differs, -⟩ := counts_exact_verdict_composes "r"
  have first : (ofRecords "r" xs).verdict = .timeout := by decide +kernel
  have second : (ofRecords "r" ys).verdict = .maybeNeq := by decide +kernel
  have both : (ofRecords "r" (xs ++ ys)).verdict = .timeout := by
    have composed : (ofRecords "r" (xs ++ ys)).verdict =
        stronger (ofRecords "r" xs).verdict (ofRecords "r" ys).verdict :=
      composes xs ys (by simp [xs]) (by simp [ys])
    rw [composed, first, second]
    decide
  have swapped := order (ys ++ xs) (xs ++ ys) List.perm_append_comm
  have single : (ofRecords "r" [record .neq]).verdict = .neq := by decide +kernel
  have added := differs [record .neq] (record .neq :: xs ++ ys) (by simp) single
  exact ⟨first, second, both, swapped.trans both, added⟩

end Summary

end PathEquiv
