import Mathlib.Data.List.Basic
import PathEquiv.Disk
import PathEquiv.Proofs.Containers
import PathEquiv.Proofs.Run.Names
import PathEquiv.Proofs.Text.Bytes

set_option autoImplicit false

namespace PathEquiv

theorem fromUTF8?_toUTF8 (text : String) :
    String.fromUTF8? ⟨text.toUTF8.toList.toArray⟩ = some text := by
  have same : (⟨text.toUTF8.toList.toArray⟩ : ByteArray) = text.toUTF8 := by
    rw [Text.toList_bytes, Array.toArray_toList]
  rw [same]
  exact dif_pos text.isValidUTF8

namespace Disk

variable {d later : Disk} {here names : List String}

theorem lookup_replace_self {entries : List (List String × DiskEntry)} {names : List String}
    (present : entries.any (·.1 == names) = true) (entry : DiskEntry) :
    (entries.map fun e => if e.1 = names then (names, entry) else e).lookup names = some entry := by
  induction entries with
  | nil => simp at present
  | cons e entries ih =>
    by_cases here : e.1 = names
    next => simp [here]
    next =>
      have later : entries.any (·.1 == names) = true := by simpa [here] using present
      rw [List.map_cons, if_neg here, lookup_cons_eq, if_neg (Ne.symm here)]
      exact ih later

theorem lookup_replace_other (entries : List (List String × DiskEntry)) {names other : List String}
    (different : other ≠ names) (entry : DiskEntry) :
    (entries.map fun e => if e.1 = names then (names, entry) else e).lookup other =
      entries.lookup other := by
  induction entries with
  | nil => rfl
  | cons e entries ih =>
    rw [List.map_cons]
    by_cases here : e.1 = names
    next =>
      have apart : other ≠ e.1 := here ▸ different
      rw [if_pos here, lookup_cons_eq, lookup_cons_eq, if_neg different, if_neg apart, ih]
    next => rw [if_neg here, lookup_cons_eq, lookup_cons_eq, ih]

theorem find?_put (d : Disk) {names : List String} (given : names ≠ []) (entry : DiskEntry)
    (other : List String) :
    Disk.find? (d.put names entry) other =
      if other = names then some entry else d.find? other := by
  cases other with
  | nil => rw [if_neg (Ne.symm given), find?, find?]
  | cons first rest =>
    simp only [find?]
    unfold put
    by_cases same : first :: rest = names
    next =>
      rw [if_pos same, same]
      split
      next present => exact lookup_replace_self present entry
      next absent =>
        have missing : d.entries.lookup names = none := by
          rw [List.lookup_eq_none_iff]
          intro e member
          simp only [List.any_eq_true, beq_iff_eq, not_exists, not_and] at absent
          simpa using Ne.symm (absent e member)
        rw [List.lookup_append, missing]
        simp
    next =>
      rw [if_neg same]
      split
      next => exact lookup_replace_other d.entries same entry
      next =>
        have apart : (first :: rest == names) = false := beq_eq_false_iff_ne.mpr same
        rw [List.lookup_append, List.lookup_cons, apart, List.lookup_nil, Option.or_none]

def stepTo (here : List String) : Path.Part → Except DiskError (List String)
  | .root => .ok []
  | .here => .ok here
  | .up => .ok here.dropLast
  | .name name => (checkName name).map fun _ => here ++ [name]

theorem walkFrom_cons {part : Path.Part} {parts : List Path.Part} :
    d.walkFrom here (part :: parts) = .ok names ↔
      d.find? here = some .directory ∧
        ∃ next, stepTo here part = .ok next ∧ d.walkFrom next parts = .ok names := by
  simp only [walkFrom]
  split
  next missing => simp [missing]
  next file => simp [file]
  next directory =>
    simp only [directory, true_and]
    cases part with
    | root => simp [stepTo]
    | here => simp [stepTo]
    | up => simp [stepTo]
    | name name =>
      simp only [stepTo]
      cases checkName name with
      | error =>
        constructor
        · intro walked
          cases walked
        · rintro ⟨_, led, -⟩
          cases led
      | ok =>
        refine ⟨fun walked => ⟨_, rfl, walked⟩, ?_⟩
        rintro ⟨_, led, walked⟩
        cases led
        exact walked

theorem walkFrom_name {parts : List Path.Part} {name : String}
    (walked : d.walkFrom here (parts ++ [.name name]) = .ok names) :
    ∃ base, d.walkFrom here parts = .ok base ∧ names = base ++ [name] := by
  induction parts generalizing here with
  | nil =>
    obtain ⟨-, next, led, arrived⟩ := walkFrom_cons.mp walked
    rw [stepTo] at led
    cases checked : checkName name with
    | error =>
      rw [checked] at led
      cases led
    | ok =>
      rw [checked] at led
      cases led
      exact ⟨here, rfl, (Except.ok.inj arrived).symm⟩
  | cons part parts ih =>
    obtain ⟨directory, next, led, rest⟩ := walkFrom_cons.mp walked
    obtain ⟨base, walked, same⟩ := ih rest
    exact ⟨base, walkFrom_cons.mpr ⟨directory, next, led, walked⟩, same⟩

theorem walkFrom_of_directories {parts : List Path.Part}
    (directories : ∀ names, d.find? names = some .directory → later.find? names = some .directory)
    (walked : d.walkFrom here parts = .ok names) : later.walkFrom here parts = .ok names := by
  induction parts generalizing here with
  | nil => exact walked
  | cons part parts ih =>
    obtain ⟨directory, next, led, rest⟩ := walkFrom_cons.mp walked
    exact walkFrom_cons.mpr ⟨directories here directory, next, led, ih rest⟩

theorem walk_of_resolve {path : String} (resolved : d.resolve path = .ok names) :
    d.walkFrom d.workingDirectory (Path.parts path) = .ok names := by
  unfold resolve at resolved
  by_cases empty : path.isEmpty = true
  next =>
    rw [if_pos empty] at resolved
    cases resolved
  rw [if_neg empty] at resolved
  by_cases zero : path.toList.contains '\x00' = true
  next =>
    simp only [if_pos zero] at resolved
    cases resolved
  simp only [if_neg zero] at resolved
  obtain ⟨walked, arrived, shown⟩ := bind_eq_ok.mp resolved
  split at shown
  next => cases shown
  next =>
    cases shown
    exact arrived

theorem put_of_writeText {path contents : String}
    (written : d.writeText path contents = .ok later) :
    ∃ names, d.walkFrom d.workingDirectory (Path.parts path) = .ok names ∧
      d.find? names ≠ some .directory ∧ later = d.put names (.file contents.toUTF8.toList) := by
  unfold writeText writeBytes at written
  obtain ⟨names, resolved, shown⟩ := bind_eq_ok.mp written
  refine ⟨names, walk_of_resolve resolved, ?_⟩
  by_cases taken : (d.isDirectory names || endsInSlash path) = true
  next =>
    simp only [if_pos taken] at shown
    cases shown
  next =>
    simp only [if_neg taken] at shown
    cases shown
    refine ⟨fun directory => taken ?_, rfl⟩
    simp [isDirectory, directory]

theorem put_workingDirectory (d : Disk) (names : List String) (entry : DiskEntry) :
    (d.put names entry).workingDirectory = d.workingDirectory := by
  unfold put
  split <;> rfl

def text? : DiskEntry → Option String
  | .directory => none
  | .file contents => String.fromUTF8? ⟨contents.toArray⟩

def textIn? (d : Disk) (path name : String) : Option String :=
  match d.walkFrom d.workingDirectory (Path.parts path) with
  | .error _ => none
  | .ok base => (d.find? (base ++ [name])).bind text?

theorem textIn?_of_walk {path : String} {base : List String}
    (arrived : d.walkFrom d.workingDirectory (Path.parts path) = .ok base) (name : String) :
    d.textIn? path name = (d.find? (base ++ [name])).bind text? := by
  simp only [textIn?, arrived]

theorem textIn?_writeText {path name contents : String} (named : Path.IsName name)
    (written : d.writeText (Path.join path name) contents = .ok later) (other : String) :
    later.textIn? path other = if other = name then some contents else d.textIn? path other := by
  obtain ⟨names, walked, free, rfl⟩ := put_of_writeText written
  rw [Path.parts_join path named] at walked
  obtain ⟨base, arrived, rfl⟩ := walkFrom_name walked
  let later := d.put (base ++ [name]) (.file contents.toUTF8.toList)
  have entries (names : List String) : later.find? names =
      if names = base ++ [name] then some (.file contents.toUTF8.toList) else d.find? names :=
    d.find?_put (by simp) _ names
  -- The new file takes the place of no directory, so the path still leads to the same one.
  have kept : ∀ names, d.find? names = some .directory → later.find? names = some .directory := by
    intro names directory
    rw [entries, if_neg, directory]
    rintro rfl
    exact free directory
  have arrivedLater : later.walkFrom later.workingDirectory (Path.parts path) = .ok base := by
    rw [put_workingDirectory]
    exact walkFrom_of_directories kept arrived
  rw [textIn?_of_walk arrivedLater, textIn?_of_walk arrived, entries]
  by_cases same : other = name
  next =>
    rw [if_pos (by rw [same]), if_pos same]
    exact fromUTF8?_toUTF8 contents
  next => rw [if_neg (by simpa using same), if_neg same]

end Disk

end PathEquiv
