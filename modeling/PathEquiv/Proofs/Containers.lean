import Mathlib.Data.List.TakeWhile

set_option autoImplicit false

namespace PathEquiv

section Except

variable {ε δ α β : Type}

theorem mapError_ok (value : α) (f : ε → δ) :
    (Except.ok value : Except ε α).mapError f = .ok value := rfl

theorem mapError_eq_ok {result : Except ε α} {f : ε → δ} {value : α} :
    result.mapError f = .ok value ↔ result = .ok value := by
  cases result with
  | ok given =>
    show (Except.ok given : Except δ α) = .ok value ↔ _
    simp
  | error cause => exact ⟨nofun, nofun⟩

theorem bind_eq_ok {first : Except ε α} {next : α → Except ε β} {value : β} :
    first >>= next = .ok value ↔ ∃ middle, first = .ok middle ∧ next middle = .ok value := by
  cases first <;> simp [bind, Except.bind]

theorem isOk_iff_exists {result : Except ε α} :
    result.isOk = true ↔ ∃ value, result = .ok value := by
  cases result with
  | ok value => exact iff_of_true rfl ⟨value, rfl⟩
  | error => exact iff_of_false Bool.false_ne_true (by simp)

end Except

section List

variable {α : Type}

theorem takeWhile_append_stop {p : α → Bool} {x : α} (stops : p x = false) (xs more : List α) :
    (xs ++ x :: more).takeWhile p = xs.takeWhile p := by
  induction xs with
  | nil => simp [stops]
  | cons y xs ih => by_cases passes : p y = true <;> simp [passes, ih]

theorem takeWhile_append_stopped {p : α → Bool} {xs : List α} (stopped : xs.dropWhile p ≠ [])
    (more : List α) : (xs ++ more).takeWhile p = xs.takeWhile p := by
  induction xs with
  | nil => exact absurd rfl stopped
  | cons y xs ih =>
    by_cases passes : p y = true
    next => simp [passes, ih (by simpa [passes] using stopped)]
    next => simp [passes]

theorem nodup_eraseDups [BEq α] [LawfulBEq α] (xs : List α) : xs.eraseDups.Nodup := by
  induction count : xs.length using Nat.strongRecOn generalizing xs with
  | ind size ih =>
    cases xs with
    | nil => simp
    | cons x xs =>
      rw [List.eraseDups_cons, List.nodup_cons]
      constructor
      next => simp
      next =>
        have smaller : (xs.filter fun other => !other == x).length < size := by
          have bound := List.length_filter_le (fun other => !other == x) xs
          rw [List.length_cons] at count
          omega
        exact ih _ smaller _ rfl

end List

section Entries

variable {α β : Type} [BEq α] [LawfulBEq α] {entries : List (α × β)}

theorem lookup_cons_eq [DecidableEq α] (key other : α) (value : β) (entries : List (α × β)) :
    ((key, value) :: entries).lookup other =
      if other = key then some value else entries.lookup other := by
  by_cases same : other = key
  next => rw [if_pos same, same, List.lookup_cons_self]
  next =>
    have apart : (other == key) = false := beq_eq_false_iff_ne.mpr same
    rw [if_neg same, List.lookup_cons, apart]

theorem lookup_of_mem (distinct : (entries.map Prod.fst).Nodup) {entry : α × β}
    (member : entry ∈ entries) : entries.lookup entry.1 = some entry.2 := by
  induction entries with
  | nil => cases member
  | cons other entries ih =>
    rw [List.map_cons, List.nodup_cons] at distinct
    rcases List.mem_cons.mp member with rfl | later
    · exact List.lookup_cons_self
    · have differs : entry.1 ≠ other.1 := by
        intro same
        exact distinct.1 (same ▸ List.mem_map_of_mem later)
      rw [List.lookup_cons, beq_eq_false_iff_ne.mpr differs]
      exact ih distinct.2 later

end Entries

end PathEquiv
