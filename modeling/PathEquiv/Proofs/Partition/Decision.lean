import PathEquiv.Partition.Summary

set_option autoImplicit false

namespace PathEquiv

namespace Evidence

variable {e : Evidence}

theorem rule_cases {condition : Prop} [Decidable condition] {own c : Classification}
    {rest : Option Classification}
    (classified : (if condition then some own else rest) = some c) :
    (condition ∧ own = c) ∨ (¬condition ∧ rest = some c) := by
  split at classified
  next applies => exact .inl ⟨applies, Option.some.inj classified⟩
  next refused => exact .inr ⟨refused, classified⟩

theorem rule_eq_none {condition : Prop} [Decidable condition] {own : Classification}
    {rest : Option Classification} :
    (if condition then some own else rest) = none ↔ ¬condition ∧ rest = none := by
  split
  next applies => simp [applies]
  next refused => simp [refused]

theorem classify?_of_decided
    (decided : e.flags.isError = false → e.flags.isDepthLimited = false →
      (∃ status, e.neq = some status ∧ status ≠ .error) ∧
        ∃ status, e.eq = some status ∧ status ≠ .error) :
    ∃ c, e.classify? = some c := by
  cases classified : e.classify? with
  | some c => exact ⟨c, rfl⟩
  | none =>
    simp only [classify?, rule_eq_none] at classified
    obtain ⟨-, -, fine, -, -, within, known, both, maybe, differ, agree, -⟩ := classified
    obtain ⟨⟨neq, neqGiven, neqFine⟩, eq, eqGiven, eqFine⟩ :=
      decided (by simpa using fine) (by simpa using within)
    cases neq <;> cases eq <;> simp_all

theorem not_missing_of_present {c : Classification} (classified : e.classify? = some c)
    (present : e.missing = false) (based : e.baseToolMissing = false) :
    c ≠ .missing ∧ c ≠ .baseToolMissing := by
  simp only [classify?, present, based, Bool.false_eq_true, if_false] at classified
  repeat' split at classified
  all_goals cases classified <;> decide

theorem cases_of_depthLimited {c : Classification} (classified : e.classify? = some c)
    (present : e.missing = false) (based : e.baseToolMissing = false)
    (punctual : e.flags.isTimeout = false) (limited : e.flags.isDepthLimited = true) :
    c = .error ∨ c = .unreachable ∨ c = .depthLimited := by
  simp only [classify?, present, based, punctual, limited, Bool.false_eq_true, if_false, if_true]
    at classified
  repeat' split at classified
  all_goals
    cases classified
    simp

theorem cases_of_definitive {c : Classification} (classified : e.classify? = some c)
    (definitive : c.isDefinitive = true) :
    e.flags.isError = false ∧
      ((c = .unreachable ∧ e.pc = some .unsat) ∨
        (e.flags.isDepthLimited = false ∧ e.pc ≠ some .unsat ∧ e.pc ≠ some .unknown ∧
          e.neq ≠ some .unknown ∧
          ((c = .neq ∧ ((e.neq = some .sat ∧ e.callAnywhere = false) ∨ e.eq = some .unsat)) ∨
            (c = .eq ∧ e.neq = some .unsat)))) := by
  unfold classify? at classified
  rcases rule_cases classified with ⟨-, rfl⟩ | ⟨-, classified⟩
  · cases definitive
  rcases rule_cases classified with ⟨-, rfl⟩ | ⟨-, classified⟩
  · cases definitive
  rcases rule_cases classified with ⟨-, rfl⟩ | ⟨fine, classified⟩
  · cases definitive
  refine ⟨by simpa using fine, ?_⟩
  rcases rule_cases classified with ⟨unsat, rfl⟩ | ⟨reachable, classified⟩
  · exact .inl ⟨rfl, unsat⟩
  rcases rule_cases classified with ⟨-, rfl⟩ | ⟨-, classified⟩
  · cases definitive
  rcases rule_cases classified with ⟨-, rfl⟩ | ⟨within, classified⟩
  · cases definitive
  rcases rule_cases classified with ⟨-, rfl⟩ | ⟨known, classified⟩
  · cases definitive
  simp only [not_or] at known
  refine .inr ⟨by simpa using within, reachable, known.1, known.2.1, ?_⟩
  rcases rule_cases classified with ⟨-, rfl⟩ | ⟨-, classified⟩
  · cases definitive
  rcases rule_cases classified with ⟨-, rfl⟩ | ⟨-, classified⟩
  · cases definitive
  rcases rule_cases classified with ⟨differ, rfl⟩ | ⟨-, classified⟩
  · exact .inl ⟨rfl, by simpa using differ⟩
  rcases rule_cases classified with ⟨agree, rfl⟩ | ⟨-, classified⟩
  · exact .inr ⟨rfl, agree.1⟩
  cases classified

theorem pc_of_unreachable (classified : e.classify? = some .unreachable) :
    e.pc = some .unsat := by
  have found := (cases_of_definitive classified rfl).2
  simp only [reduceCtorEq, false_and, or_false, and_false, true_and] at found
  exact found

theorem neq_of_eq (classified : e.classify? = some .eq) :
    e.flags.isDepthLimited = false ∧ e.neq = some .unsat := by
  have found := (cases_of_definitive classified rfl).2
  simp only [reduceCtorEq, false_and, false_or, true_and] at found
  exact ⟨found.1, found.2.2.2.2⟩

theorem cases_of_neq (classified : e.classify? = some .neq) :
    e.flags.isError = false ∧ e.flags.isDepthLimited = false ∧ e.pc ≠ some .unsat ∧
      e.pc ≠ some .unknown ∧ e.neq ≠ some .unknown ∧
      ((e.neq = some .sat ∧ e.callAnywhere = false) ∨ e.eq = some .unsat) := by
  have found := cases_of_definitive classified rfl
  simp only [reduceCtorEq, false_and, or_false, false_or, true_and] at found
  exact found

end Evidence

end PathEquiv
