import PathEquiv.Proofs.Containers
import PathEquiv.Proofs.Run.Ledger

set_option autoImplicit false

namespace PathEquiv

/-- One of the expressions has a defect, or together they use a symbol with two signatures. -/
def Malformed (exprs : List Expr) : Prop :=
  (∃ e ∈ exprs, ¬e.Valid) ∨
    ∃ first ∈ exprs.flatMap Expr.uses, ∃ second ∈ exprs.flatMap Expr.uses,
      first.name = second.name ∧ first ≠ second

theorem not_malformed_iff {exprs : List Expr} :
    ¬Malformed exprs ↔ (∀ e ∈ exprs, e.Valid) ∧ Consistent (exprs.flatMap Expr.uses) := by
  simp only [Malformed, Consistent, not_or, not_exists, not_and, Classical.not_not]

def wellFormed (exprs : List Expr) : Bool :=
  exprs.all (fun e => e.check.isOk) && (inferFromExprs {} exprs).isOk

theorem wellFormed_iff {exprs : List Expr} : wellFormed exprs = true ↔ ¬Malformed exprs := by
  have checked (e : Expr) : e.check.isOk = true ↔ e.Valid :=
    isOk_iff_exists.trans ⟨fun ⟨(), valid⟩ => valid, fun valid => ⟨(), valid⟩⟩
  simp only [wellFormed, Bool.and_eq_true, List.all_eq_true, checked, isOk_iff_exists,
    inferFromExprs_eq_ok_iff, not_malformed_iff]

instance (exprs : List Expr) : Decidable (Malformed exprs) :=
  decidable_of_iff (¬wellFormed exprs = true) ((not_congr wellFormed_iff).trans Classical.not_not)

namespace Synthesizer

theorem exists_synthesize_iff (s : Synthesizer) (condition : Option Expr) (old new : Expr) :
    (∃ queries, s.synthesize condition old new = .ok queries) ↔
      ¬Malformed (condition.toList ++ [old, new]) := by
  rw [not_malformed_iff, ← inferFromExprs_eq_ok_iff s.known, forall_valid_iff]
  simp only [synthesize_eq_ok]
  constructor
  next =>
    rintro ⟨_, conditionValid, oldValid, newValid, declarations, inferred, -⟩
    exact ⟨⟨conditionValid, oldValid, newValid⟩, declarations, inferred⟩
  next =>
    rintro ⟨⟨conditionValid, oldValid, newValid⟩, declarations, inferred⟩
    exact ⟨_, conditionValid, oldValid, newValid, declarations, inferred, rfl⟩

theorem exists_reachability_iff (s : Synthesizer) (condition : Option Expr) :
    (∃ query, s.reachability condition = .ok query) ↔ ¬Malformed condition.toList := by
  rw [not_malformed_iff, ← inferFromExprs_eq_ok_iff s.known]
  simp only [reachability_eq_ok, checkCondition_eq_ok]
  constructor
  next =>
    rintro ⟨_, valid, declarations, inferred, -⟩
    exact ⟨valid, declarations, inferred⟩
  next =>
    rintro ⟨valid, declarations, inferred⟩
    exact ⟨_, valid, declarations, inferred, rfl⟩

end Synthesizer

def Event.Accepted : Event → Prop
  | .comparison site => ¬Malformed (site.condition.toList ++ [site.old, site.new])
  | .depthLimit condition => ¬Malformed condition.toList
  | .choice _ _ _ => False

instance : DecidablePred Event.Accepted
  | .comparison _ => inferInstanceAs (Decidable (¬Malformed _))
  | .depthLimit _ => inferInstanceAs (Decidable (¬Malformed _))
  | .choice _ _ _ => inferInstanceAs (Decidable False)

namespace Run

variable {σ : Type}

theorem exists_poses_iff (setup : Setup) (event : Event) :
    (∃ queries, Poses setup event queries) ↔ event.Accepted := by
  cases event with
  | comparison site =>
    rw [Event.Accepted, ← setup.synthesizer.exists_synthesize_iff]
    constructor
    · rintro ⟨_, ⟨posed⟩⟩
      exact ⟨_, posed⟩
    · rintro ⟨queries, posed⟩
      exact ⟨_, .comparison posed⟩
  | depthLimit condition =>
    rw [Event.Accepted, ← setup.synthesizer.exists_reachability_iff]
    constructor
    · rintro ⟨_, - | ⟨posed⟩⟩
      exact ⟨_, posed⟩
    · rintro ⟨query, posed⟩
      exact ⟨_, .depthLimit posed⟩
  | choice state number condition =>
    simp only [Event.Accepted, iff_false]
    rintro ⟨_, ⟨⟩⟩

/-- A partition that fails mildly leaves a run as it was, with nothing written and nothing asked,
and it does so exactly if it is malformed. A fatal failure leaves at least the records and the
choices. -/
structure FailsCleanly (run : Run σ) (malformed : Prop)
    (outcome : Except EngineError Record × Run σ) : Prop where
  traceless : ∀ e, outcome.1 = .error e → e.isFatal = false →
    outcome.2.counter = run.counter ∧ outcome.2.records = run.records ∧
      outcome.2.choices = run.choices ∧ outcome.2.outside = run.outside ∧
      outcome.2.effects = run.effects
  rejected : (∃ e, outcome.1 = .error e ∧ e.isFatal = false) ↔ malformed
  fatal : ∀ e, outcome.1 = .error e → e.isFatal = true →
    outcome.2.records = run.records ∧ outcome.2.choices = run.choices

theorem Partitioned.failsCleanly {host : Host σ} {setup : Setup} {event : Event} {run : Run σ}
    {outcome : Except EngineError Record × Run σ}
    (ended : Partitioned host setup event run outcome) :
    FailsCleanly run (¬event.Accepted) outcome := by
  rw [← exists_poses_iff setup event]
  cases ended with
  | refused mild unposed =>
    refine ⟨fun _ _ _ => ⟨rfl, rfl, rfl, rfl, rfl⟩, ?_, fun _ _ _ => ⟨rfl, rfl⟩⟩
    exact ⟨fun _ ⟨queries, poses⟩ => unposed queries poses, fun _ => ⟨_, rfl, mild⟩⟩
  | aborted grows _ _ poses =>
    refine ⟨?_, ⟨?_, fun rejected => absurd ⟨_, poses⟩ rejected⟩, ?_⟩
    next =>
      rintro _ ⟨⟩ mild
      cases mild
    next =>
      rintro ⟨_, ⟨⟩, mild⟩
      cases mild
    next => exact fun _ _ _ => ⟨by simpa using grows.records, grows.choices⟩
  | recorded _ _ poses =>
    refine ⟨?_, ⟨?_, fun rejected => absurd ⟨_, poses⟩ rejected⟩, ?_⟩
    next => rintro _ ⟨⟩
    next => rintro ⟨_, ⟨⟩, -⟩
    next => rintro _ ⟨⟩

/-- Whatever the state of a run, a comparison or a depth limit that is rejected leaves no trace,
and it is rejected exactly if its expressions are malformed. -/
theorem rejection_leaves_no_trace (host : Host σ) (config : Config) (run : Run σ) :
    (∀ site : Site, FailsCleanly run (Malformed (site.condition.toList ++ [site.old, site.new]))
      (compare host config.setup site run)) ∧
    ∀ condition : Option Expr, FailsCleanly run (Malformed condition.toList)
      (limitDepth host config.setup condition run) := by
  constructor
  next =>
    intro site
    have clean := (compare_cases host config.setup site run).failsCleanly
    simpa only [Event.Accepted, Classical.not_not] using clean
  next =>
    intro condition
    have clean := (limitDepth_cases host config.setup condition run).failsCleanly
    simpa only [Event.Accepted, Classical.not_not] using clean

theorem rejection_leaves_no_trace_two_sorts :
    let host := flaky (· == 6) fun _ => .ok ⟨.sat, none, "", {}⟩
    let run := after host (Config.setup {}) { outside := 0 }
      [.depthLimit none, .choice 1 2 (some (.bool true))]
    let site : Site := ⟨some (.lt (.intVar "x") (.int 3)), .realVar "x", .real "1.5", {}⟩
    Malformed (site.condition.toList ++ [site.old, site.new]) ∧
      (∃ e, (compare host (Config.setup {}) site run).1 = .error e ∧ e.isFatal = false ∧
        (compare host (Config.setup {}) site run).2.counter = run.counter ∧
        (compare host (Config.setup {}) site run).2.effects = run.effects) ∧
      ∃ e, (limitDepth host (Config.setup {}) none run).1 = .error e ∧ e.isFatal = true ∧
        (limitDepth host (Config.setup {}) none run).2.records = run.records := by
  intro host run site
  obtain ⟨compared, limited⟩ := rejection_leaves_no_trace host {} run
  have malformed : Malformed (site.condition.toList ++ [site.old, site.new]) := by
    refine .inr ⟨⟨"x", [], .integer⟩, ?_, ⟨"x", [], .real⟩, ?_, rfl, by decide⟩
    all_goals decide
  obtain ⟨e, failed, mild⟩ := (compared site).rejected.mpr malformed
  obtain ⟨counter, -, -, -, effects⟩ := (compared site).traceless e failed mild
  refine ⟨malformed, ⟨e, failed, mild, counter, effects⟩, ?_⟩
  -- The seventh write fails. The condition is not malformed, so the failure is a fatal one.
  have failed : (limitDepth host (Config.setup {}) none run).1.isOk = false := by decide +kernel
  cases result : (limitDepth host (Config.setup {}) none run).1 with
  | ok => cases (congrArg Except.isOk result).symm.trans failed
  | error e =>
    have fatal : e.isFatal = true := by
      by_contra other
      have rejected := (limited none).rejected.mp ⟨e, result, by simpa using other⟩
      simp [Malformed] at rejected
    exact ⟨e, rfl, fatal, ((limited none).fatal e result fatal).1⟩

end Run

end PathEquiv
