import PathEquiv.Command.Run
import PathEquiv.Proofs.Run.Replay
import PathEquiv.Proofs.Run.Settled
import PathEquiv.Proofs.Solver.Answer

set_option autoImplicit false

namespace PathEquiv.Run

variable {σ : Type}

theorem status_unsat_iff (solver : SolverConfig) (attempt : Attempt) :
    (answerOf (attempt.map solver.answerOf)).status = .unsat ↔ attempt.Refutes := by
  cases attempt with
  | error =>
    refine iff_of_false (fun refuted => ?_) id
    cases refuted
  | ok finished =>
    have said := @SolverConfig.status_answerOf solver finished .unsat (by decide)
    rw [SolverStatus.ofChars_eq_unsat_iff, finished.trim_firstLine] at said
    exact said

theorem status_error_iff (solver : SolverConfig) (attempt : Attempt) :
    (answerOf (attempt.map solver.answerOf)).status = .error ↔ attempt.Fails := by
  cases attempt with
  | error => exact iff_of_true rfl trivial
  | ok finished =>
    have said := @SolverConfig.status_answerOf solver finished .error (by decide)
    rw [SolverStatus.ofChars_eq_error_iff, finished.trim_firstLine] at said
    exact said

def Progress.agrees (progress : Progress) : Bool :=
  progress.answers.neq.any (·.status == .unsat)

section Consulted

variable {reply : QueryKind → String → Except SolverError Answer}

theorem consult_of_error (queries : List Query) {progress : Progress}
    (failed : progress.flags.isError = true) : consult reply queries progress = progress := by
  cases queries <;> simp [consult, failed]

theorem agrees_of_unasked {progress : Progress} (unasked : progress.answers.get? .neq = none) :
    progress.agrees = false := by
  rw [Progress.agrees, show progress.answers.neq = none from unasked, Option.any_none]

theorem agrees_consult {neq eq : Query} (neqKind : neq.kind = .neq) (eqKind : eq.kind = .eq)
    {progress : Progress} (running : progress.flags.isError = false) :
    (consult reply [neq, eq] progress).agrees = true ↔
      (answerOf (reply .neq neq.text)).status = .unsat := by
  have answered : (progress.note neq (reply neq.kind neq.text)).answers.get? .neq =
      some (answerOf (reply .neq neq.text)) := by
    rw [answers_note, PerQuery.get?_set, if_pos neqKind, neqKind]
  have kept (progress : Progress) :
      (consult reply [eq] progress).answers.get? .neq = progress.answers.get? .neq := by
    unfold consult
    split
    next => rfl
    next => rw [consult, answers_note, PerQuery.get?_set, if_neg (by simp [eqKind])]
  have final : (consult reply [neq, eq] progress).answers.neq =
      some (answerOf (reply .neq neq.text)) := by
    rw [consult, running, if_neg Bool.false_ne_true]
    exact (kept _).trans answered
  rw [Progress.agrees, final]
  simp

theorem agrees_comparison {setup : Setup} {site : Site} {queries : QuerySet}
    (posed : setup.synthesizer.synthesize site.condition site.old site.new = .ok queries)
    (flags : Flags) :
    (consult reply (comparisonQueries setup queries) { flags }).agrees = true ↔
      flags.isError = false ∧
      (setup.solveReachability = true →
        (answerOf (reply .reachability queries.reachability.text)).status ≠ .error) ∧
      (answerOf (reply .neq queries.neq.text)).status = .unsat := by
  have neqKind : queries.neq.kind = .neq := Synthesizer.kind_synthesize posed .neq
  have eqKind : queries.eq.kind = .eq := Synthesizer.kind_synthesize posed .eq
  have pcKind : queries.reachability.kind = .reachability :=
    Synthesizer.kind_synthesize posed .reachability
  cases failed : flags.isError with
  | true =>
    rw [consult_of_error _ failed, agrees_of_unasked rfl]
    simp
  | false =>
    cases wanted : setup.solveReachability with
    | false =>
      rw [comparisonQueries, wanted, if_neg Bool.false_ne_true, List.nil_append,
        agrees_consult neqKind eqKind failed]
      simp
    | true =>
      rw [comparisonQueries, wanted, if_pos rfl, List.singleton_append, consult, failed,
        if_neg Bool.false_ne_true, pcKind]
      let first := Progress.note { flags } queries.reachability
        (reply .reachability queries.reachability.text)
      show (consult reply [queries.neq, queries.eq] first).agrees = true ↔ _
      by_cases broken : (answerOf (reply .reachability queries.reachability.text)).status = .error
      next =>
        -- The partition is an error already, so the comparisons are not asked.
        have stopped : first.flags.isError = true := by rw [flags_note, if_pos broken]
        have unasked : first.answers.get? .neq = none := by
          rw [answers_note, PerQuery.get?_set, pcKind, if_neg (by decide)]
          rfl
        rw [consult_of_error _ stopped, agrees_of_unasked unasked]
        simp [broken]
      next =>
        have running : first.flags.isError = false := by
          rw [flags_note, if_neg broken]
          exact failed
        rw [agrees_consult neqKind eqKind running]
        simp [broken]

def verdict (setup : Setup) (reply : QueryKind → String → Except SolverError Answer)
    (site : Site) : Except EngineError Outcome :=
  match setup.synthesizer.synthesize site.condition site.old site.new with
  | .error cause => .error (.synthesis cause)
  | .ok queries => .ok (.compared
      (consult reply (comparisonQueries setup queries) { flags := site.flags }).agrees)

end Consulted

theorem step_comparison {host : Host σ} {setup : Setup} {site : Site} {run : Run σ}
    {reply : QueryKind → String → Except SolverError Answer} (answers : AnswersBy host reply)
    (unfailed : ∀ effect ∈ (step host setup (.comparison site) run).2.effects.drop
      run.effects.length, effect.isFailure = false) :
    (step host setup (.comparison site) run).1 = verdict setup reply site := by
  unfold verdict
  rw [step, bind_run] at unfailed ⊢
  cases posed : setup.synthesizer.synthesize site.condition site.old site.new with
  | error cause =>
    unfold compare
    rw [bind_run, lift_run, posed]
    rfl
  | ok queries =>
    have ended := compare_cases host setup site run
    generalize compare host setup site run = outcome at ended unfailed ⊢
    cases ended with
    | refused _ unposed => exact absurd (.comparison posed) (unposed _)
    | @aborted path _ later added _ grows _ failed =>
      have new : later.effects.drop run.effects.length = added := by
        rw [grows.effects]
        exact List.drop_left
      cases unfailed (.failedToWrite path) (new ▸ failed)
    | recorded _ recorded =>
      cases recorded with
      | comparison posed' asked =>
        cases posed.symm.trans posed'
        cases asked.eq_consult answers
        rfl

/-- The host answers by what comes of its attempts to ask a solver. -/
def AnswersWith (host : Host σ) (solver : SolverConfig)
    (attempt : QueryKind → String → σ → Attempt) : Prop :=
  ∀ query path s, (host.solve query path s).1 = (attempt query.kind path s).map solver.answerOf

theorem answersWith_command (solver : SolverConfig) :
    AnswersWith (Command.host solver) solver fun _ path w => solver.attempt path w :=
  fun _ path w => solver.solve_eq path w

/-- Between two states of a run no write failed, and the solver came out of each attempt as told.
What it would have done at other times is left open. -/
structure Attempted (host : Host σ) (attempt : QueryKind → String → σ → Attempt)
    (attempts : QueryKind → Attempt) (run later : Run σ) : Prop where
  unfailed : ∀ effect ∈ later.effects.drop run.effects.length, effect.isFailure = false
  told : ∀ before kind path rest,
    later.effects.drop run.effects.length = before ++ .asked kind path :: rest →
      ∀ reached, Reaches host run.outside before reached →
        attempt kind path reached = attempts kind

def replyOf (solver : SolverConfig) (attempts : QueryKind → Attempt) (kind : QueryKind) :
    Except SolverError Answer :=
  (attempts kind).map solver.answerOf

theorem Attempted.step_eq {host : Host σ} {setup : Setup} {solver : SolverConfig} {site : Site}
    {run : Run σ} {attempt : QueryKind → String → σ → Attempt} {attempts : QueryKind → Attempt}
    (attempted : Attempted host attempt attempts run (step host setup (.comparison site) run).2)
    (answers : AnswersWith host solver attempt) :
    (step host setup (.comparison site) run).1 =
      verdict setup (fun kind _ => replyOf solver attempts kind) site := by
  let reply := replyOf solver attempts
  have follows : Follows host reply (step host setup (.comparison site))
      (step (host.settled reply) setup (.comparison site)) :=
    (Follows.compare setup site).bind fun _ => .still (fun _ => rfl) fun _ => rfl
  obtain ⟨added, effects, -, same⟩ := follows run
  have new : (step host setup (.comparison site) run).2.effects.drop run.effects.length =
      added := by
    rw [effects]
    exact List.drop_left
  have replied : Replied host reply run.outside added := by
    intro before query path rest split reached reaches
    rw [answers, attempted.told before query.kind path rest (new.trans split) reached reaches]
    rfl
  have unfailed := attempted.unfailed
  rw [← same replied] at unfailed ⊢
  exact step_comparison (fun _ _ _ => rfl) unfailed

theorem agrees_attempts {config : Config} {site : Site} {queries : QuerySet}
    (posed : config.synthesizer.synthesize site.condition site.old site.new = .ok queries)
    (attempts : QueryKind → Attempt) (flags : Flags) :
    (consult (fun kind _ => replyOf config.solver attempts kind)
      (comparisonQueries config.setup queries) { flags }).agrees = true ↔
      flags.isError = false ∧
      (config.solveReachability = true → ¬(attempts .reachability).Fails) ∧
      (attempts .neq).Refutes := by
  have agrees := @agrees_comparison (fun kind _ => replyOf config.solver attempts kind)
    config.setup site queries posed flags
  simp only [replyOf, ne_eq, status_error_iff, status_unsat_iff] at agrees
  exact agrees

theorem verdict_iff {config : Config} {site : Site} {attempts : QueryKind → Attempt} :
    verdict config.setup (fun kind _ => replyOf config.solver attempts kind) site =
        .ok (.compared true) ↔
      (∃ queries,
        config.synthesizer.synthesize site.condition site.old site.new = .ok queries) ∧
      site.flags.isError = false ∧
      (config.solveReachability = true → ¬(attempts .reachability).Fails) ∧
      (attempts .neq).Refutes := by
  unfold verdict
  cases posed : config.setup.synthesizer.synthesize site.condition site.old site.new with
  | error cause =>
    refine iff_of_false (fun compared => ?_) fun given => ?_
    · cases compared
    · obtain ⟨queries, built⟩ := given.1
      cases posed.symm.trans built
  | ok queries =>
    have agrees := agrees_attempts posed attempts site.flags
    constructor
    next =>
      intro compared
      exact ⟨⟨queries, posed⟩, agrees.mp (Outcome.compared.inj (Except.ok.inj compared))⟩
    next =>
      intro given
      exact congrArg (fun agrees => Except.ok (Outcome.compared agrees)) (agrees.mpr given.2)

theorem verdict_congr {config : Config} {site : Site} {flags : Flags}
    {attempts others : QueryKind → Attempt}
    (reachability : config.solveReachability = true →
      others .reachability = attempts .reachability)
    (neq : others .neq = attempts .neq) (error : flags.isError = site.flags.isError) :
    verdict config.setup (fun kind _ => replyOf config.solver others kind) { site with flags } =
      verdict config.setup (fun kind _ => replyOf config.solver attempts kind) site := by
  unfold verdict
  cases posed : config.setup.synthesizer.synthesize site.condition site.old site.new with
  | error cause => rfl
  | ok queries =>
    have passed : (config.solveReachability = true → ¬(others .reachability).Fails) ↔
        (config.solveReachability = true → ¬(attempts .reachability).Fails) :=
      forall_congr' fun wanted => by rw [reachability wanted]
    refine congrArg (fun agrees => Except.ok (Outcome.compared agrees)) (Bool.eq_iff_iff.mpr ?_)
    rw [agrees_attempts posed, agrees_attempts posed, passed, neq, error]

/-- The exploration is told that two results are equivalent exactly if the comparison can be posed,
it comes without an error, no solver failed on the path condition, and on the query for a difference
a solver ended on its own with the word that there is none. The third query and the other flags have
no part in this, nor has anything else that the host does. -/
theorem oracle_fails_closed (host : Host σ) (config : Config) (site : Site) (run : Run σ)
    (attempt : QueryKind → String → σ → Attempt) (attempts : QueryKind → Attempt)
    (answers : AnswersWith host config.solver attempt)
    (attempted : Attempted host attempt attempts run
      (step host config.setup (.comparison site) run).2) :
    ((step host config.setup (.comparison site) run).1 = .ok (.compared true) ↔
      (∃ queries,
        config.synthesizer.synthesize site.condition site.old site.new = .ok queries) ∧
      site.flags.isError = false ∧
      (config.solveReachability = true → ¬(attempts .reachability).Fails) ∧
      (attempts .neq).Refutes) ∧
    ∀ {τ : Type} (other : Host τ) (elsewhere : Run τ) (attempt' : QueryKind → String → τ → Attempt)
      (others : QueryKind → Attempt) (flags : Flags),
      AnswersWith other config.solver attempt' →
      Attempted other attempt' others elsewhere
        (step other config.setup (.comparison { site with flags }) elsewhere).2 →
      (config.solveReachability = true → others .reachability = attempts .reachability) →
      others .neq = attempts .neq → flags.isError = site.flags.isError →
      (step other config.setup (.comparison { site with flags }) elsewhere).1 =
        (step host config.setup (.comparison site) run).1 := by
  rw [attempted.step_eq answers]
  refine ⟨verdict_iff, ?_⟩
  intro τ other elsewhere attempt' others flags answers' attempted' reachability neq error
  rw [attempted'.step_eq answers']
  exact verdict_congr reachability neq error

/-- A solver that is stopped at the first query, answers the second before it ends in one way or
another, and cannot be run for the third. -/
def faltering (ending : Option Ending) : QueryKind → Attempt
  | .reachability => .ok ⟨none, Text.encodeBytes "(error", [], 3000, {}⟩
  | .neq => .ok ⟨ending, Text.encodeBytes " unsat\r\nsat", [], 40, {}⟩
  | .eq => .error (.transfer "broken pipe")

/-- An answer counts that was given before a crash, and does not count if the solver was stopped. -/
theorem oracle_fails_closed_faltering :
    let host (ending : Option Ending) := flaky (fun _ => false) fun kind =>
      (faltering ending kind).map (Config.solver {}).answerOf
    let site : Site := ⟨none, .intVar "x", .intVar "x", { isTimeout := true }⟩
    let outcome (ending : Option Ending) :=
      step (host ending) (Config.setup {}) (.comparison site) { outside := 0 }
    (∀ ending, AnswersWith (host ending) (Config.solver {}) fun kind _ _ =>
      faltering ending kind) ∧
    (∀ ending ∈ [some (.signalled 11), none], Attempted (host ending)
      (fun kind _ _ => faltering ending kind) (faltering ending) { outside := 0 }
      (outcome ending).2) ∧
    (outcome (some (.signalled 11))).1 = .ok (.compared true) ∧
    (outcome none).1 ≠ .ok (.compared true) := by
  intro host site outcome
  have answers (ending : Option Ending) : AnswersWith (host ending) (Config.solver {})
      fun kind _ _ => faltering ending kind :=
    fun _ _ _ => rfl
  have unfailed : [some (Ending.signalled 11), none].all (fun ending =>
      (outcome ending).2.effects.all fun effect => !effect.isFailure) = true := by
    decide +kernel
  simp only [List.all_eq_true, Bool.not_eq_true'] at unfailed
  have attempted (ending : Option Ending) (given : ending ∈ [some (.signalled 11), none]) :
      Attempted (host ending) (fun kind _ _ => faltering ending kind) (faltering ending)
        { outside := 0 } (outcome ending).2 :=
    ⟨unfailed ending given, fun _ _ _ _ _ _ _ => rfl⟩
  have posed : ∃ queries, (Config.synthesizer {}).synthesize none site.old site.new = .ok queries :=
    ((Config.synthesizer {}).exists_synthesize_iff none _ _).mpr (by decide +kernel)
  have crashed := oracle_fails_closed (host (some (.signalled 11))) {} site { outside := 0 } _ _
    (answers _) (attempted _ (by simp))
  have stopped := oracle_fails_closed (host none) {} site { outside := 0 } _ _ (answers _)
    (attempted _ (by simp))
  refine ⟨answers, attempted, crashed.1.mpr ?_, fun compared => ?_⟩
  next => exact ⟨posed, rfl, fun _ failed => failed.1 rfl, by simp, by decide +kernel⟩
  next =>
    obtain ⟨-, -, -, ended, -⟩ := stopped.1.mp compared
    exact ended rfl

end PathEquiv.Run
