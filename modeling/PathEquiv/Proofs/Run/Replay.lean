import PathEquiv.Proofs.Partition.Summary
import PathEquiv.Proofs.Run.Rejection

set_option autoImplicit false

namespace PathEquiv

def Outcome.isPartition : Outcome → Bool
  | .compared _ | .depthLimited => true
  | .choiceCaptured | .skipped _ => false

namespace Record

def outcome (record : Record) : Outcome :=
  match record.kind with
  | .comparison => .compared record.equivalent
  | .depthLimit => .depthLimited

theorem isPartition_outcome (record : Record) : record.outcome.isPartition = true := by
  unfold outcome
  cases record.kind <;> rfl

def unnumbered (record : Record) : Record :=
  { record with id := 0 }

end Record

theorem Summary.ofRecords_perm {records others : List Record} (runId : String)
    (same : (records.map Record.unnumbered).Perm (others.map Record.unnumbered)) :
    ofRecords runId records = ofRecords runId others := by
  have length : records.length = others.length := by simpa using same.length_eq
  have classes : (records.map Record.classification).Perm
      (others.map Record.classification) := by
    simpa [Function.comp_def, Record.unnumbered] using same.map Record.classification
  rw [ofRecords, ofRecords, length, Counts.ofList_perm classes]

namespace Run

variable {σ : Type}

/-- How an event is processed. Its partition is recorded, or it is passed over, or a write failed
and the run is over. -/
inductive Processed (host : Host σ) (setup : Setup) (event : Event) (run : Run σ) :
    Except EngineError Outcome × Run σ → Prop where
  | recorded {record : Record} {later : Run σ} (accepted : event.Accepted)
      (recorded : Recorded host setup event record)
      (records : later.records = run.records ++ [record]) :
      Processed host setup event run (.ok record.outcome, later)
  | passed {outcome : Outcome} {later : Run σ} (rejected : ¬event.Accepted)
      (plain : outcome.isPartition = false) (records : later.records = run.records) :
      Processed host setup event run (.ok outcome, later)
  | stopped {e : EngineError} {path : String} {later : Run σ}
      (failed : .failedToWrite path ∈ later.effects) :
      Processed host setup event run (.error e, later)

def skipMild : Except EngineError Outcome × Run σ → Except EngineError Outcome × Run σ
  | (.ok outcome, later) => (.ok outcome, later)
  | (.error e, later) => (if e.isFatal then .error e else .ok (.skipped e.message), later)

theorem state_skipMild (result : Except EngineError Outcome × Run σ) :
    (skipMild result).2 = result.2 := by
  obtain ⟨result, later⟩ := result
  cases result <;> rfl

theorem stepOrSkip_run (host : Host σ) (setup : Setup) (event : Event) (run : Run σ) :
    stepOrSkip host setup event run = skipMild (step host setup event run) := by
  simp only [stepOrSkip, tryCatch, tryCatchThe, MonadExceptOf.tryCatch, ExceptT.tryCatch,
    ExceptT.mk, bind, StateT.bind]
  cases step host setup event run with
  | mk result later =>
    cases result with
    | ok => rfl
    | error e => cases fatal : e.isFatal <;> simp [skipMild, fatal] <;> rfl

theorem Partitioned.processed {host : Host σ} {setup : Setup} {event : Event} {run : Run σ}
    {report : Record → Outcome}
    (reports : ∀ {record}, Recorded host setup event record → report record = record.outcome)
    {action : RunM σ Record} (ended : Partitioned host setup event run (action run)) :
    Processed host setup event run
      (skipMild ((action >>= fun record => pure (report record)) run)) := by
  rw [bind_run]
  generalize action run = outcome at ended ⊢
  cases ended with
  | refused mild unposed =>
    have rejected : ¬event.Accepted := by
      intro accepted
      obtain ⟨queries, poses⟩ := (exists_poses_iff setup event).mpr accepted
      exact unposed queries poses
    simp only [skipMild, mild]
    exact .passed rejected rfl rfl
  | aborted grows _ failed =>
    exact .stopped (grows.effects ▸ List.mem_append_right _ failed)
  | @recorded record later _ _ _ recorded poses _ grows =>
    have accepted := (exists_poses_iff setup event).mp ⟨_, poses⟩
    show Processed host setup event run (.ok (report record), later)
    rw [reports recorded]
    exact .recorded accepted recorded grows.records

theorem Captures.processed {host : Host σ} {setup : Setup} {state number : Nat}
    {condition : Expr} {run : Run σ} {action : RunM σ Unit}
    (ended : Captures host setup state number condition run (action run)) :
    Processed host setup (.choice state number (some condition)) run
      (skipMild ((action >>= fun _ => pure .choiceCaptured) run)) := by
  rw [bind_run]
  generalize action run = outcome at ended ⊢
  cases ended with
  | duplicate => exact .passed id rfl rfl
  | malformed => exact .passed id rfl rfl
  | aborted _ _ grows _ failed =>
    exact .stopped (grows.effects ▸ List.mem_append_right _ failed)
  | archived _ _ _ grows => exact .passed id rfl (by simpa using grows.records)

theorem stepOrSkip_cases (host : Host σ) (setup : Setup) (event : Event) (run : Run σ) :
    Processed host setup event run (stepOrSkip host setup event run) := by
  rw [stepOrSkip_run]
  cases event with
  | comparison site =>
    refine (compare_cases host setup site run).processed fun recorded => ?_
    cases recorded
    rfl
  | depthLimit condition =>
    refine Partitioned.processed (fun recorded => ?_) (limitDepth_cases host setup condition run)
    cases recorded
    rfl
  | choice state number condition =>
    cases condition with
    | none => exact .passed id rfl rfl
    | some condition => exact (captures host setup state number condition run).processed

theorem replay_cons_ok {host : Host σ} {setup : Setup} {event : Event} {run later : Run σ}
    {outcome : Outcome} (processed : stepOrSkip host setup event run = (.ok outcome, later))
    (events : List Event) :
    (replay host setup (event :: events) run).2 = (replay host setup events later).2 ∧
      ∀ outcomes, (replay host setup events later).1 = .ok outcomes →
        (replay host setup (event :: events) run).1 = .ok (outcome :: outcomes) := by
  have split : replay host setup (event :: events) run =
      (replay host setup events >>= fun outcomes => pure (outcome :: outcomes)) later := by
    rw [replay, bind_run, processed]
  rw [split]
  refine ⟨bind_pure_state _ _ later, fun outcomes rest => ?_⟩
  rw [bind_run]
  generalize replay host setup events later = result at rest ⊢
  obtain ⟨_, last⟩ := result
  subst rest
  rfl

theorem replay_cons_error {host : Host σ} {setup : Setup} {event : Event} {run later : Run σ}
    {e : EngineError} (stopped : stepOrSkip host setup event run = (.error e, later))
    (events : List Event) :
    replay host setup (event :: events) run = (.error e, later) := by
  rw [replay, bind_run, stopped]

/-- A replay stops where an event fails for good, and what it leaves is the state after the events up
to there. -/
theorem replay_eq_after (host : Host σ) (setup : Setup) (events : List Event) (run : Run σ) :
    ∃ done, done <+: events ∧ (replay host setup events run).2 = after host setup run done := by
  induction events generalizing run with
  | nil => exact ⟨[], List.prefix_refl [], rfl⟩
  | cons event events ih =>
    have state : (stepOrSkip host setup event run).2 = (step host setup event run).2 := by
      rw [stepOrSkip_run]
      exact state_skipMild _
    generalize processed : stepOrSkip host setup event run = result at state
    obtain ⟨result, later⟩ := result
    cases result with
    | ok outcome =>
      obtain ⟨done, first, same⟩ := ih later
      refine ⟨event :: done, List.cons_prefix_cons.mpr ⟨rfl, first⟩, ?_⟩
      dsimp only at state
      rw [(replay_cons_ok processed events).1, same, state]
      rfl
    | error e =>
      refine ⟨[event], List.cons_prefix_cons.mpr ⟨rfl, List.nil_prefix⟩, ?_⟩
      rw [replay_cons_error processed]
      exact state

inductive Corresponds (host : Host σ) (setup : Setup) :
    List Event → List Outcome → List Record → Prop where
  | nil : Corresponds host setup [] [] []
  | recorded {event : Event} {record : Record} {events : List Event} {outcomes : List Outcome}
      {kept : List Record} (accepted : event.Accepted)
      (recorded : Recorded host setup event record)
      (rest : Corresponds host setup events outcomes kept) :
      Corresponds host setup (event :: events) (record.outcome :: outcomes) (record :: kept)
  | passed {event : Event} {outcome : Outcome} {events : List Event} {outcomes : List Outcome}
      {kept : List Record} (rejected : ¬event.Accepted) (plain : outcome.isPartition = false)
      (rest : Corresponds host setup events outcomes kept) :
      Corresponds host setup (event :: events) (outcome :: outcomes) kept

theorem corresponds_replay {host : Host σ} {setup : Setup} {events : List Event} {run : Run σ}
    (unfailed : ∀ effect ∈ (replay host setup events run).2.effects, effect.isFailure = false) :
    ∃ outcomes kept, (replay host setup events run).1 = .ok outcomes ∧
      (replay host setup events run).2.records = run.records ++ kept ∧
      Corresponds host setup events outcomes kept := by
  induction events generalizing run with
  | nil => exact ⟨[], [], rfl, (List.append_nil run.records).symm, .nil⟩
  | cons event events ih =>
    have ended := stepOrSkip_cases host setup event run
    generalize processed : stepOrSkip host setup event run = result at ended
    cases ended with
    | @stopped e path later failed =>
      -- Only a failed write ends a replay.
      rw [replay_cons_error processed] at unfailed
      cases unfailed _ failed
    | @recorded record later accepted recorded records =>
      obtain ⟨state, result⟩ := replay_cons_ok processed events
      rw [state] at unfailed ⊢
      obtain ⟨outcomes, kept, returned, grown, rest⟩ := ih unfailed
      refine ⟨_, record :: kept, result outcomes returned, ?_, .recorded accepted recorded rest⟩
      simp [grown, records]
    | @passed outcome later rejected plain records =>
      obtain ⟨state, result⟩ := replay_cons_ok processed events
      rw [state] at unfailed ⊢
      obtain ⟨outcomes, kept, returned, grown, rest⟩ := ih unfailed
      refine ⟨_, kept, result outcomes returned, ?_, .passed rejected plain rest⟩
      rw [grown, records]

namespace Corresponds

variable {host : Host σ} {setup : Setup} {events : List Event} {outcomes : List Outcome}
  {kept : List Record}

theorem places (corresponds : Corresponds host setup events outcomes kept) :
    outcomes.map Outcome.isPartition = events.map fun event => decide event.Accepted := by
  induction corresponds with
  | nil => rfl
  | recorded accepted _ _ ih => simp [ih, accepted, Record.isPartition_outcome]
  | passed rejected plain _ ih => simp [ih, rejected, plain]

theorem outcomes_eq (corresponds : Corresponds host setup events outcomes kept) :
    outcomes.filter Outcome.isPartition = kept.map Record.outcome := by
  induction corresponds with
  | nil => rfl
  | recorded _ _ _ ih => simp [ih, Record.isPartition_outcome]
  | passed _ plain _ ih => simp [ih, plain]

end Corresponds

section Functions

variable {host : Host σ} {setup : Setup}
  {reply : QueryKind → String → Except SolverError Answer}

/-- The host answers a query by its kind and its text. -/
def AnswersBy (host : Host σ) (reply : QueryKind → String → Except SolverError Answer) : Prop :=
  ∀ query path s, (host.solve query path s).1 = reply query.kind query.text

def consult (reply : QueryKind → String → Except SolverError Answer) :
    List Query → Progress → Progress
  | [], progress => progress
  | query :: queries, progress =>
      if progress.flags.isError then progress
      else consult reply queries (progress.note query (reply query.kind query.text))

theorem Asked.eq_consult (answers : AnswersBy host reply) {queries : List Query}
    {progress final : Progress} (asked : Asked host queries progress final) :
    final = consult reply queries progress := by
  induction asked with
  | done => rfl
  | @stopped queries progress failed => cases queries <;> simp [consult, failed]
  | next running replied _ ih =>
    obtain ⟨path, outside, rfl⟩ := replied
    rw [ih, consult, answers]
    simp [running]

def partitionOf? (setup : Setup) (reply : QueryKind → String → Except SolverError Answer) :
    Event → Option Record
  | .comparison site =>
      match setup.synthesizer.synthesize site.condition site.old site.new with
      | .error _ => none
      | .ok queries =>
          let progress := consult reply (comparisonQueries setup queries) { flags := site.flags }
          (progress.evidence (comparisonCalls site)).classify?.map
            (comparisonRecord site 0 progress)
  | .depthLimit condition =>
      match setup.synthesizer.reachability condition with
      | .error _ => none
      | .ok query =>
          let progress := consult reply (if setup.solveReachability then [query] else [])
            { flags := { isDepthLimited := true } }
          (progress.evidence (.ofCondition condition)).classify?.map
            (depthLimitRecord condition 0 progress)
  | .choice _ _ _ => none

theorem Recorded.partitionOf_eq (answers : AnswersBy host reply) {event : Event}
    {record : Record} (recorded : Recorded host setup event record) :
    partitionOf? setup reply event = some record.unnumbered := by
  cases recorded with
  | comparison posed asked classified =>
    cases asked.eq_consult answers
    simp only [partitionOf?, posed, classified]
    rfl
  | depthLimit posed asked classified =>
    cases asked.eq_consult answers
    simp only [partitionOf?, posed, classified]
    rfl

theorem Corresponds.unnumbered (answers : AnswersBy host reply) {events : List Event}
    {outcomes : List Outcome} {kept : List Record}
    (corresponds : Corresponds host setup events outcomes kept) :
    kept.map Record.unnumbered =
      (events.filter fun event => decide event.Accepted).filterMap
        (partitionOf? setup reply) := by
  induction corresponds with
  | nil => rfl
  | recorded accepted recorded _ ih => simp [ih, accepted, recorded.partitionOf_eq answers]
  | passed rejected _ _ ih => simp [ih, rejected]

end Functions

/-- A replay without a failed write reports one outcome for each event, and those of partitions
are in step with the records. If the answers depend on the queries alone, another order of the
accepted events, with whatever else in between, leaves the same records up to their numbers. -/
theorem replay_order_independent (host : Host σ) (config : Config) (outside : σ)
    (events : List Event)
    (unfailed : ∀ effect ∈ (replay host config.setup events { outside }).2.effects,
      effect.isFailure = false) :
    let run := (replay host config.setup events { outside }).2
    (∃ outcomes, (replay host config.setup events { outside }).1 = .ok outcomes ∧
      outcomes.length = events.length ∧
      outcomes.map Outcome.isPartition = (events.map fun event => decide event.Accepted) ∧
      outcomes.filter Outcome.isPartition = run.records.map Record.outcome) ∧
    ∀ {τ : Type} (other : Host τ) (elsewhere : τ) (others : List Event)
      (reply : QueryKind → String → Except SolverError Answer),
      AnswersBy host reply → AnswersBy other reply →
      let run' := (replay other config.setup others { outside := elsewhere }).2
      (∀ effect ∈ run'.effects, effect.isFailure = false) →
      (events.filter fun event => decide event.Accepted).Perm
        (others.filter fun event => decide event.Accepted) →
      (run.records.map Record.unnumbered).Perm (run'.records.map Record.unnumbered) ∧
        run.summary config.setup = run'.summary config.setup := by
  intro run
  obtain ⟨outcomes, kept, returned, records, corresponds⟩ := corresponds_replay unfailed
  have records : run.records = kept := records
  constructor
  next =>
    have length : outcomes.length = events.length := by
      simpa using congrArg List.length corresponds.places
    rw [records]
    exact ⟨outcomes, returned, length, corresponds.places, corresponds.outcomes_eq⟩
  next =>
    intro τ other elsewhere others reply answers answers' run' unfailed' reordered
    obtain ⟨_, kept', -, records', corresponds'⟩ := corresponds_replay unfailed'
    have records' : run'.records = kept' := records'
    have same : (run.records.map Record.unnumbered).Perm
        (run'.records.map Record.unnumbered) := by
      rw [records, records', corresponds.unnumbered answers, corresponds'.unnumbered answers']
      exact reordered.filterMap _
    exact ⟨same, Summary.ofRecords_perm _ same⟩

theorem replay_order_independent_swapped :
    let host := flaky (fun _ => false) fun kind =>
      if kind = .neq then .ok ⟨.unsat, none, "", {}⟩ else .ok ⟨.sat, none, "", {}⟩
    let sum := Event.comparison ⟨some (.lt (.intVar "x") (.int 3)),
      .add (.intVar "x") (.int 1), .add (.int 1) (.intVar "x"), {}⟩
    let run := (replay host (Config.setup {}) [sum, .choice 1 2 (some (.op .not [])),
      .comparison ⟨none, .intVar "y", .realVar "y", {}⟩, .depthLimit none] { outside := 0 }).2
    let run' := (replay host (Config.setup {}) [.depthLimit none, .choice 7 7 (some (.bool true)),
      sum] { outside := 0 }).2
    (∀ effect ∈ run.effects, effect.isFailure = false) ∧
      (∀ effect ∈ run'.effects, effect.isFailure = false) ∧
      run.records.map Record.outcome = [.compared true, .depthLimited] ∧
      run'.records.map Record.outcome = [.depthLimited, .compared true] ∧
      (run.records.map Record.unnumbered).Perm (run'.records.map Record.unnumbered) ∧
      run.summary (Config.setup {}) = run'.summary (Config.setup {}) := by
  intro host sum run run'
  have unfailed : (run.effects ++ run'.effects).all (fun effect => !effect.isFailure) = true := by
    decide +kernel
  simp only [List.all_append, Bool.and_eq_true, List.all_eq_true, Bool.not_eq_true'] at unfailed
  obtain ⟨-, independent⟩ := replay_order_independent host {} 0 _ unfailed.1
  refine ⟨unfailed.1, unfailed.2, by decide +kernel, by decide +kernel, ?_⟩
  refine independent host 0 _ (fun kind _ => if kind = .neq then .ok ⟨.unsat, none, "", {}⟩ else
    .ok ⟨.sat, none, "", {}⟩) (fun _ _ _ => rfl) (fun _ _ _ => rfl) unfailed.2 ?_
  exact List.Perm.swap _ _ []

end Run

end PathEquiv
