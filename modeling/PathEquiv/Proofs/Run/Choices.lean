import PathEquiv.Proofs.Run.Ledger

set_option autoImplicit false

namespace PathEquiv.Run

variable {σ : Type}

def tries? (state number : Nat) : Event → Option Expr
  | .choice s n condition => if s = state ∧ n = number then condition else none
  | .comparison _ | .depthLimit _ => none

theorem tries?_eq_some {state number : Nat} {event : Event} {condition : Expr} :
    tries? state number event = some condition ↔
      event = .choice state number (some condition) := by
  cases event with
  | choice s n given =>
    by_cases same : s = state ∧ n = number
    next => simp [tries?, same]
    next => simp [tries?, same, ← and_assoc]
  | comparison => simp [tries?]
  | depthLimit => simp [tries?]

def firstTry? (state number : Nat) (events : List Event) : Option Expr :=
  events.findSome? (tries? state number)

theorem firstTry?_cons (state number : Nat) (event : Event) (events : List Event) :
    firstTry? state number (event :: events) =
      (tries? state number event).or (firstTry? state number events) := by
  simp only [firstTry?, List.findSome?_cons]
  cases tries? state number event <;> rfl

theorem firstTry?_append (state number : Nat) (events more : List Event) :
    firstTry? state number (events ++ more) =
      (firstTry? state number events).or (firstTry? state number more) :=
  List.findSome?_append

theorem firstTry?_split {state number : Nat} {events : List Event} {first : Expr}
    (tried : firstTry? state number events = some first) :
    ∃ before rest, events = before ++ .choice state number (some first) :: rest ∧
      firstTry? state number before = none := by
  obtain ⟨before, event, rest, split, found, none⟩ := List.findSome?_eq_some_iff.mp tried
  rw [tries?_eq_some.mp found] at split
  exact ⟨before, rest, split, List.findSome?_eq_none_iff.mpr none⟩

theorem Partitioned.choices {host : Host σ} {setup : Setup} {event : Event} {run : Run σ}
    {outcome : Except EngineError Record × Run σ}
    (ended : Partitioned host setup event run outcome) : outcome.2.choices = run.choices := by
  cases ended with
  | refused => rfl
  | aborted grows => exact grows.choices
  | recorded _ _ _ _ grows => exact grows.choices

theorem Captures.choices {host : Host σ} {setup : Setup} {state number : Nat} {condition : Expr}
    {run : Run σ} {outcome : Except EngineError Unit × Run σ}
    (ended : Captures host setup state number condition run outcome) (choice : Nat × Nat) :
    choice ∈ outcome.2.choices ↔ choice ∈ run.choices ∨ choice = (state, number) := by
  cases ended with
  | duplicate noted =>
    constructor
    · exact Or.inl
    · rintro (member | rfl)
      · exact member
      · exact noted
  | malformed => simp [or_comm]
  | aborted _ _ grows => simp [grows.choices, or_comm]
  | archived _ _ _ grows => simp [grows.choices, or_comm]

theorem step_choice (host : Host σ) (setup : Setup) (state number : Nat) (condition : Option Expr)
    (run : Run σ) :
    (step host setup (.choice state number condition) run).2 =
      (captureChoice host setup state number condition run).2 :=
  bind_pure_state _ _ run

theorem mem_choices_step (host : Host σ) (setup : Setup) (event : Event) (run : Run σ)
    (state number : Nat) :
    (state, number) ∈ (step host setup event run).2.choices ↔
      (state, number) ∈ run.choices ∨ (tries? state number event).isSome := by
  cases event with
  | comparison site =>
    simp only [step, bind_pure_state, (compare_cases host setup site run).choices]
    simp [tries?]
  | depthLimit condition =>
    simp only [step, bind_pure_state, (limitDepth_cases host setup condition run).choices]
    simp [tries?]
  | choice s n condition =>
    rw [step_choice]
    cases condition with
    | none =>
      show (state, number) ∈ run.choices ↔ _
      simp [tries?]
    | some condition =>
      have pair : (state, number) = (s, n) ↔ s = state ∧ n = number := by
        rw [Prod.mk.injEq, @eq_comm _ state, @eq_comm _ number]
      rw [(captures host setup s n condition run).choices, pair]
      by_cases same : s = state ∧ n = number <;> simp [tries?, same]

theorem mem_choices_after (host : Host σ) (setup : Setup) (run : Run σ) (events : List Event)
    (state number : Nat) :
    (state, number) ∈ (after host setup run events).choices ↔
      (state, number) ∈ run.choices ∨ (firstTry? state number events).isSome := by
  induction events generalizing run with
  | nil => simp [after, firstTry?]
  | cons event events ih =>
    have rest := ih (step host setup event run).2
    rw [mem_choices_step, or_assoc] at rest
    rw [firstTry?_cons, Option.isSome_or, Bool.or_eq_true]
    exact rest

theorem capture_effects (host : Host σ) (setup : Setup) (state number : Nat)
    (condition : Option Expr) (run : Run σ) (rest : List Event) :
    (captureChoice host setup state number condition run).2.effects ⊆
      (after host setup run (.choice state number condition :: rest)).effects := by
  rw [← step_choice]
  exact (after_effects host setup _ rest).subset

/-- The attempt to archive a condition succeeds: it returns, and its file was written. -/
structure Archives (host : Host σ) (setup : Setup) (state number : Nat) (condition : Expr)
    (document : String) (run : Run σ) : Prop where
  text : conditionText (some condition) = .ok document
  returned : (captureChoice host setup state number (some condition) run).1 = .ok ()
  written : (captureChoice host setup state number (some condition) run).2.effects =
    run.effects ++ [.wrote (setup.store.path (.choice state number)) document]

def Captured (host : Host σ) (setup : Setup) (run : Run σ) (events : List Event)
    (state number : Nat) : Prop :=
  ∃ before condition rest document,
    events = before ++ .choice state number (some condition) :: rest ∧
      Archives host setup state number condition document (after host setup run before)

section Archives

variable {host : Host σ} {setup : Setup} {state number : Nat} {condition : Expr} {run : Run σ}
  {events : List Event}

theorem Archives.fresh_valid {document : String}
    (archives : Archives host setup state number condition document run) :
    (state, number) ∉ run.choices ∧ condition.Valid := by
  have ended := captures host setup state number condition run
  have returned := archives.returned
  generalize captureChoice host setup state number (some condition) run = outcome
    at ended returned
  cases ended with
  | duplicate => cases returned
  | malformed => cases returned
  | aborted => cases returned
  | archived fresh valid => exact ⟨fresh, valid⟩

theorem exists_archives (fresh : (state, number) ∉ run.choices) (valid : condition.Valid)
    (unfailed : ∀ effect ∈
      (captureChoice host setup state number (some condition) run).2.effects,
        effect.isFailure = false) :
    ∃ document, Archives host setup state number condition document run := by
  have ended := captures host setup state number condition run
  generalize result : captureChoice host setup state number (some condition) run = outcome
    at ended unfailed
  cases ended with
  | duplicate noted => exact absurd noted fresh
  | malformed _ defect => cases defect.symm.trans valid
  | aborted _ _ grows _ failed =>
    cases unfailed _ (grows.effects ▸ List.mem_append_right _ failed)
  | archived _ _ text grows =>
    exact ⟨_, text, congrArg Prod.fst result, (congrArg (·.2.effects) result).trans grows.effects⟩

theorem refused_of_defect {cause : StructuralError} (fresh : (state, number) ∉ run.choices)
    (defect : condition.check = .error cause) :
    captureChoice host setup state number (some condition) run =
      (.error (.interchange (.structural cause)),
        { run with choices := (state, number) :: run.choices }) := by
  have ended := captures host setup state number condition run
  generalize captureChoice host setup state number (some condition) run = outcome at ended ⊢
  cases ended with
  | duplicate noted => exact absurd noted fresh
  | malformed _ found => cases defect.symm.trans found; rfl
  | aborted _ valid => cases defect.symm.trans valid
  | archived _ valid => cases defect.symm.trans valid

theorem duplicate_iff_noted :
    (captureChoice host setup state number (some condition) run).1 =
      .error (.duplicateChoice state number) ↔ (state, number) ∈ run.choices := by
  have ended := captures host setup state number condition run
  generalize captureChoice host setup state number (some condition) run = outcome at ended ⊢
  cases ended with
  | duplicate noted => simp [noted]
  | malformed fresh => simp [fresh]
  | aborted fresh => simp [fresh]
  | archived fresh => simp [fresh]

theorem Captured.valid_first (captured : Captured host setup run events state number) :
    ∃ first, firstTry? state number events = some first ∧ first.Valid := by
  obtain ⟨before, condition, rest, document, rfl, archives⟩ := captured
  obtain ⟨fresh, valid⟩ := archives.fresh_valid
  rw [mem_choices_after, not_or] at fresh
  -- Nothing was tried before it, or the choice would have been noted.
  have untried : firstTry? state number before = none := by simpa using fresh.2
  refine ⟨condition, ?_, valid⟩
  simp [firstTry?_append, firstTry?_cons, untried, tries?]

theorem captured_of_valid_first {first : Expr} (fresh : (state, number) ∉ run.choices)
    (tried : firstTry? state number events = some first) (valid : first.Valid)
    (unfailed : ∀ effect ∈ (after host setup run events).effects, effect.isFailure = false) :
    Captured host setup run events state number := by
  obtain ⟨before, rest, rfl, untried⟩ := firstTry?_split tried
  have fresh : (state, number) ∉ (after host setup run before).choices := by
    simp [mem_choices_after, fresh, untried]
  rw [after_append] at unfailed
  obtain ⟨document, archives⟩ := exists_archives fresh valid fun effect done =>
    unfailed effect (capture_effects host setup state number _ _ rest done)
  exact ⟨before, first, rest, document, rfl, archives⟩

theorem choice_written_step {event : Event}
    (written : setup.store.path (.choice state number) ∈
      writtenPaths (step host setup event run).2.effects) :
    setup.store.path (.choice state number) ∈ writtenPaths run.effects ∨
      (state, number) ∉ run.choices ∧
        ∃ condition, event = .choice state number (some condition) := by
  have stepped := step_cases host setup event run
  generalize (step host setup event run).2 = later at stepped written
  have foreign {id : Nat} {files : List String} {added : List Effect}
      (footprint : Footprint (Owns setup id) files added) :
      setup.store.path (.choice state number) ∉ writtenPaths added := by
    intro new
    obtain ⟨effect, done, same⟩ := mem_writtenPaths new
    obtain ⟨file, owned⟩ := footprint.owned effect done
    cases setup.store.path_injective (same.symm.trans owned)
  cases stepped with
  | idle => exact .inl written
  | captured fresh grows footprint =>
    rw [grows.effects, writtenPaths_append, List.mem_append] at written
    refine written.imp_right fun new => ?_
    obtain ⟨effect, done, same⟩ := mem_writtenPaths new
    cases setup.store.path_injective (same.symm.trans (footprint.owned effect done))
    exact ⟨fresh, _, rfl⟩
  | partitioned ended =>
    left
    cases ended with
    | refused => exact written
    | aborted grows footprint =>
      rw [grows.effects, writtenPaths_append, List.mem_append] at written
      exact written.resolve_right (foreign footprint)
    | recorded _ _ _ _ grows footprint =>
      rw [grows.effects, writtenPaths_append, List.mem_append] at written
      exact written.resolve_right (foreign footprint)

theorem captured_of_written
    (unfailed : ∀ effect ∈ (after host setup run events).effects, effect.isFailure = false)
    (written : setup.store.path (.choice state number) ∈
      writtenPaths (after host setup run events).effects) :
    setup.store.path (.choice state number) ∈ writtenPaths run.effects ∨
      Captured host setup run events state number := by
  induction events generalizing run with
  | nil => exact .inl written
  | cons event events ih =>
    rcases ih unfailed written with now | ⟨before, condition, rest, document, rfl, archives⟩
    · rcases choice_written_step now with earlier | ⟨fresh, condition, rfl⟩
      · exact .inl earlier
      · simp only [step_choice] at now
        cases checked : condition.check with
        | error =>
          -- A malformed condition is refused before anything is written.
          rw [refused_of_defect fresh checked] at now
          exact .inl now
        | ok =>
          obtain ⟨document, archives⟩ := exists_archives fresh checked fun effect done =>
            unfailed effect (capture_effects host setup state number _ run events done)
          exact .inr ⟨[], condition, events, document, rfl, archives⟩
    · exact .inr ⟨event :: before, condition, rest, document, rfl, archives⟩

theorem Captured.written (captured : Captured host setup run events state number) :
    setup.store.path (.choice state number) ∈
      writtenPaths (after host setup run events).effects := by
  obtain ⟨before, condition, rest, document, rfl, archives⟩ := captured
  rw [after_append]
  refine List.mem_filterMap.mpr ⟨.wrote _ document, ?_, rfl⟩
  apply capture_effects
  simp [archives.written]

end Archives

/-- How an attempt may fail without ending the run: as a duplicate, which changes nothing, or with
a malformed condition, of which only the note of the choice remains. -/
theorem mild_capture {host : Host σ} {setup : Setup} {state number : Nat}
    {condition : Option Expr} {run : Run σ} {e : EngineError}
    (failed : (captureChoice host setup state number condition run).1 = .error e)
    (mild : e.isFatal = false) :
    let later := (captureChoice host setup state number condition run).2
    e = .duplicateChoice state number ∧ later = run ∨
      ∃ malformed, condition = some malformed ∧ ¬malformed.Valid ∧
        (state, number) ∉ run.choices ∧
        later = { run with choices := (state, number) :: run.choices } := by
  cases condition with
  | none => cases failed
  | some condition =>
    have ended := captures host setup state number condition run
    generalize captureChoice host setup state number (some condition) run = outcome
      at ended failed ⊢
    cases ended with
    | duplicate =>
      cases failed
      exact .inl ⟨rfl, rfl⟩
    | malformed fresh defect =>
      refine .inr ⟨condition, rfl, fun valid => ?_, fresh, rfl⟩
      cases defect.symm.trans valid
    | aborted =>
      cases failed
      cases mild
    | archived => cases failed

/-- A capture is a duplicate exactly if the choice was tried before, and the choice has its file
exactly if the condition of the first attempt was valid. A first attempt that fails mildly leaves
the files as they are and still uses the choice up. -/
theorem duplicate_choice_iff_tried (host : Host σ) (config : Config) (outside : σ)
    (events : List Event) (state number : Nat)
    (unfailed : ∀ effect ∈ (after host config.setup { outside } events).effects,
      effect.isFailure = false) :
    let run := after host config.setup { outside } events
    let capture := captureChoice host config.setup state number
    (∀ condition, (capture (some condition) run).1 = .error (.duplicateChoice state number) ↔
      ∃ first, firstTry? state number events = some first) ∧
    (∀ first, firstTry? state number events = some first →
      (Captured host config.setup { outside } events state number ↔ first.Valid) ∧
        (config.setup.store.path (.choice state number) ∈ writtenPaths run.effects ↔
          first.Valid)) ∧
    ∀ condition e, (capture condition run).1 = .error e → e.isFatal = false →
      e = .duplicateChoice state number ∧ (capture condition run).2 = run ∨
        ∃ malformed, condition = some malformed ∧ ¬malformed.Valid ∧
          (state, number) ∉ run.choices ∧
          (capture condition run).2 = { run with choices := (state, number) :: run.choices } := by
  intro run capture
  refine ⟨?_, ?_, fun condition e failed mild => mild_capture failed mild⟩
  next =>
    intro condition
    simp [capture, duplicate_iff_noted, run, mem_choices_after, Option.isSome_iff_exists]
  next =>
    intro first tried
    have archived : Captured host config.setup { outside } events state number ↔ first.Valid := by
      constructor
      next =>
        intro captured
        obtain ⟨other, found, valid⟩ := captured.valid_first
        exact Option.some.inj (found.symm.trans tried) ▸ valid
      next => exact fun valid => captured_of_valid_first (by simp) tried valid unfailed
    refine ⟨archived, Iff.trans ⟨fun written => ?_, Captured.written⟩ archived⟩
    exact (captured_of_written unfailed written).resolve_left (by simp)

theorem duplicate_choice_iff_tried_two :
    let host := flaky (fun _ => false) fun _ => .ok ⟨.sat, none, "", {}⟩
    let events := [Event.choice 4 1 (some (.lt (.intVar "x") (.int 3))), .depthLimit none,
      .choice 4 2 (some (.op .not [])), .choice 4 1 (some (.bool true))]
    let run := after host (Config.setup {}) { outside := 0 } events
    (∀ effect ∈ run.effects, effect.isFailure = false) ∧
      Captured host (Config.setup {}) { outside := 0 } events 4 1 ∧
      (captureChoice host (Config.setup {}) 4 1 (some (.bool true)) run).1 =
        .error (.duplicateChoice 4 1) ∧
      ¬Captured host (Config.setup {}) { outside := 0 } events 4 2 ∧
      (captureChoice host (Config.setup {}) 4 2 (some (.bool true)) run).1 =
        .error (.duplicateChoice 4 2) := by
  intro host events run
  have unfailed : run.effects.all (fun effect => !effect.isFailure) = true := by decide +kernel
  have unfailed : ∀ effect ∈ run.effects, effect.isFailure = false := by simpa using unfailed
  obtain ⟨duplicate, archived, -⟩ := duplicate_choice_iff_tried host {} 0 events 4 1 unfailed
  obtain ⟨duplicate', archived', -⟩ := duplicate_choice_iff_tried host {} 0 events 4 2 unfailed
  refine ⟨unfailed, (archived _ rfl).1.mpr rfl, (duplicate _).mpr ⟨_, rfl⟩, fun captured => ?_,
    (duplicate' _).mpr ⟨_, rfl⟩⟩
  cases (archived' _ rfl).1.mp captured

theorem duplicate_choice_never_archived :
    let host := flaky (fun _ => false) fun _ => .ok ⟨.sat, none, "", {}⟩
    let events := [Event.choice 1 0 (some (.op .not []))]
    let run := after host (Config.setup {}) { outside := 0 } events
    run.effects = [] ∧
      (captureChoice host (Config.setup {}) 1 0 (some (.bool true)) run).1 =
        .error (.duplicateChoice 1 0) ∧
      ¬Captured host (Config.setup {}) { outside := 0 } events 1 0 := by
  intro host events run
  refine ⟨by decide +kernel, duplicate_iff_noted.mpr (by decide +kernel), fun captured => ?_⟩
  obtain ⟨first, tried, valid⟩ := captured.valid_first
  cases tried
  cases valid

end PathEquiv.Run
