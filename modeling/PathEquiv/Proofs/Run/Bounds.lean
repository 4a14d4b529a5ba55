import PathEquiv.Command.Run
import PathEquiv.Proofs.Containers
import PathEquiv.Proofs.Run.Documents
import PathEquiv.Proofs.Run.Replay
import PathEquiv.Proofs.Solver.Model

set_option autoImplicit false

namespace PathEquiv

-- The next number as a word of 32 bits.
def PartitionCounter.word (counter : PartitionCounter) : UInt32 :=
  UInt32.ofNat (counter.allocated + 1)

theorem PartitionCounter.allocate_word {counter : PartitionCounter}
    (small : counter.allocated + 1 < Nat.pow 2 32) :
    counter.word.toNat = counter.allocate.1 ∧ counter.allocate.2.word = counter.word + 1 := by
  constructor
  next => exact UInt32.toNat_ofNat_of_lt' small
  next => exact UInt32.ofNat_add (counter.allocated + 1) 1

namespace Run

variable {σ : Type} {host : Host σ} {setup : Setup} {event : Event} {run later : Run σ}

theorem Stepped.allocated_le (stepped : Stepped host setup run event later) :
    later.counter.allocated ≤ run.counter.allocated + 1 := by
  cases stepped with
  | idle => exact Nat.le_succ _
  | captured _ grows => exact grows.counter ▸ Nat.le_succ _
  | partitioned ended =>
    cases ended with
    | refused => exact Nat.le_succ _
    | aborted grows => exact Nat.le_of_eq (congrArg PartitionCounter.allocated grows.counter)
    | recorded _ _ _ _ grows =>
      exact Nat.le_of_eq (congrArg PartitionCounter.allocated grows.counter)

theorem allocated_after_le (host : Host σ) (setup : Setup) (run : Run σ) (events : List Event) :
    (after host setup run events).counter.allocated ≤ run.counter.allocated + events.length := by
  induction events generalizing run with
  | nil => exact Nat.le_refl _
  | cons event events ih =>
    have first := (step_cases host setup event run).allocated_le
    have others := ih (step host setup event run).2
    rw [List.length_cons]
    exact Nat.le_trans others (by omega)

structure NumbersFit (run : Run σ) : Prop where
  counter : run.counter.word.toNat = run.counter.allocate.1
  records : ∀ record ∈ run.records, (UInt32.ofNat record.id).toNat = record.id

/-- A run of fewer events than a word of 32 bits has values numbers its partitions as a counter of
that size does. -/
theorem numbers_fit (host : Host σ) (setup : Setup) (outside : σ) {events : List Event}
    (few : events.length + 1 < Nat.pow 2 32) (finished : Bool) :
    NumbersFit (ended host setup finished (after host setup { outside } events)) := by
  let last := after host setup { outside } events
  obtain ⟨added, grows, -⟩ := ended_grows host setup finished last
  have numbering : Numbering last :=
    after_induction (.initial outside) fun _ stepped numbering => numbering.step stepped
  have issued : last.counter.allocated ≤ events.length := by
    simpa using allocated_after_le host setup { outside } events
  have small : last.counter.allocated + 1 < Nat.pow 2 32 := by omega
  constructor
  next =>
    rw [grows.counter]
    exact (PartitionCounter.allocate_word small).1
  next =>
    intro record kept
    rw [grows.records, List.append_nil] at kept
    have number := numbering.allocated record kept
    exact UInt32.toNat_ofNat_of_lt' (by change record.id < Nat.pow 2 32; omega)

theorem numbers_fit_replay (host : Host σ) (setup : Setup) (outside : σ) {events : List Event}
    (few : events.length + 1 < Nat.pow 2 32) :
    NumbersFit (replay host setup events { outside }).2 := by
  obtain ⟨done, first, same⟩ := replay_eq_after host setup events { outside }
  rw [same]
  exact numbers_fit host setup outside
    (Nat.lt_of_le_of_lt (Nat.succ_le_succ first.length_le) few) false

end Run

theorem Json.lt_of_withDefault {standard n : Nat} (small : standard < Nat.pow 2 64)
    {field : Option Json} (read : withDefault? standard nat? field = some n) :
    n < Nat.pow 2 64 := by
  cases field with
  | none => exact Option.some.inj read ▸ small
  | some value => exact lt_of_nat read

theorem SolverConfig.fits_default : SolverConfig.Fits {} :=
  ⟨by decide, by decide⟩

theorem SolverConfig.fits_of_ofJson {document : Json} {config : SolverConfig}
    (read : ofJson? document = some config) : config.Fits := by
  unfold ofJson? at read
  simp only [Option.bind_eq_bind, Option.bind_eq_some_iff] at read
  obtain ⟨fields, -, read⟩ := read
  split at read
  next =>
    simp only [Option.bind_eq_some_iff, pure, Option.some.injEq] at read
    obtain ⟨kind, -, command, -, args, -, seconds, secondsRead, grace, graceRead, rfl⟩ := read
    exact ⟨Json.lt_of_withDefault (by decide) secondsRead,
      Json.lt_of_withDefault (by decide) graceRead⟩
  next => cases read

theorem Config.fits_of_ofText {text : String} {config : Config}
    (read : ofText? text = some config) : config.solver.Fits := by
  obtain ⟨document, -, read⟩ := Option.bind_eq_some_iff.mp read
  unfold ofJson? at read
  simp only [Option.bind_eq_bind, Option.bind_eq_some_iff] at read
  obtain ⟨fields, -, read⟩ := read
  split at read
  next runId outputDir solver known downgrade reachability =>
    simp only [Option.bind_eq_some_iff, pure, Option.some.injEq] at read
    obtain ⟨_, -, _, -, config, solverRead, _, -, _, -, _, -, rfl⟩ := read
    cases solver with
    | none => exact Option.some.inj solverRead ▸ SolverConfig.fits_default
    | some value => exact SolverConfig.fits_of_ofJson solverRead
  next => cases read

theorem Event.fits_of_ofJson {document : Json} {event : Event}
    (read : ofJson? document = some event) : event.Fits := by
  cases event with
  | comparison => trivial
  | depthLimit => trivial
  | choice state number condition =>
    unfold ofJson? at read
    simp only [Option.bind_eq_bind, Option.bind_eq_some_iff] at read
    obtain ⟨⟨kind, body⟩, -, read⟩ := read
    split at read
    next => simp [Option.bind_eq_some_iff] at read
    next =>
      obtain ⟨fields, -, read⟩ := Option.bind_eq_some_iff.mp read
      split at read
      next => simp [Option.bind_eq_some_iff] at read
      next => cases read
    next =>
      obtain ⟨fields, -, read⟩ := Option.bind_eq_some_iff.mp read
      split at read
      next first second third =>
        simp only [Option.bind_eq_some_iff, pure, Option.some.injEq, Json.required?] at read
        obtain ⟨_, ⟨_, -, stateRead⟩, _, ⟨_, -, numberRead⟩, _, -, same⟩ := read
        cases same
        exact ⟨Json.lt_of_nat stateRead, Json.lt_of_nat numberRead⟩
      next => cases read

theorem Trace.fits_of_ofText {text : String} {trace : Trace}
    (read : ofText? text = some trace) : ∀ event ∈ trace.events, event.Fits := by
  obtain ⟨document, -, read⟩ := Option.bind_eq_some_iff.mp read
  unfold ofJson? at read
  obtain ⟨fields, -, read⟩ := Option.bind_eq_some_iff.mp read
  split at read
  next events =>
    simp only [Option.bind_eq_bind, Option.bind_eq_some_iff, pure, Option.some.injEq,
      Json.required?] at read
    obtain ⟨listed, ⟨document, -, eventsRead⟩, rfl⟩ := read
    intro event member
    obtain ⟨item, itemRead⟩ := Json.exists_of_mem_list eventsRead member
    exact Event.fits_of_ofJson itemRead
  next => cases read

namespace Command

theorem fits_chosenSolver {command : ReplayCommand} {config solver : SolverConfig}
    (fits : config.Fits) (chosen : chosenSolver command config = .ok solver) : solver.Fits := by
  unfold chosenSolver at chosen
  split at chosen
  next text =>
    obtain ⟨kind, -, same⟩ := bind_eq_ok.mp chosen
    cases same
    exact ⟨fits.timeoutSecs, fits.graceMs⟩
  next =>
    cases chosen
    exact fits

theorem fits_override {command : ReplayCommand} {config result : Config}
    (timeout : ∀ n ∈ command.timeoutSecs, n < Nat.pow 2 64) (fits : config.solver.Fits)
    (given : override command config = .ok result) : result.solver.Fits := by
  obtain ⟨solver, chosen, rest⟩ := bind_eq_ok.mp given
  cases rest
  have kept := fits_chosenSolver fits chosen
  refine ⟨?_, kept.graceMs⟩
  cases limit : command.timeoutSecs with
  | none => exact kept.timeoutSecs
  | some n => exact timeout n limit

theorem timeout_of_named {name : String} {usage : Usage} {make : Given → Except Refusal Command}
    (listed : named? name = some (usage, make)) {g : Given} {command : ReplayCommand}
    (made : make g = .ok (.replay command)) : ∀ n ∈ command.timeoutSecs, n < Nat.pow 2 64 := by
  unfold named? at listed
  split at listed
  next =>
    cases listed
    obtain ⟨benchmark, -, made⟩ := bind_eq_ok.mp made
    obtain ⟨trace, -, made⟩ := bind_eq_ok.mp made
    cases made
    intro n limit
    obtain ⟨text, -, read⟩ := Option.bind_eq_some_iff.mp limit
    exact Text.unsignedBelow_lt read
  next =>
    cases listed
    obtain ⟨site, -, made⟩ := bind_eq_ok.mp made
    cases made
  next =>
    cases listed
    obtain ⟨neq, -, made⟩ := bind_eq_ok.mp made
    obtain ⟨eq, -, made⟩ := bind_eq_ok.mp made
    cases made
  next =>
    cases listed
    obtain ⟨directory, -, made⟩ := bind_eq_ok.mp made
    obtain ⟨root, -, made⟩ := bind_eq_ok.mp made
    cases made
  next => cases listed

theorem named_of_readNamed {config : Option String} {name : String} {rest : List String}
    {invocation : Invocation} (read : readNamed config name rest = .ok invocation) :
    ∃ usage make g, named? name = some (usage, make) ∧ make g = .ok invocation.command := by
  unfold readNamed at read
  split at read
  next => cases read
  next =>
    split at read
    next => cases read
    next usage make listed =>
      obtain ⟨g, -, read⟩ := bind_eq_ok.mp read
      obtain ⟨command, made, same⟩ := bind_eq_ok.mp read
      cases same
      exact ⟨usage, make, g, listed, made⟩

theorem named_of_readTop {config : Option String} {arguments : List String}
    {invocation : Invocation} (read : readTop config arguments = .ok invocation) :
    ∃ name usage make g, named? name = some (usage, make) ∧ make g = .ok invocation.command := by
  fun_induction readTop config arguments with
  | case2 config argument name => exact ⟨name, named_of_readNamed read⟩
  | case4 _ _ _ _ _ _ ih => exact ih read
  | case6 _ _ _ _ _ _ _ _ ih => exact ih read
  | _ => cases read

end Command

/-- Whatever the arguments are, a replay keeps the limits of its solver in words of 64 bits if the
settings do. -/
theorem Invocation.fits_replay {arguments : List String} {invocation : Invocation}
    (read : ofArguments arguments = .ok invocation) {command : ReplayCommand}
    (replays : invocation.command = .replay command) {config result : Config}
    (fits : config.solver.Fits) (given : Command.override command config = .ok result) :
    result.solver.Fits := by
  obtain ⟨name, usage, make, g, listed, made⟩ := Command.named_of_readTop read
  rw [replays] at made
  exact Command.fits_override (Command.timeout_of_named listed made) fits given

/-- The milliseconds have 64 bits up to this many seconds, which is less than settings may say. -/
theorem SolverConfig.millis_lt_iff (config : SolverConfig) :
    config.seconds * 1000 < Nat.pow 2 64 ↔ config.timeoutSecs ≤ 18446744073709551 := by
  have words : Nat.pow 2 64 = 18446744073709551616 := by decide
  unfold seconds budgetSeconds
  omega

theorem ModelValue.integer_bounds {value : Sexp} {n : Int} (fits : ¬Overflows value)
    (read : integer? value = some n) : -9223372036854775808 ≤ n ∧ n < 9223372036854775808 := by
  cases (integer_eq_some_iff fits).mp read with
  | atom number => exact Text.int64_bounds number
  | negated number bound =>
    have bounds := Text.int64_bounds number
    omega

end PathEquiv
