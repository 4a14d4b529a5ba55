import PathEquiv.Proofs.Run.Records

set_option autoImplicit false

namespace PathEquiv.Run

variable {σ : Type}

theorem Partitioned.classified {host : Host σ} {setup : Setup} {event : Event} {run : Run σ}
    {outcome : Except EngineError Record × Run σ} (ended : Partitioned host setup event run outcome)
    (e : Evidence) : outcome.1 ≠ .error (.unclassified e) := by
  cases ended with
  | refused mild =>
    rintro ⟨⟩
    cases mild
  | aborted => nofun
  | recorded => nofun

theorem Recorded.depthLimit_class {host : Host σ} {setup : Setup} {event : Event} {record : Record}
    (recorded : Recorded host setup event record) (limited : record.kind = .depthLimit) :
    record.classification = .error ∨ record.classification = .unreachable ∨
      record.classification = .depthLimited := by
  have classified := recorded.classified
  cases recorded with
  | comparison => cases limited
  | depthLimit _ asked =>
    have punctual := congrArg Flags.isTimeout asked.flags_eq
    exact Evidence.cases_of_depthLimited classified rfl rfl punctual asked.depthLimited

/-- A host that counts what it is asked to write and fails now and then. -/
def flaky (fails : Nat → Bool) (reply : QueryKind → Except SolverError Answer) : Host Nat where
  write _ _ writes := (if fails writes then .error "no space left" else .ok (), writes + 1)
  solve query _ writes := (reply query.kind, writes)

/-- Every partition has a class: processing never gets stuck on the answers, and no partition is
ever missing or without the tool. -/
theorem partitions_always_classified (host : Host σ) (config : Config) (outside : σ)
    (events : List Event) :
    let run := after host config.setup { outside } events
    (∀ site e, (compare host config.setup site run).1 ≠ .error (.unclassified e)) ∧
      (∀ condition e, (limitDepth host config.setup condition run).1 ≠ .error (.unclassified e)) ∧
      ∀ record ∈ run.records,
        record.classification ≠ .missing ∧ record.classification ≠ .baseToolMissing ∧
          (record.kind = .depthLimit →
            record.classification = .error ∨ record.classification = .unreachable ∨
              record.classification = .depthLimited) := by
  intro run
  refine ⟨?_, ?_, ?_⟩
  next => exact fun site => (compare_cases host config.setup site run).classified
  next => exact fun condition => (limitDepth_cases host config.setup condition run).classified
  next =>
    intro record kept
    rcases mem_records_after kept with before | ⟨event, -, recorded⟩
    · cases before
    · obtain ⟨present, based⟩ := Evidence.not_missing_of_present recorded.classified rfl rfl
      exact ⟨present, based, recorded.depthLimit_class⟩

theorem partitions_always_classified_unlaunched :
    let host := flaky (fun _ => false) fun _ => .error (.launch "z3" "not found")
    ∃ record ∈ (after host (Config.setup {}) { outside := 0 }
        [.comparison ⟨none, .int 1, .int 2, {}⟩, .depthLimit none]).records,
      record.kind = .depthLimit ∧ record.flags.isError = true ∧
        (record.classification = .error ∨ record.classification = .unreachable ∨
          record.classification = .depthLimited) := by
  intro host
  have found : (after host (Config.setup {}) { outside := 0 }
      [.comparison ⟨none, .int 1, .int 2, {}⟩, .depthLimit none]).records.any
        (fun record => record.kind == .depthLimit && record.flags.isError) = true := by
    decide +kernel
  obtain ⟨record, kept, limited⟩ := List.any_eq_true.mp found
  simp only [Bool.and_eq_true, beq_iff_eq] at limited
  have classified := partitions_always_classified host {} 0
    [.comparison ⟨none, .int 1, .int 2, {}⟩, .depthLimit none]
  exact ⟨record, kept, limited.1, limited.2, (classified.2.2 record kept).2.2 limited.1⟩

inductive Issued (setup : Setup) (run : Run σ) : String → Prop where
  | partition {id : Nat} {file : PartitionFile} (allocated : id ≤ run.counter.allocated) :
      Issued setup run (partitionPath setup id file)
  | choice {state number : Nat} (captured : (state, number) ∈ run.choices) :
      Issued setup run (setup.store.path (.choice state number))

namespace Issued

variable {setup : Setup} {run later : Run σ} {path : String}

theorem mono (issued : Issued setup run path)
    (counted : run.counter.allocated ≤ later.counter.allocated)
    (captured : run.choices ⊆ later.choices) : Issued setup later path := by
  cases issued with
  | partition allocated => exact .partition (Nat.le_trans allocated counted)
  | choice member => exact .choice (captured member)

theorem not_next (issued : Issued setup run path) :
    ¬Owns setup run.counter.allocate.1 path := by
  -- The next number is larger than every number that was handed out.
  rintro ⟨file, same⟩
  cases issued with
  | @partition id other allocated =>
    have equal := setup.store.path_injective same
    have id_eq : id = run.counter.allocated + 1 := (Artifact.partition.inj equal).1
    omega
  | choice => cases setup.store.path_injective same

theorem ne_choice (issued : Issued setup run path) {state number : Nat}
    (fresh : (state, number) ∉ run.choices) : path ≠ setup.store.path (.choice state number) := by
  intro same
  cases issued with
  | partition => cases setup.store.path_injective same
  | choice captured =>
    cases setup.store.path_injective same
    exact fresh captured

theorem ne_result (issued : Issued setup run path) : path ≠ setup.store.path .result := by
  intro same
  cases issued <;> cases setup.store.path_injective same

theorem artifact (issued : Issued setup run path) :
    ∃ artifact, path = setup.store.path artifact := by
  cases issued with
  | partition => exact ⟨_, rfl⟩
  | choice => exact ⟨_, rfl⟩

end Issued

theorem mem_writtenPaths {effects : List Effect} {path : String}
    (member : path ∈ writtenPaths effects) : ∃ effect ∈ effects, effect.path = path := by
  obtain ⟨effect, done, written⟩ := List.mem_filterMap.mp member
  refine ⟨effect, done, ?_⟩
  cases effect with
  | wrote => exact Option.some.inj written
  | failedToWrite => cases written
  | asked => cases written

theorem Footprint.nodup_append {owned : String → Prop} {files : List String}
    {effects added : List Effect} (footprint : Footprint owned files added)
    (distinct : files.Nodup) (once : (writtenPaths effects).Nodup)
    (fresh : ∀ effect ∈ effects, ¬owned effect.path) :
    (writtenPaths (effects ++ added)).Nodup := by
  rw [writtenPaths_append, List.nodup_append]
  refine ⟨once, footprint.written.nodup distinct, ?_⟩
  intro path before other after same
  obtain ⟨effect, done, rfl⟩ := mem_writtenPaths before
  obtain ⟨new, added, rfl⟩ := mem_writtenPaths after
  exact fresh effect done (same ▸ footprint.owned new added)

theorem nodup_partitionPaths (setup : Setup) (id : Nat) :
    (PartitionFile.all.map (partitionPath setup id)).Nodup := by
  refine PartitionFile.nodup_all.map fun first second same => ?_
  exact (Artifact.partition.inj (setup.store.path_injective same)).2

/-- The effects of a run are what its host did, on files that are its own and each written once. -/
structure Archive (host : Host σ) (setup : Setup) (outside : σ) (run : Run σ) : Prop where
  logged : Reaches host outside run.effects run.outside
  issued : ∀ effect ∈ run.effects, Issued setup run effect.path
  once : (writtenPaths run.effects).Nodup

namespace Archive

variable {host : Host σ} {setup : Setup} {outside : σ} {run noted later : Run σ} {event : Event}

theorem initial : Archive host setup outside { outside } :=
  ⟨.done outside, by simp, .nil⟩

theorem extend {owned : String → Prop} {files : List String} {added : List Effect}
    {kept : List Record} (archive : Archive host setup outside run)
    (grows : Grows host noted later added kept) (same : noted.effects = run.effects)
    (there : noted.outside = run.outside) (footprint : Footprint owned files added)
    (distinct : files.Nodup) (fresh : ∀ path, Issued setup run path → ¬owned path)
    (keeps : ∀ path, Issued setup run path → Issued setup later path)
    (own : ∀ path, owned path → Issued setup later path) : Archive host setup outside later where
  logged := by
    rw [grows.effects, same]
    exact archive.logged.append (there ▸ grows.outside)
  issued := by
    intro effect done
    rw [grows.effects, same, List.mem_append] at done
    rcases done with before | new
    · exact keeps _ (archive.issued effect before)
    · exact own _ (footprint.owned effect new)
  once := by
    rw [grows.effects, same]
    exact footprint.nodup_append distinct archive.once fun effect done =>
      fresh _ (archive.issued effect done)

theorem partition {added : List Effect} {kept : List Record}
    (archive : Archive host setup outside run)
    (grows : Grows host { run with counter := run.counter.allocate.2 } later added kept)
    (footprint : Footprint (Owns setup run.counter.allocate.1)
      (PartitionFile.all.map (partitionPath setup run.counter.allocate.1)) added) :
    Archive host setup outside later := by
  have counted : later.counter.allocated = run.counter.allocated + 1 :=
    congrArg PartitionCounter.allocated grows.counter
  have choices : later.choices = run.choices := grows.choices
  refine archive.extend grows rfl rfl footprint (nodup_partitionPaths setup _)
    (fun _ issued => issued.not_next) (fun _ issued => issued.mono ?_ ?_) ?_
  next => omega
  next => exact choices ▸ List.Subset.refl _
  next =>
    rintro _ ⟨file, rfl⟩
    exact .partition (Nat.le_of_eq counted.symm)

theorem step (archive : Archive host setup outside run)
    (stepped : Stepped host setup run event later) : Archive host setup outside later := by
  cases stepped with
  | idle => exact archive
  | captured fresh grows footprint =>
    refine archive.extend grows rfl rfl footprint (by simp) (fun _ issued => issued.ne_choice fresh)
      (fun _ issued => issued.mono ?_ ?_) ?_
    next => exact Nat.le_of_eq (congrArg PartitionCounter.allocated grows.counter).symm
    next =>
      rw [grows.choices]
      exact List.subset_cons_self _ _
    next =>
      rintro _ rfl
      exact .choice (by simp [grows.choices])
  | partitioned ended =>
    cases ended with
    | refused => exact archive
    | aborted grows footprint => exact archive.partition grows footprint
    | recorded numbered _ _ _ grows footprint =>
      exact archive.partition grows (numbered ▸ footprint)

end Archive

structure Numbering (run : Run σ) : Prop where
  increasing : (run.records.map Record.id).Pairwise (· < ·)
  positive : ∀ record ∈ run.records, 1 ≤ record.id
  allocated : ∀ record ∈ run.records, record.id ≤ run.counter.allocated
  complete : (∀ effect ∈ run.effects, effect.isFailure = false) →
    run.records.map Record.id = List.range' 1 run.counter.allocated

namespace Numbering

variable {host : Host σ} {setup : Setup} {run later : Run σ} {event : Event}

theorem initial (outside : σ) : Numbering { outside } :=
  ⟨.nil, by simp, by simp, by simp⟩

theorem keep (numbering : Numbering run) (records : later.records = run.records)
    (counter : later.counter = run.counter) (effects : run.effects ⊆ later.effects) :
    Numbering later where
  increasing := records ▸ numbering.increasing
  positive := records ▸ numbering.positive
  allocated := records ▸ counter ▸ numbering.allocated
  complete := by
    intro unfailed
    rw [records, counter]
    exact numbering.complete fun effect done => unfailed effect (effects done)

theorem skip (numbering : Numbering run) (records : later.records = run.records)
    (counted : later.counter.allocated = run.counter.allocated + 1) {path : String}
    (failed : .failedToWrite path ∈ later.effects) : Numbering later where
  increasing := records ▸ numbering.increasing
  positive := records ▸ numbering.positive
  allocated := by
    intro record kept
    have before := numbering.allocated record (records ▸ kept)
    omega
  complete unfailed := by cases unfailed _ failed

theorem next (numbering : Numbering run) {record : Record}
    (records : later.records = run.records ++ [record])
    (numbered : record.id = run.counter.allocated + 1)
    (counted : later.counter.allocated = run.counter.allocated + 1)
    (effects : run.effects ⊆ later.effects) : Numbering later where
  increasing := by
    rw [records, List.map_append, List.pairwise_append]
    refine ⟨numbering.increasing, by simp, ?_⟩
    simp only [List.mem_map, List.map_cons, List.map_nil, List.mem_singleton]
    rintro _ ⟨earlier, kept, rfl⟩ _ rfl
    have before := numbering.allocated earlier kept
    omega
  positive := by
    intro other kept
    rw [records, List.mem_append, List.mem_singleton] at kept
    rcases kept with before | rfl
    · exact numbering.positive other before
    · omega
  allocated := by
    intro other kept
    rw [records, List.mem_append, List.mem_singleton] at kept
    rcases kept with before | rfl
    · have earlier := numbering.allocated other before
      omega
    · omega
  complete := by
    intro unfailed
    have earlier := numbering.complete fun effect done => unfailed effect (effects done)
    rw [records, counted, List.map_append, earlier, List.range'_1_concat, List.map_singleton,
      numbered, Nat.add_comm 1]

theorem step (numbering : Numbering run) (stepped : Stepped host setup run event later) :
    Numbering later := by
  cases stepped with
  | idle => exact numbering
  | captured _ grows =>
    exact numbering.keep (by simpa using grows.records) grows.counter (by simp [grows.effects])
  | partitioned ended =>
    cases ended with
    | refused => exact numbering
    | aborted grows _ failed =>
      have lost := grows.effects ▸ List.mem_append_right run.effects failed
      exact numbering.skip (by simpa using grows.records)
        (congrArg PartitionCounter.allocated grows.counter) lost
    | recorded numbered _ _ _ grows =>
      exact numbering.next grows.records numbered
        (congrArg PartitionCounter.allocated grows.counter) (by simp [grows.effects])

end Numbering

theorem after_records (host : Host σ) (setup : Setup) (run : Run σ) (events : List Event) :
    ∃ kept, (after host setup run events).records = run.records ++ kept ∧
      kept.length ≤ events.length := by
  induction events generalizing run with
  | nil => exact ⟨[], by simp [after]⟩
  | cons event events ih =>
    obtain ⟨kept, grown, few⟩ := ih (step host setup event run).2
    rcases step_records host setup event run with same | ⟨record, -, added⟩
    · exact ⟨kept, same ▸ grown, Nat.le_succ_of_le few⟩
    · refine ⟨record :: kept, ?_, Nat.succ_le_succ few⟩
      rw [added, List.append_assoc] at grown
      exact grown

def ended (host : Host σ) (setup : Setup) (finished : Bool) (run : Run σ) : Run σ :=
  if finished then (finish host setup run).2 else run

theorem ended_grows (host : Host σ) (setup : Setup) (finished : Bool) (run : Run σ) :
    ∃ added, Grows host run (ended host setup finished run) added [] ∧
      Footprint (· = setup.store.path .result) [setup.store.path .result] added := by
  cases finished with
  | false => exact ⟨[], .refl host run, .nil⟩
  | true =>
    let text := (run.summary setup).toJson.pretty
    have same : (finish host setup run).2 = (write host setup .result text run).2 := by
      unfold finish
      rw [bind_run, get_run]
      exact bind_pure_state _ (fun _ => run.summary setup) run
    have written := performs_write host setup (· = setup.store.path .result) .result text rfl run
    simp only [ended, if_true, same]
    generalize write host setup .result text run = outcome at written ⊢
    cases written with
    | gives grows footprint => exact ⟨_, grows, footprint⟩
    | fails grows footprint => exact ⟨_, grows, footprint⟩

theorem Archive.artifact_ended {host : Host σ} {setup : Setup} {outside : σ} {run : Run σ}
    (archive : Archive host setup outside run) (finished : Bool) :
    ∀ effect ∈ (ended host setup finished run).effects,
      ∃ artifact, effect.path = setup.store.path artifact := by
  obtain ⟨added, grows, footprint⟩ := ended_grows host setup finished run
  intro effect done
  rw [grows.effects, List.mem_append] at done
  rcases done with before | new
  · exact (archive.issued effect before).artifact
  · exact ⟨.result, footprint.owned effect new⟩

theorem Archive.ended {host : Host σ} {setup : Setup} {outside : σ} {run : Run σ}
    (archive : Archive host setup outside run) (finished : Bool) :
    let last := ended host setup finished run
    Reaches host outside last.effects last.outside ∧ (writtenPaths last.effects).Nodup ∧
      ∀ path ∈ writtenPaths last.effects, ∃ artifact, path = setup.store.path artifact := by
  intro last
  obtain ⟨added, grows, footprint⟩ := ended_grows host setup finished run
  have effects : last.effects = run.effects ++ added := grows.effects
  refine ⟨?_, ?_, ?_⟩
  next =>
    rw [effects]
    exact archive.logged.append grows.outside
  next =>
    rw [effects]
    exact footprint.nodup_append (by simp) archive.once fun effect done =>
      (archive.issued effect done).ne_result
  next =>
    intro path written
    obtain ⟨effect, done, rfl⟩ := mem_writtenPaths written
    exact archive.artifact_ended finished effect done

/-- The books of a run at any time, whatever failed on the way: records are only ever appended, at
most one for an event, numbers increase, and what the host was made to do never writes a file
twice. Without a failed write no number is lost. -/
theorem records_numbered_files_once (host : Host σ) (config : Config) (outside : σ)
    (earlier later : List Event) (finished : Bool) :
    let before := after host config.setup { outside } earlier
    let run := ended host config.setup finished
      (after host config.setup { outside } (earlier ++ later))
    before.records <+: run.records ∧
      run.records.length ≤ before.records.length + later.length ∧
      (run.records.map Record.id).Pairwise (· < ·) ∧
      (∀ record ∈ run.records, 1 ≤ record.id ∧ record.id ≤ run.counter.allocated) ∧
      Reaches host outside run.effects run.outside ∧
      (writtenPaths run.effects).Nodup ∧
      ((∀ effect ∈ run.effects, effect.isFailure = false) →
        run.records.map Record.id = List.range' 1 run.records.length ∧
          run.records.length = run.counter.allocated) := by
  intro before run
  let last := after host config.setup { outside } (earlier ++ later)
  -- Both invariants hold after the events; the summary adds one file and no record.
  have archive : Archive host config.setup outside last :=
    after_induction .initial fun _ stepped archive => archive.step stepped
  have numbering : Numbering last :=
    after_induction (.initial outside) fun _ stepped numbering => numbering.step stepped
  obtain ⟨added, grows, -⟩ := ended_grows host config.setup finished last
  have records : run.records = last.records := by simpa using grows.records
  have counter : run.counter = last.counter := grows.counter
  have effects : run.effects = last.effects ++ added := grows.effects
  obtain ⟨kept, grown, few⟩ := after_records host config.setup before later
  rw [← after_append] at grown
  have grown : run.records = before.records ++ kept := records.trans grown
  refine ⟨⟨kept, grown.symm⟩, ?_, ?_, ?_, ?_, ?_, ?_⟩
  next =>
    rw [grown, List.length_append]
    omega
  next => exact records ▸ numbering.increasing
  next =>
    rw [records, counter]
    exact fun record kept => ⟨numbering.positive record kept, numbering.allocated record kept⟩
  next => exact (archive.ended finished).1
  next => exact (archive.ended finished).2.1
  next =>
    intro unfailed
    have ids := numbering.complete fun effect done => unfailed effect (by simp [effects, done])
    have length : last.records.length = last.counter.allocated := by
      simpa using congrArg List.length ids
    rw [records, counter, length]
    exact ⟨ids, rfl⟩

-- The third write fails, so the first number is lost.
example :
    let host := flaky (· == 2) fun _ => .ok ⟨.unsat, none, "", {}⟩
    ((after host (Config.setup {}) { outside := 0 }
      [.comparison ⟨none, .int 1, .int 2, {}⟩, .depthLimit none]).records.map Record.id) = [2] := by
  decide +kernel

theorem records_numbered_files_once_mixed :
    let host := flaky (fun _ => false) fun _ => .ok ⟨.sat, none, "", {}⟩
    let events := [Event.comparison ⟨none, .int 1, .var "x" .integer, {}⟩,
      .choice 0 1 (some (.bool true)), .choice 0 1 (some (.bool true)),
      .comparison ⟨none, .int 1, .op .add [], {}⟩]
    let run := ended host (Config.setup {}) true
      (after host (Config.setup {}) { outside := 0 } (events ++ [.depthLimit none]))
    (∀ effect ∈ run.effects, effect.isFailure = false) ∧ run.counter.allocated = 2 ∧
      (writtenPaths run.effects).length = 16 ∧ (writtenPaths run.effects).Nodup ∧
      run.records.map Record.id = List.range' 1 run.records.length := by
  intro host events run
  have unfailed : run.effects.all (fun effect => !effect.isFailure) = true := by decide +kernel
  have unfailed : ∀ effect ∈ run.effects, effect.isFailure = false := by simpa using unfailed
  obtain ⟨-, -, -, -, -, once, complete⟩ :=
    records_numbered_files_once host {} 0 events [.depthLimit none] true
  exact ⟨unfailed, by decide +kernel, by decide +kernel, once, (complete unfailed).1⟩

end PathEquiv.Run
