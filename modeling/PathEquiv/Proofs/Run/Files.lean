import PathEquiv.Proofs.Disk
import PathEquiv.Proofs.Run.Transcript

set_option autoImplicit false

namespace PathEquiv.Run

variable {σ : Type}

/-- The files of one directory as a host keeps them. To write a file gives it its contents and
leaves the others as they are; to solve a query leaves all of them. -/
structure Directory (host : Host σ) (path : String) where
  contents? : (s : σ) → (name : String) → Option String
  write : ∀ {name contents : String} {s later : σ}, Path.IsName name →
    host.write (Path.join path name) contents s = (.ok (), later) →
      ∀ other, contents? later other = if other = name then some contents else contents? s other
  solve : ∀ (query : Query) (file : String) (s : σ) (name : String),
    contents? (host.solve query file s).2 name = contents? s name

section Contents

variable {host : Host σ} {config : Config} {s last : σ} {effects : List Effect}

theorem Reaches.contents_artifact (directory : Directory host config.outputDir)
    (reaches : Reaches host s effects last)
    (unfailed : ∀ effect ∈ effects, effect.isFailure = false)
    (once : (writtenPaths effects).Nodup)
    (named : ∀ path ∈ writtenPaths effects, ∃ artifact, path = config.setup.store.path artifact)
    (artifact : Artifact) (contents : String) :
    directory.contents? last (artifact.fileName (sanitizeRunId config.runId)) = some contents ↔
      .wrote (config.setup.store.path artifact) contents ∈ effects ∨
        (directory.contents? s (artifact.fileName (sanitizeRunId config.runId)) = some contents ∧
          config.setup.store.path artifact ∉ writtenPaths effects) := by
  induction reaches with
  | done => simp
  | failed => cases unfailed _ List.mem_cons_self
  | asked _ ih =>
    rw [ih (fun effect done => unfailed effect (by simp [done])) once named, directory.solve]
    simp
  | @wrote path text s next last effects done _ ih =>
    rw [writtenPaths_wrote] at once named
    obtain ⟨own, rfl⟩ := named path (by simp)
    rw [List.nodup_cons] at once
    have rest := ih (fun effect done => unfailed effect (by simp [done])) once.2
      fun other later => named other (by simp [later])
    rw [rest, directory.write (isName_fileName config.runId own) done,
      writtenPaths_wrote]
    by_cases same : artifact = own
    next =>
      -- `once` rules out that the file is written again, so its contents stay.
      subst same
      simp [once.1, or_comm, eq_comm]
    next =>
      have otherName := (Artifact.fileName_injective (sanitizeRunId config.runId)).ne same
      have otherPath := config.setup.store.path_injective.ne same
      simp [otherName, otherPath]

theorem Reaches.contents_other (directory : Directory host config.outputDir)
    (reaches : Reaches host s effects last)
    (unfailed : ∀ effect ∈ effects, effect.isFailure = false)
    (named : ∀ path ∈ writtenPaths effects, ∃ artifact, path = config.setup.store.path artifact)
    {name : String}
    (other : ∀ artifact : Artifact, name ≠ artifact.fileName (sanitizeRunId config.runId)) :
    directory.contents? last name = directory.contents? s name := by
  induction reaches with
  | done => rfl
  | failed => cases unfailed _ List.mem_cons_self
  | asked _ ih =>
    rw [ih (fun effect done => unfailed effect (by simp [done])) named, directory.solve]
  | @wrote path text s next last effects done _ ih =>
    rw [writtenPaths_wrote] at named
    obtain ⟨own, rfl⟩ := named path (by simp)
    have rest := ih (fun effect done => unfailed effect (by simp [done]))
      fun other later => named other (by simp [later])
    rw [rest, directory.write (isName_fileName config.runId own) done, if_neg (other own)]

theorem Reaches.contents_partition (directory : Directory host config.outputDir)
    (reaches : Reaches host s effects last) (fresh : ∀ name, directory.contents? s name = none)
    (unfailed : ∀ effect ∈ effects, effect.isFailure = false)
    (once : (writtenPaths effects).Nodup)
    (named : ∀ path ∈ writtenPaths effects, ∃ artifact, path = config.setup.store.path artifact)
    (id : Nat) (name contents : String) :
    directory.contents? last
        (Artifact.partitionStart (sanitizeRunId config.runId) id ++ name) = some contents ↔
      ∃ file : PartitionFile, name = file.suffix ∧
        .wrote (partitionPath config.setup id file) contents ∈
          effectsOf config.setup id effects := by
  have stored := reaches.contents_artifact directory unfailed once named
  simp only [fresh, reduceCtorEq, false_and, or_false] at stored
  constructor
  next =>
    intro found
    by_cases own : ∃ artifact : Artifact, Artifact.partitionStart (sanitizeRunId config.runId) id ++
        name = artifact.fileName (sanitizeRunId config.runId)
    next =>
      obtain ⟨artifact, same⟩ := own
      -- No artifact but a file of the partition has a name that starts this way.
      have start : (Artifact.partitionStart (sanitizeRunId config.runId) id).toList <+:
          (artifact.fileName (sanitizeRunId config.runId)).toList :=
        ⟨name.toList, by rw [← same, String.toList_append]⟩
      obtain ⟨file, rfl⟩ := Artifact.eq_partition_of_start start
      rw [same, stored] at found
      rw [Artifact.fileName_partition, String.append_right_inj] at same
      have owned : Owns config.setup id (partitionPath config.setup id file) := ⟨file, rfl⟩
      refine ⟨file, same, List.mem_filter.mpr ⟨found, ?_⟩⟩
      rw [Effect.path]
      exact decide_eq_true owned
    next =>
      rw [reaches.contents_other directory unfailed named (not_exists.mp own), fresh] at found
      cases found
  next =>
    rintro ⟨file, rfl, written⟩
    rw [← Artifact.fileName_partition, stored]
    exact (List.mem_filter.mp written).1

end Contents

/-- The files of a partition, by what follows the number of the partition in their names, say what
its record says. -/
structure FilesAgree (setup : Setup) (text : QueryKind → String) (record : Record)
    (files : String → Option String) : Prop where
  only : ∀ name, (files name).isSome → ∃ file : PartitionFile, name = file.suffix
  condition : ∃ document, conditionText record.condition = .ok document ∧
    files "JSON-PC.json" = some document
  question : ∀ kind : QueryKind, files ("ToSolve" ++ kind.suffix ++ ".txt") =
    (record.answers.get? kind).map fun _ => text kind
  fingerprint : ∀ kind : QueryKind, record.fingerprints.get? kind =
    (files ("ToSolve" ++ kind.suffix ++ ".txt")).map Sha256.hexOfText
  answer : ∀ kind : QueryKind, files ("Answer" ++ kind.suffix ++ ".txt") =
    (record.answers.get? kind).map fun answer =>
      if kind = .neq ∧ answer.status = .sat ∧ record.calls.any ∧ setup.downgradeCallAnswers
      then "unknown" else answer.status.token
  errors : ∀ kind : QueryKind, files ("Errors" ++ kind.suffix ++ ".txt") =
    (record.answers.get? kind).bind fun answer =>
      if Text.allBlank answer.diagnostics then none else some answer.diagnostics
  model : files "Model.txt" = (record.answers.get? .neq).bind fun answer =>
    if answer.status = .sat then some (answer.model.getD "") else none
  hasCalls : files "HasUIF.txt" =
    if record.kind = .comparison then some (if record.calls.any then "true" else "false") else none
  record : files "Partition.json" = some record.toJson.pretty

theorem filesAgree_of_transcript {host : Host σ} {setup : Setup} {event : Event} {record : Record}
    {queries : List Query} {document : String} {text : QueryKind → String}
    {files : String → Option String} (recorded : Recorded host setup event record)
    (poses : Poses setup event queries) (archived : conditionText record.condition = .ok document)
    (texts : ∀ query ∈ queries, query.text = text query.kind)
    (stored : ∀ name contents, files name = some contents ↔ ∃ file : PartitionFile,
      name = file.suffix ∧ .wrote (partitionPath setup record.id file) contents ∈
        transcript setup document queries record) :
    FilesAgree setup text record files := by
  have file (file : PartitionFile) (contents : String) :
      files file.suffix = some contents ↔ .wrote (partitionPath setup record.id file) contents ∈
        transcript setup document queries record := by
    rw [stored]
    constructor
    · rintro ⟨other, same, written⟩
      rwa [PartitionFile.suffix_injective same]
    · exact fun written => ⟨file, rfl, written⟩
  have question (kind : QueryKind) : files ("ToSolve" ++ kind.suffix ++ ".txt") =
      (record.answers.get? kind).map fun _ => text kind :=
    Option.ext fun contents => (file (.toSolve kind) contents).trans
      (wrote_toSolve (recorded.posed poses) texts)
  constructor
  case question => exact question
  case only =>
    intro name present
    obtain ⟨contents, found⟩ := Option.isSome_iff_exists.mp present
    obtain ⟨file, same, -⟩ := (stored name contents).mp found
    exact ⟨file, same⟩
  case condition =>
    refine ⟨document, archived, (file .condition document).mpr ?_⟩
    simp [wrote_mem_transcript]
  case fingerprint =>
    intro kind
    let digest (kind : QueryKind) : String := Sha256.hexOfText (text kind)
    have digests : ∀ query ∈ queries, query.fingerprint = digest query.kind :=
      fun query member => congrArg Sha256.hexOfText (texts query member)
    obtain ⟨progress, asked, answers, fingerprints, -⟩ := recorded.asked poses
    rw [question, fingerprints, answers, Option.map_map]
    exact asked.fingerprinted digests (.initial digest _) kind
  case answer =>
    exact fun kind => Option.ext fun contents => (file (.answer kind) contents).trans
      (wrote_answer (recorded.posed poses))
  case errors =>
    exact fun kind => Option.ext fun contents => (file (.errors kind) contents).trans
      (wrote_errors (recorded.posed poses))
  case model =>
    exact Option.ext fun contents => (file .model contents).trans
      (wrote_model (recorded.posed poses))
  case hasCalls => exact Option.ext fun contents => (file .hasCalls contents).trans wrote_hasCalls
  case record =>
    refine (file .record _).mpr ?_
    simp [wrote_mem_transcript]

/-- The queries of a partition were asked in order, up to the first that failed, each of them once
its text was written. -/
structure CallsAgree (setup : Setup) (event : Event) (text : QueryKind → String) (record : Record)
    (effects : List Effect) : Prop where
  answered : askedKinds (effectsOf setup record.id effects) =
    answeredKinds record.answers (plannedKinds setup record.kind)
  order : if (startFlags event).isError then askedKinds (effectsOf setup record.id effects) = []
    else StopsAtError record.answers (plannedKinds setup record.kind)
      (askedKinds (effectsOf setup record.id effects))
  written : ∀ before kind path rest, effects = before ++ .asked kind path :: rest →
    Owns setup record.id path →
      path = partitionPath setup record.id (.toSolve kind) ∧ .wrote path (text kind) ∈ before

theorem callsAgree_of_transcript {host : Host σ} {setup : Setup} {event : Event} {record : Record}
    {queries : List Query} {document : String} {text : QueryKind → String} {effects : List Effect}
    (recorded : Recorded host setup event record) (poses : Poses setup event queries)
    (texts : ∀ query ∈ queries, query.text = text query.kind)
    (done : effectsOf setup record.id effects = transcript setup document queries record) :
    CallsAgree setup event text record effects := by
  obtain ⟨progress, asked, answers, -, kinds⟩ := recorded.asked poses
  have calls : askedKinds (effectsOf setup record.id effects) =
      answeredKinds record.answers (plannedKinds setup record.kind) := by
    rw [done, askedKinds_transcript, kinds]
  have distinct : (queries.map Query.kind).Nodup :=
    kinds ▸ (plannedKinds_sublist setup record.kind).nodup (by decide)
  have unanswered : ∀ kind ∈ queries.map Query.kind,
      ({ flags := startFlags event } : Progress).answers.get? kind = none := by
    intro kind _
    cases kind <;> rfl
  refine ⟨calls, ?_, ?_⟩
  next =>
    rw [calls, answers, ← kinds]
    split
    next flagged =>
      rw [asked.eq_of_error flagged]
      exact answeredKinds_eq_nil unanswered
    next fine => exact asked.stopsAtError (by simpa using fine) distinct unanswered
  next =>
    rintro before kind path rest rfl own
    have parts : effectsOf setup record.id (before ++ .asked kind path :: rest) =
        effectsOf setup record.id before ++ .asked kind path :: effectsOf setup record.id rest := by
      simp [effectsOf, Effect.path, own]
    obtain ⟨place, written⟩ :=
      writtenFirst_transcript document texts record _ kind path _ (done.symm.trans parts)
    exact ⟨place, (List.mem_filter.mp written).1⟩

/-- In a fresh directory and without a failed write, the files of every recorded partition and the
calls of the solver agree with its record. -/
theorem files_and_calls_agree (host : Host σ) (config : Config) (outside : σ)
    (events : List Event) (finished : Bool) (directory : Directory host config.outputDir)
    (fresh : ∀ name, directory.contents? outside name = none) :
    let run := ended host config.setup finished (after host config.setup { outside } events)
    (∀ effect ∈ run.effects, effect.isFailure = false) → ∀ record ∈ run.records,
      ∃ event ∈ events, ∃ queries text, Recorded host config.setup event record ∧
        Poses config.setup event queries ∧ (∀ query ∈ queries, query.text = text query.kind) ∧
        FilesAgree config.setup text record (fun name => directory.contents? run.outside
          (sanitizeRunId config.runId ++ "-P" ++ Text.natText record.id ++ "-" ++ name)) ∧
        CallsAgree config.setup event text record run.effects := by
  intro run unfailed record kept
  have books := books_after host config.setup outside events
  obtain ⟨reaches, once, named⟩ := books.archive.ended finished
  obtain ⟨event, member, document, queries, recorded, poses, archived, done⟩ :=
    books.ended finished record kept
  obtain ⟨text, texts⟩ := poses.text
  refine ⟨event, member, queries, text, recorded, poses, texts, ?_, ?_⟩
  next =>
    refine filesAgree_of_transcript recorded poses archived texts fun name contents => ?_
    rw [← done]
    exact reaches.contents_partition directory fresh unfailed once named record.id name contents
  next => exact callsAgree_of_transcript recorded poses texts done

def onDisk (reply : Query → Except SolverError Answer) : Host Disk where
  write path contents d :=
    match d.writeText path contents with
    | .ok later => (.ok (), later)
    | .error cause => (.error cause.message, d)
  solve query _ d := (reply query, d)

def diskDirectory (reply : Query → Except SolverError Answer) (path : String) :
    Directory (onDisk reply) path where
  contents? d name := d.textIn? path name
  write := by
    intro name contents d later named written
    simp only [onDisk] at written
    split at written
    next disk stored =>
      cases written
      exact Disk.textIn?_writeText named stored
    next => cases written
  solve _ _ _ _ := rfl

theorem files_and_calls_agree_downgraded :
    let config : Config := { solveReachability := false }
    let reply (query : Query) : Except SolverError Answer :=
      if query.kind = .eq then .error (.transfer "broken pipe") else .ok ⟨.sat, none, "", {}⟩
    let disk : Disk := { entries := [(["eqcheck-out"], .directory)] }
    let directory := diskDirectory reply "eqcheck-out"
    let run := ended (onDisk reply) config.setup false
      (after (onDisk reply) config.setup { outside := disk }
        [.comparison ⟨none, .int 1, .call "f" .integer [.int 2], {}⟩])
    (∀ name, directory.contents? disk name = none) ∧
      (∀ effect ∈ run.effects, effect.isFailure = false) ∧
      ∃ record ∈ run.records, record.calls.any = true ∧ ∃ event text,
        FilesAgree config.setup text record (fun name => directory.contents? run.outside
          (sanitizeRunId config.runId ++ "-P" ++ Text.natText record.id ++ "-" ++ name)) ∧
        CallsAgree config.setup event text record run.effects := by
  intro config reply disk directory
  have fresh (name : String) : directory.contents? disk name = none := by
    have arrived : disk.walkFrom disk.workingDirectory (Path.parts "eqcheck-out") =
        .ok ["eqcheck-out"] := by decide +kernel
    have missing : disk.find? (["eqcheck-out"] ++ [name]) = none := rfl
    rw [← Option.bind_none Disk.text?, ← missing]
    exact Disk.textIn?_of_walk arrived name
  have agree := files_and_calls_agree (onDisk reply) config disk
    [.comparison ⟨none, .int 1, .call "f" .integer [.int 2], {}⟩] false directory fresh
  -- The run is opaque from here on, so that it is evaluated once only.
  revert agree
  generalize same : ended _ _ _ _ = run
  intro agree
  have evaluated : (run.effects.all (fun effect => !effect.isFailure) &&
      run.records.any fun record => record.calls.any) = true := by
    rw [← same]
    decide +kernel
  rw [Bool.and_eq_true] at evaluated
  have unfailed : ∀ effect ∈ run.effects, effect.isFailure = false := by simpa using evaluated.1
  obtain ⟨record, kept, calling⟩ := List.any_eq_true.mp evaluated.2
  obtain ⟨event, -, _, text, -, -, -, files, calls⟩ := agree unfailed record kept
  exact ⟨fresh, unfailed, record, kept, calling, event, text, files, calls⟩

end PathEquiv.Run
