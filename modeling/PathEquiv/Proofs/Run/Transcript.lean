import PathEquiv.Proofs.Run.Ledger

set_option autoImplicit false

namespace PathEquiv.Run

variable {σ : Type}

theorem owns_iff (setup : Setup) (id : Nat) (path : String) :
    path ∈ PartitionFile.all.map (partitionPath setup id) ↔ Owns setup id path := by
  rw [List.mem_map]
  constructor
  · rintro ⟨file, -, rfl⟩
    exact ⟨file, rfl⟩
  · rintro ⟨file, rfl⟩
    exact ⟨file, PartitionFile.mem_all file, rfl⟩

instance (setup : Setup) (id : Nat) (path : String) : Decidable (Owns setup id path) :=
  decidable_of_iff _ (owns_iff setup id path)

theorem partitionPath_inj {setup : Setup} {id other : Nat} {file otherFile : PartitionFile} :
    partitionPath setup id file = partitionPath setup other otherFile ↔
      id = other ∧ file = otherFile := by
  constructor
  · exact fun same => Artifact.partition.inj (setup.store.path_injective same)
  · rintro ⟨rfl, rfl⟩
    rfl

def effectsOf (setup : Setup) (id : Nat) (effects : List Effect) : List Effect :=
  effects.filter fun effect => Owns setup id effect.path

theorem effectsOf_append_foreign {setup : Setup} {id : Nat} {effects added : List Effect}
    (foreign : ∀ effect ∈ added, ¬Owns setup id effect.path) :
    effectsOf setup id (effects ++ added) = effectsOf setup id effects := by
  have none : effectsOf setup id added = [] := by simpa [effectsOf] using foreign
  rw [effectsOf, List.filter_append, ← effectsOf, ← effectsOf, none, List.append_nil]

theorem effectsOf_append_own {setup : Setup} {id : Nat} {effects added : List Effect}
    (foreign : ∀ effect ∈ effects, ¬Owns setup id effect.path)
    (own : ∀ effect ∈ added, Owns setup id effect.path) :
    effectsOf setup id (effects ++ added) = added := by
  have none : effectsOf setup id effects = [] := by simpa [effectsOf] using foreign
  have all : effectsOf setup id added = added := by simpa [effectsOf] using own
  rw [effectsOf, List.filter_append, ← effectsOf, ← effectsOf, none, all, List.nil_append]

def Transcribed (host : Host σ) (setup : Setup) (events : List Event) (effects : List Effect)
    (record : Record) : Prop :=
  ∃ event ∈ events, ∃ document queries, Recorded host setup event record ∧
    Poses setup event queries ∧ conditionText record.condition = .ok document ∧
    effectsOf setup record.id effects = transcript setup document queries record

theorem Transcribed.append {host : Host σ} {setup : Setup} {events : List Event}
    {effects added : List Effect} {record : Record}
    (transcribed : Transcribed host setup events effects record)
    (foreign : ∀ effect ∈ added, ¬Owns setup record.id effect.path) :
    Transcribed host setup events (effects ++ added) record := by
  obtain ⟨event, member, document, queries, recorded, poses, archived, done⟩ := transcribed
  refine ⟨event, member, document, queries, recorded, poses, archived, ?_⟩
  rw [effectsOf_append_foreign foreign, done]

structure Books (host : Host σ) (setup : Setup) (outside : σ) (events : List Event) (run : Run σ) :
    Prop where
  archive : Archive host setup outside run
  numbering : Numbering run
  transcribed : ∀ record ∈ run.records, Transcribed host setup events run.effects record

namespace Books

variable {host : Host σ} {setup : Setup} {outside : σ} {events : List Event} {run later : Run σ}
  {event : Event}

theorem initial : Books host setup outside events { outside } :=
  ⟨.initial, .initial outside, by simp⟩

theorem foreign_next (books : Books host setup outside events run) {record : Record}
    (kept : record ∈ run.records) {path : String} (next : Owns setup run.counter.allocate.1 path) :
    ¬Owns setup record.id path := by
  rintro ⟨file, rfl⟩
  obtain ⟨other, same⟩ := next
  have id : record.id = run.counter.allocated + 1 := (partitionPath_inj.mp same).1
  have before := books.numbering.allocated record kept
  omega

theorem step (books : Books host setup outside events run) (member : event ∈ events)
    (stepped : Stepped host setup run event later) : Books host setup outside events later := by
  refine ⟨books.archive.step stepped, books.numbering.step stepped, ?_⟩
  cases stepped with
  | idle => exact books.transcribed
  | captured _ grows footprint =>
    intro record kept
    rw [grows.records, List.append_nil] at kept
    rw [grows.effects]
    refine (books.transcribed record kept).append fun effect done => ?_
    rintro ⟨file, same⟩
    cases setup.store.path_injective (same.symm.trans (footprint.owned effect done))
  | partitioned ended =>
    cases ended with
    | refused => exact books.transcribed
    | aborted grows footprint =>
      intro record kept
      rw [grows.records, List.append_nil] at kept
      rw [grows.effects]
      exact (books.transcribed record kept).append fun effect done =>
        books.foreign_next kept (footprint.owned effect done)
    | recorded numbered recorded poses archived grows footprint =>
      intro record kept
      rw [grows.records, List.mem_append, List.mem_singleton] at kept
      rw [grows.effects]
      rcases kept with before | rfl
      · exact (books.transcribed record before).append fun effect done =>
          books.foreign_next before (numbered ▸ footprint.owned effect done)
      · refine ⟨event, member, _, _, recorded, poses, archived, ?_⟩
        -- Its number was not issued before, so nothing that was done so far is on its files.
        refine effectsOf_append_own (fun effect done => ?_) footprint.owned
        exact numbered ▸ (books.archive.issued effect done).not_next

theorem ended (books : Books host setup outside events run) (finished : Bool) :
    let last := ended host setup finished run
    ∀ record ∈ last.records, Transcribed host setup events last.effects record := by
  intro last record kept
  obtain ⟨added, grows, footprint⟩ := ended_grows host setup finished run
  have records : last.records = run.records := by simpa using grows.records
  have effects : last.effects = run.effects ++ added := grows.effects
  rw [records] at kept
  rw [effects]
  refine (books.transcribed record kept).append fun effect done => ?_
  rintro ⟨file, same⟩
  cases setup.store.path_injective (same.symm.trans (footprint.owned effect done))

end Books

theorem books_after (host : Host σ) (setup : Setup) (outside : σ) (events : List Event) :
    Books host setup outside events (after host setup { outside } events) :=
  after_induction .initial fun member stepped books => books.step member stepped

theorem mem_queryEffects {setup : Setup} {id : Nat} {calls : CallFlags} {answers : PerQuery Answer}
    {query : Query} {effect : Effect} :
    effect ∈ queryEffects setup id calls answers query ↔
      ∃ answer, answers.get? query.kind = some answer ∧
        effect ∈ answerEffects setup id calls query answer := by
  unfold queryEffects
  split
  next none => simp [none]
  next answer given => simp [given]

theorem wrote_mem_answerEffects {setup : Setup} {id : Nat} {calls : CallFlags} {query : Query}
    {answer : Answer} {file : PartitionFile} {contents : String} :
    .wrote (partitionPath setup id file) contents ∈ answerEffects setup id calls query answer ↔
      (file = .toSolve query.kind ∧ contents = query.text) ∨
      (file = .answer query.kind ∧
        contents = (writtenStatus setup calls query.kind answer.status).token) ∨
      ((query.kind.asksModel = true ∧ answer.status = .sat) ∧ file = .model ∧
        contents = answer.model.getD "") ∨
      (Text.allBlank answer.diagnostics = false ∧ file = .errors query.kind ∧
        contents = answer.diagnostics) := by
  simp only [answerEffects, List.mem_append, List.mem_cons, List.mem_ite_nil_right,
    Effect.wrote.injEq, partitionPath_inj, List.not_mem_nil, reduceCtorEq, true_and, false_or,
    or_false, or_assoc, Bool.not_eq_true']

theorem wrote_mem_transcript {setup : Setup} {document : String} {queries : List Query}
    {record : Record} {file : PartitionFile} {contents : String} :
    .wrote (partitionPath setup record.id file) contents ∈
        transcript setup document queries record ↔
      (file = .condition ∧ contents = document) ∨
      (∃ query ∈ queries, ∃ answer, record.answers.get? query.kind = some answer ∧
        .wrote (partitionPath setup record.id file) contents ∈
          answerEffects setup record.id record.calls query answer) ∨
      (record.kind = .comparison ∧ file = .hasCalls ∧
        contents = if record.calls.any then "true" else "false") ∨
      (file = .record ∧ contents = record.toJson.pretty) := by
  simp only [transcript, List.mem_append, List.mem_cons, List.mem_ite_nil_right, List.mem_flatMap,
    Effect.wrote.injEq, partitionPath_inj, List.not_mem_nil, true_and, or_false, mem_queryEffects]

theorem Poses.text {setup : Setup} {event : Event} {queries : List Query}
    (poses : Poses setup event queries) :
    ∃ text : QueryKind → String, ∀ query ∈ queries, query.text = text query.kind := by
  cases poses with
  | @comparison _ queries posed =>
    refine ⟨fun kind => (queries.get kind).text, fun query member => ?_⟩
    obtain ⟨kind, rfl⟩ := mem_comparisonQueries member
    simp only [Synthesizer.kind_synthesize posed]
  | @depthLimit _ query posed =>
    refine ⟨fun _ => query.text, fun other member => ?_⟩
    split at member
    next => rw [List.mem_singleton.mp member]
    next => cases member

def startFlags : Event → Flags
  | .comparison site => site.flags
  | .depthLimit _ => { isDepthLimited := true }
  | .choice _ _ _ => {}

theorem Recorded.asked {host : Host σ} {setup : Setup} {event : Event} {record : Record}
    {queries : List Query} (recorded : Recorded host setup event record)
    (poses : Poses setup event queries) :
    ∃ progress, Asked host queries { flags := startFlags event } progress ∧
      record.answers = progress.answers ∧ record.fingerprints = progress.fingerprints ∧
      queries.map Query.kind = plannedKinds setup record.kind := by
  cases recorded with
  | comparison posed asked =>
    obtain ⟨same⟩ := poses
    cases posed.symm.trans same
    exact ⟨_, asked, rfl, rfl, kinds_comparisonQueries posed⟩
  | depthLimit posed asked =>
    obtain - | ⟨same⟩ := poses
    cases posed.symm.trans same
    exact ⟨_, asked, rfl, rfl, kinds_depthLimitQueries posed⟩

theorem Recorded.posed {host : Host σ} {setup : Setup} {event : Event} {record : Record}
    {queries : List Query} (recorded : Recorded host setup event record)
    (poses : Poses setup event queries) {kind : QueryKind} {answer : Answer}
    (given : record.answers.get? kind = some answer) : ∃ query ∈ queries, query.kind = kind := by
  obtain ⟨progress, asked, answers, -⟩ := recorded.asked poses
  rw [answers] at given
  rcases asked.replied given with before | ⟨query, member, same, -⟩
  · cases kind <;> cases before
  · exact ⟨query, member, same⟩

section Transcript

variable {setup : Setup} {document : String} {queries : List Query} {record : Record}
  {text : QueryKind → String} {contents : String}

theorem wrote_hasCalls :
    .wrote (partitionPath setup record.id .hasCalls) contents ∈
        transcript setup document queries record ↔
      (if record.kind = .comparison then some (if record.calls.any then "true" else "false")
        else none) = some contents := by
  simp only [wrote_mem_transcript, wrote_mem_answerEffects, reduceCtorEq, false_and, and_false,
    false_or, or_false, exists_false, true_and, Option.ite_none_right_eq_some, Option.some.injEq]
  exact and_congr_right fun _ => eq_comm

-- No answer is recorded to a query that was not posed.
variable (posed : ∀ {kind answer}, record.answers.get? kind = some answer →
  ∃ query ∈ queries, query.kind = kind)

include posed

theorem wrote_toSolve (texts : ∀ query ∈ queries, query.text = text query.kind)
    {kind : QueryKind} :
    .wrote (partitionPath setup record.id (.toSolve kind)) contents ∈
        transcript setup document queries record ↔
      (record.answers.get? kind).map (fun _ => text kind) = some contents := by
  simp only [wrote_mem_transcript, wrote_mem_answerEffects, reduceCtorEq, false_and, and_false,
    false_or, or_false, PartitionFile.toSolve.injEq, Option.map_eq_some_iff]
  constructor
  next =>
    rintro ⟨query, member, answer, given, rfl, rfl⟩
    exact ⟨answer, given, (texts query member).symm⟩
  next =>
    rintro ⟨answer, given, rfl⟩
    obtain ⟨query, member, rfl⟩ := posed given
    exact ⟨query, member, answer, given, rfl, (texts query member).symm⟩

theorem wrote_answer {kind : QueryKind} :
    .wrote (partitionPath setup record.id (.answer kind)) contents ∈
        transcript setup document queries record ↔
      (record.answers.get? kind).map (fun answer =>
        if kind = .neq ∧ answer.status = .sat ∧ record.calls.any ∧ setup.downgradeCallAnswers
        then "unknown" else answer.status.token) = some contents := by
  simp only [wrote_mem_transcript, wrote_mem_answerEffects, reduceCtorEq, false_and, and_false,
    false_or, or_false, PartitionFile.answer.injEq, Option.map_eq_some_iff]
  have spelled (answer : Answer) : (writtenStatus setup record.calls kind answer.status).token =
      if kind = .neq ∧ answer.status = .sat ∧ record.calls.any ∧ setup.downgradeCallAnswers
      then "unknown" else answer.status.token := by
    unfold writtenStatus
    split <;> rfl
  constructor
  next =>
    rintro ⟨query, member, answer, given, rfl, rfl⟩
    exact ⟨answer, given, (spelled answer).symm⟩
  next =>
    rintro ⟨answer, given, rfl⟩
    obtain ⟨query, member, rfl⟩ := posed given
    exact ⟨query, member, answer, given, rfl, (spelled answer).symm⟩

theorem wrote_errors {kind : QueryKind} :
    .wrote (partitionPath setup record.id (.errors kind)) contents ∈
        transcript setup document queries record ↔
      ((record.answers.get? kind).bind fun answer =>
        if Text.allBlank answer.diagnostics then none else some answer.diagnostics) =
          some contents := by
  simp only [wrote_mem_transcript, wrote_mem_answerEffects, reduceCtorEq, false_and, and_false,
    false_or, or_false, PartitionFile.errors.injEq, Option.bind_eq_some_iff,
    Option.ite_none_left_eq_some, Option.some.injEq, Bool.not_eq_true]
  constructor
  next =>
    rintro ⟨query, member, answer, given, said, rfl, rfl⟩
    exact ⟨answer, given, said, rfl⟩
  next =>
    rintro ⟨answer, given, said, rfl⟩
    obtain ⟨query, member, rfl⟩ := posed given
    exact ⟨query, member, answer, given, said, rfl, rfl⟩

theorem wrote_model :
    .wrote (partitionPath setup record.id .model) contents ∈
        transcript setup document queries record ↔
      ((record.answers.get? .neq).bind fun answer =>
        if answer.status = .sat then some (answer.model.getD "") else none) = some contents := by
  have asksModel {kind : QueryKind} : kind.asksModel = true ↔ kind = .neq := by
    cases kind <;> decide
  simp only [wrote_mem_transcript, wrote_mem_answerEffects, reduceCtorEq, false_and, and_false,
    false_or, or_false, true_and, asksModel, Option.bind_eq_some_iff,
    Option.ite_none_right_eq_some, Option.some.injEq]
  constructor
  next =>
    rintro ⟨query, member, answer, given, ⟨kind, found⟩, rfl⟩
    exact ⟨answer, kind ▸ given, found, rfl⟩
  next =>
    rintro ⟨answer, given, found, rfl⟩
    obtain ⟨query, member, kind⟩ := posed given
    exact ⟨query, member, answer, kind ▸ given, ⟨kind, found⟩, rfl⟩

end Transcript

def askedKind? : Effect → Option QueryKind
  | .asked kind _ => some kind
  | .wrote _ _ | .failedToWrite _ => none

def askedKinds (effects : List Effect) : List QueryKind :=
  effects.filterMap askedKind?

theorem askedKinds_append (effects more : List Effect) :
    askedKinds (effects ++ more) = askedKinds effects ++ askedKinds more :=
  List.filterMap_append

section Calls

variable {setup : Setup} {id : Nat} {calls : CallFlags} {answers : PerQuery Answer}
  {text : QueryKind → String}

theorem askedKinds_answerEffects (query : Query) (answer : Answer) :
    askedKinds (answerEffects setup id calls query answer) = [query.kind] := by
  simp only [answerEffects, askedKinds_append]
  split <;> split <;> rfl

theorem askedKinds_queries (queries : List Query) :
    askedKinds (queries.flatMap (queryEffects setup id calls answers)) =
      answeredKinds answers (queries.map Query.kind) := by
  induction queries with
  | nil => rfl
  | cons query queries ih =>
    rw [List.flatMap_cons, askedKinds_append, ih, List.map_cons, queryEffects]
    cases given : answers.get? query.kind with
    | none => simp [answeredKinds, askedKinds, given]
    | some answer => rw [answeredKinds_cons given, askedKinds_answerEffects, List.singleton_append]

theorem askedKinds_closing (record : Record) :
    askedKinds ((if record.kind = .comparison then
      [.wrote (partitionPath setup record.id .hasCalls)
        (if record.calls.any then "true" else "false")] else []) ++
      [.wrote (partitionPath setup record.id .record) record.toJson.pretty]) = [] := by
  rw [askedKinds_append]
  split <;> rfl

theorem askedKinds_transcript (document : String) (queries : List Query) (record : Record) :
    askedKinds (transcript setup document queries record) =
      answeredKinds record.answers (queries.map Query.kind) := by
  rw [transcript, askedKinds_append, askedKinds_append, askedKinds_queries, askedKinds_closing,
    List.append_nil]
  rfl

/-- A query is asked from the file that holds its text, and only once the text is there. -/
def WrittenFirst (setup : Setup) (id : Nat) (text : QueryKind → String) (effects : List Effect) :
    Prop :=
  ∀ before kind path rest, effects = before ++ .asked kind path :: rest →
    path = partitionPath setup id (.toSolve kind) ∧ .wrote path (text kind) ∈ before

theorem WrittenFirst.append {effects more : List Effect}
    (first : WrittenFirst setup id text effects) (second : WrittenFirst setup id text more) :
    WrittenFirst setup id text (effects ++ more) := by
  intro before kind path rest same
  rcases List.append_eq_append_iff.mp same with ⟨middle, rfl, later⟩ | ⟨middle, rfl, later⟩
  · obtain ⟨place, written⟩ := second middle kind path rest later
    exact ⟨place, List.mem_append_right effects written⟩
  · cases middle with
    -- The query would be the first effect of the second part, with no text before it.
    | nil => exact absurd (second [] kind path rest later.symm).2 (by simp)
    | cons asked middle =>
      obtain ⟨rfl, -⟩ := List.cons.inj later
      exact first before kind path middle rfl

theorem WrittenFirst.of_unasked {effects : List Effect} (none : askedKinds effects = []) :
    WrittenFirst setup id text effects := by
  rintro before kind path rest rfl
  simp [askedKinds, askedKind?] at none

theorem writtenFirst_answerEffects {query : Query} (same : query.text = text query.kind)
    (answer : Answer) :
    WrittenFirst setup id text (answerEffects setup id calls query answer) := by
  let path := partitionPath setup id (.toSolve query.kind)
  have asked : WrittenFirst setup id text
      [.wrote path query.text, .asked query.kind path] := by
    rintro (_ | ⟨_, _ | ⟨_, before⟩⟩) kind other rest equal
    · cases equal
    · cases equal
      exact ⟨rfl, by simp [same]⟩
    · simp at equal
  -- Whatever else is done about the answer, no query is asked again.
  obtain ⟨rest, parts⟩ : ∃ rest, answerEffects setup id calls query answer =
      [.wrote path query.text, .asked query.kind path] ++ rest := ⟨_, rfl⟩
  have quiet : askedKinds rest = [] := by
    have all : askedKinds (answerEffects setup id calls query answer) = [query.kind] :=
      askedKinds_answerEffects query answer
    rw [parts, askedKinds_append] at all
    exact List.append_cancel_left all
  rw [parts]
  exact asked.append (.of_unasked quiet)

theorem writtenFirst_transcript (document : String) {queries : List Query}
    (texts : ∀ query ∈ queries, query.text = text query.kind) (record : Record) :
    WrittenFirst setup record.id text (transcript setup document queries record) := by
  refine .append (.of_unasked rfl) (.append ?_ (.of_unasked (askedKinds_closing record)))
  induction queries with
  | nil => exact .of_unasked rfl
  | cons query queries ih =>
    rw [List.flatMap_cons]
    refine .append ?_ (ih fun other member => texts other (by simp [member]))
    unfold queryEffects
    split
    next => exact .of_unasked rfl
    next answer _ => exact writtenFirst_answerEffects (texts query (by simp)) answer

end Calls

end PathEquiv.Run
