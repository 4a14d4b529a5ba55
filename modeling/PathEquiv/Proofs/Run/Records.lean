import PathEquiv.Proofs.Partition.Decision
import PathEquiv.Proofs.Query.Document
import PathEquiv.Proofs.Run.Asking

set_option autoImplicit false

namespace PathEquiv.Run

variable {σ α : Type}

def comparisonQueries (setup : Setup) (queries : QuerySet) : List Query :=
  (if setup.solveReachability then [queries.reachability] else []) ++ [queries.neq, queries.eq]

theorem mem_comparisonQueries {setup : Setup} {queries : QuerySet} {query : Query}
    (member : query ∈ comparisonQueries setup queries) : ∃ kind, query = queries.get kind := by
  rcases List.mem_append.mp member with first | other
  · split at first
    next => exact ⟨.reachability, List.mem_singleton.mp first⟩
    next => cases first
  · simp only [List.mem_cons, List.not_mem_nil, or_false] at other
    rcases other with neq | eq
    · exact ⟨.neq, neq⟩
    · exact ⟨.eq, eq⟩

def comparisonCalls (site : Site) : CallFlags :=
  .ofExprs site.condition site.old site.new

def comparisonRecord (site : Site) (id : Nat) (progress : Progress)
    (classification : Classification) : Record :=
  { id, kind := .comparison
    condition := site.condition, old := some site.old, new := some site.new
    flags := progress.flags, calls := comparisonCalls site
    answers := progress.answers, fingerprints := progress.fingerprints
    classification
    equivalent := progress.answers.neq.any (·.status == .unsat)
    errors := progress.errors }

def depthLimitRecord (condition : Option Expr) (id : Nat) (progress : Progress)
    (classification : Classification) : Record :=
  { id, kind := .depthLimit
    condition, old := none, new := none
    flags := progress.flags, calls := .ofCondition condition
    answers := progress.answers, fingerprints := progress.fingerprints
    classification, equivalent := false, errors := progress.errors }

inductive Recorded (host : Host σ) (setup : Setup) : Event → Record → Prop where
  | comparison {site : Site} {queries : QuerySet} {id : Nat} {progress : Progress}
      {classification : Classification}
      (posed : setup.synthesizer.synthesize site.condition site.old site.new = .ok queries)
      (asked : Asked host (comparisonQueries setup queries) { flags := site.flags } progress)
      (classified :
        (progress.evidence (comparisonCalls site)).classify? = some classification) :
      Recorded host setup (.comparison site) (comparisonRecord site id progress classification)
  | depthLimit {condition : Option Expr} {query : Query} {id : Nat} {progress : Progress}
      {classification : Classification}
      (posed : setup.synthesizer.reachability condition = .ok query)
      (asked : Asked host (if setup.solveReachability then [query] else [])
        { flags := { isDepthLimited := true } } progress)
      (classified :
        (progress.evidence (.ofCondition condition)).classify? = some classification) :
      Recorded host setup (.depthLimit condition)
        (depthLimitRecord condition id progress classification)

inductive Poses (setup : Setup) : Event → List Query → Prop where
  | comparison {site : Site} {queries : QuerySet}
      (posed : setup.synthesizer.synthesize site.condition site.old site.new = .ok queries) :
      Poses setup (.comparison site) (comparisonQueries setup queries)
  | depthLimit {condition : Option Expr} {query : Query}
      (posed : setup.synthesizer.reachability condition = .ok query) :
      Poses setup (.depthLimit condition) (if setup.solveReachability then [query] else [])

def plannedKinds (setup : Setup) : PartitionKind → List QueryKind
  | .comparison => (if setup.solveReachability then [.reachability] else []) ++ [.neq, .eq]
  | .depthLimit => if setup.solveReachability then [.reachability] else []

theorem plannedKinds_sublist (setup : Setup) (kind : PartitionKind) :
    (plannedKinds setup kind).Sublist QueryKind.all := by
  cases kind <;> cases wanted : setup.solveReachability <;>
    simp [plannedKinds, QueryKind.all, wanted]

theorem kinds_comparisonQueries {setup : Setup} {site : Site} {queries : QuerySet}
    (posed : setup.synthesizer.synthesize site.condition site.old site.new = .ok queries) :
    (comparisonQueries setup queries).map Query.kind = plannedKinds setup .comparison := by
  have kind := Synthesizer.kind_synthesize posed
  have reachability : queries.reachability.kind = .reachability := kind .reachability
  have neq : queries.neq.kind = .neq := kind .neq
  have eq : queries.eq.kind = .eq := kind .eq
  cases wanted : setup.solveReachability <;>
    simp [comparisonQueries, plannedKinds, wanted, reachability, neq, eq]

theorem kinds_depthLimitQueries {setup : Setup} {condition : Option Expr} {query : Query}
    (posed : setup.synthesizer.reachability condition = .ok query) :
    (if setup.solveReachability then [query] else []).map Query.kind =
      plannedKinds setup .depthLimit := by
  cases wanted : setup.solveReachability <;>
    simp [plannedKinds, wanted, Synthesizer.kind_reachability posed]

theorem classified_comparison {host : Host σ} {setup : Setup} {site : Site} {queries : QuerySet}
    {flags : Flags} {progress : Progress}
    (posed : setup.synthesizer.synthesize site.condition site.old site.new = .ok queries)
    (asked : Asked host (comparisonQueries setup queries) { flags } progress)
    (calls : CallFlags) : ∃ c, (progress.evidence calls).classify? = some c := by
  -- Without an error no query was passed over, so both comparisons have an answer.
  refine Evidence.classify?_of_decided fun fine _ => ?_
  have answered (kind : QueryKind) (other : kind ≠ .reachability) :
      ∃ answer, progress.answers.get? kind = some answer ∧ answer.status ≠ .error := by
    have member : queries.get kind ∈ comparisonQueries setup queries := by
      cases kind <;> simp_all [comparisonQueries, QuerySet.get]
    rw [← Synthesizer.kind_synthesize posed kind]
    exact asked.decided fine member
  constructor
  next =>
    obtain ⟨answer, given, passed⟩ := answered .neq (by decide)
    exact ⟨answer.status, congrArg (Option.map Answer.status) given, passed⟩
  next =>
    obtain ⟨answer, given, passed⟩ := answered .eq (by decide)
    exact ⟨answer.status, congrArg (Option.map Answer.status) given, passed⟩

theorem classified_depthLimit {host : Host σ} {queries : List Query} {progress : Progress}
    (asked : Asked host queries { flags := { isDepthLimited := true } } progress)
    (calls : CallFlags) : ∃ c, (progress.evidence calls).classify? = some c := by
  refine Evidence.classify?_of_decided fun _ within => ?_
  exact absurd (asked.depthLimited.symm.trans within) (by decide)

def transcript (setup : Setup) (document : String) (queries : List Query) (record : Record) :
    List Effect :=
  let path := partitionPath setup record.id
  [.wrote (path .condition) document] ++
    (queries.flatMap (queryEffects setup record.id record.calls record.answers) ++
      ((if record.kind = .comparison then
          [.wrote (path .hasCalls) (if record.calls.any then "true" else "false")] else []) ++
        [.wrote (path .record) record.toJson.pretty]))

theorem performs_keep (host : Host σ) (owned : String → Prop) (record : Record) :
    Performs host owned [] (do
        modify fun run => { run with records := run.records ++ [record] }
        return record) (fun kept => [kept]) fun kept added => kept = record ∧ added = [] :=
  fun run => .gives ⟨rfl, rfl, rfl, by simp, .done run.outside⟩ .nil ⟨rfl, rfl⟩

theorem performs_partition (host : Host σ) (setup : Setup) (id : Nat) (calls : CallFlags)
    (document : String) (queries : List Query) (flags : Flags)
    (record : Progress → Classification → Record)
    (faithful : ∀ progress c, (record progress c).id = id ∧ (record progress c).calls = calls ∧
      (record progress c).answers = progress.answers)
    (planned : (queries.map Query.kind).Sublist QueryKind.all)
    (decided : ∀ progress, Asked host queries { flags } progress →
      ∃ c, (progress.evidence calls).classify? = some c) :
    Performs host (Owns setup id) (PartitionFile.all.map (partitionPath setup id)) (do
        write host setup (.partition id .condition) document
        let progress ← solveAll host setup id calls queries { flags }
        conclude host setup progress calls (record progress)) (fun kept => [kept])
      fun kept added => added = transcript setup document queries kept ∧
        ∃ progress c, Asked host queries { flags } progress ∧
          (progress.evidence calls).classify? = some c ∧ kept = record progress c := by
  let path := partitionPath setup id
  have within : ([path .condition] ++
      ((queries.flatMap fun query => queryFiles (Query.kind query)).map path ++
        ([path .hasCalls] ++ ([path .record] ++ [])))).Sublist (PartitionFile.all.map path) := by
    simpa [List.flatMap_map] using (PartitionFile.sublist_all planned).map path
  have unanswered : ∀ kind ∈ queries.map Query.kind,
      ({ flags } : Progress).answers.get? kind = none := by
    intro kind _
    cases kind <;> rfl
  refine Performs.mono ?_ within fun _ _ logged => logged
  -- In the order of the program: the condition, the queries, and the files that close the books.
  refine .bind (performs_file host setup id .condition document) ?_
  rintro _ _ rfl
  refine .bind (performs_solveAll host setup id calls queries { flags }
    (planned.nodup (by decide)) unanswered) ?_
  rintro progress _ ⟨asked, rfl⟩
  -- The branch without a class is never taken.
  obtain ⟨c, classified⟩ := decided progress asked
  obtain ⟨sameId, sameCalls, sameAnswers⟩ := faithful progress c
  unfold conclude
  simp only [classified, sameId]
  refine .optional [.wrote (path .hasCalls) (if calls.any then "true" else "false")]
    (fun _ => performs_file host setup id .hasCalls _) ?_
  refine .bind (performs_file host setup id .record _) ?_
  rintro _ _ rfl
  refine (performs_keep host _ (record progress c)).mono (List.Sublist.refl []) ?_
  rintro _ _ ⟨rfl, rfl⟩
  refine ⟨?_, progress, c, asked, classified, rfl⟩
  rw [transcript, sameId, sameCalls, sameAnswers]
  simp [path]

/-- How processing an event ends that is to become a partition. It is refused before it gets a
number, or it is aborted by a write that fails, or it is recorded. -/
inductive Partitioned (host : Host σ) (setup : Setup) (event : Event) (run : Run σ) :
    Except EngineError Record × Run σ → Prop where
  | refused {e : EngineError} (mild : e.isFatal = false)
      (unposed : ∀ queries, ¬Poses setup event queries) :
      Partitioned host setup event run (.error e, run)
  | aborted {path cause : String} {later : Run σ} {added : List Effect} {queries : List Query}
      (grows : Grows host { run with counter := run.counter.allocate.2 } later added [])
      (footprint : Footprint (Owns setup run.counter.allocate.1)
        (PartitionFile.all.map (partitionPath setup run.counter.allocate.1)) added)
      (failed : .failedToWrite path ∈ added) (poses : Poses setup event queries) :
      Partitioned host setup event run (.error (.artifact path cause), later)
  | recorded {record : Record} {later : Run σ} {document : String} {queries : List Query}
      (numbered : record.id = run.counter.allocate.1) (recorded : Recorded host setup event record)
      (poses : Poses setup event queries) (archived : conditionText record.condition = .ok document)
      (grows : Grows host { run with counter := run.counter.allocate.2 } later
        (transcript setup document queries record) [record])
      (footprint : Footprint (Owns setup record.id)
        (PartitionFile.all.map (partitionPath setup record.id))
        (transcript setup document queries record)) :
      Partitioned host setup event run (.ok record, later)

theorem partitioned_of_performs {host : Host σ} {setup : Setup} {event : Event}
    {queries : List Query} (document : String) {next : Nat → RunM σ Record}
    (performs : ∀ id, Performs host (Owns setup id) (PartitionFile.all.map (partitionPath setup id))
      (next id) (fun kept => [kept])
      fun kept added => added = transcript setup document queries kept ∧ kept.id = id ∧
        Recorded host setup event kept ∧ conditionText kept.condition = .ok document)
    (poses : Poses setup event queries) (run : Run σ) :
    Partitioned host setup event run ((allocate >>= next) run) := by
  let id := run.counter.allocate.1
  let numbered : Run σ := { run with counter := run.counter.allocate.2 }
  have ended := performs id numbered
  rw [bind_run, allocate_run]
  simp only
  generalize next id numbered = outcome at ended ⊢
  cases ended with
  | fails grows footprint failed => exact .aborted grows footprint failed poses
  | gives grows footprint logged =>
    obtain ⟨rfl, numbered, recorded, archived⟩ := logged
    exact .recorded numbered recorded poses archived grows (numbered ▸ footprint)

theorem conditionText_of_valid {e : Expr} (valid : e.Valid) :
    conditionText (some e) = .ok e.toJson.sortFields.pretty := by
  rw [conditionText, conditionDocument, Option.getD_some, Expr.toDocument, valid]
  rfl

theorem conditionText_of_defect {e : Expr} {cause : StructuralError}
    (defect : e.check = .error cause) :
    conditionText (some e) = .error (.structural cause) := by
  rw [conditionText, conditionDocument, Option.getD_some, Expr.toDocument, defect]
  rfl

theorem conditionText_of_checked {condition : Option Expr}
    (checked : checkCondition condition = .ok ()) :
    ∃ document, conditionText condition = .ok document := by
  cases condition with
  | none => exact ⟨_, rfl⟩
  | some e => exact ⟨_, conditionText_of_valid checked⟩

theorem compare_cases (host : Host σ) (setup : Setup) (site : Site) (run : Run σ) :
    Partitioned host setup (.comparison site) run (compare host setup site run) := by
  unfold compare
  rw [bind_run, lift_run]
  cases posed : setup.synthesizer.synthesize site.condition site.old site.new with
  | error =>
    refine .refused rfl fun queries poses => ?_
    obtain ⟨built⟩ := poses
    cases posed.symm.trans built
  | ok queries =>
    -- The condition was checked with the results, so its document cannot fail any more.
    obtain ⟨checked, -⟩ := Synthesizer.synthesize_eq_ok.mp posed
    obtain ⟨document, archived⟩ := conditionText_of_checked checked
    simp only [mapError_ok]
    rw [bind_run, lift_run, archived]
    refine partitioned_of_performs document (fun id => ?_) (.comparison posed) run
    have planned := kinds_comparisonQueries posed ▸ plannedKinds_sublist setup .comparison
    refine (performs_partition host setup id (comparisonCalls site) document
      (comparisonQueries setup queries) site.flags (comparisonRecord site id)
      (fun _ _ => ⟨rfl, rfl, rfl⟩) planned fun _ asked =>
        classified_comparison posed asked _).mono (List.Sublist.refl _) ?_
    rintro _ _ ⟨rfl, progress, c, asked, classified, rfl⟩
    exact ⟨rfl, rfl, .comparison posed asked classified, archived⟩

theorem limitDepth_cases (host : Host σ) (setup : Setup) (condition : Option Expr) (run : Run σ) :
    Partitioned host setup (.depthLimit condition) run (limitDepth host setup condition run) := by
  unfold limitDepth
  rw [bind_run, lift_run]
  cases posed : setup.synthesizer.reachability condition with
  | error =>
    refine .refused rfl fun queries poses => ?_
    obtain - | ⟨built⟩ := poses
    cases posed.symm.trans built
  | ok query =>
    obtain ⟨checked, -⟩ := Synthesizer.reachability_eq_ok.mp posed
    obtain ⟨document, archived⟩ := conditionText_of_checked checked
    simp only [mapError_ok]
    rw [bind_run, lift_run, archived]
    refine partitioned_of_performs document (fun id => ?_) (.depthLimit posed) run
    have planned := kinds_depthLimitQueries posed ▸ plannedKinds_sublist setup .depthLimit
    refine (performs_partition host setup id (.ofCondition condition) document
      (if setup.solveReachability then [query] else []) { isDepthLimited := true }
      (depthLimitRecord condition id) (fun _ _ => ⟨rfl, rfl, rfl⟩) planned fun _ asked =>
        classified_depthLimit asked _).mono (List.Sublist.refl _) ?_
    rintro _ _ ⟨rfl, progress, c, asked, classified, rfl⟩
    exact ⟨rfl, rfl, .depthLimit posed asked classified, archived⟩

inductive Stepped (host : Host σ) (setup : Setup) (run : Run σ) : Event → Run σ → Prop where
  | idle {event : Event} : Stepped host setup run event run
  | captured {state number : Nat} {condition : Expr} {later : Run σ} {added : List Effect}
      (fresh : (state, number) ∉ run.choices)
      (grows : Grows host { run with choices := (state, number) :: run.choices } later added [])
      (footprint : Footprint (· = setup.store.path (.choice state number))
        [setup.store.path (.choice state number)] added) :
      Stepped host setup run (.choice state number (some condition)) later
  | partitioned {event : Event} {outcome : Except EngineError Record × Run σ}
      (ended : Partitioned host setup event run outcome) : Stepped host setup run event outcome.2

/-- How an attempt to archive the condition of a choice ends. The choice is noted before its
condition is looked at. -/
inductive Captures (host : Host σ) (setup : Setup) (state number : Nat) (condition : Expr)
    (run : Run σ) : Except EngineError Unit × Run σ → Prop where
  | duplicate (noted : (state, number) ∈ run.choices) :
      Captures host setup state number condition run (.error (.duplicateChoice state number), run)
  | malformed {cause : StructuralError} (fresh : (state, number) ∉ run.choices)
      (defect : condition.check = .error cause) :
      Captures host setup state number condition run
        (.error (.interchange (.structural cause)),
          { run with choices := (state, number) :: run.choices })
  | aborted {path cause : String} {later : Run σ} {added : List Effect}
      (fresh : (state, number) ∉ run.choices) (valid : condition.Valid)
      (grows : Grows host { run with choices := (state, number) :: run.choices } later added [])
      (footprint : Footprint (· = setup.store.path (.choice state number))
        [setup.store.path (.choice state number)] added)
      (failed : .failedToWrite path ∈ added) :
      Captures host setup state number condition run (.error (.artifact path cause), later)
  | archived {document : String} {later : Run σ} (fresh : (state, number) ∉ run.choices)
      (valid : condition.Valid) (text : conditionText (some condition) = .ok document)
      (grows : Grows host { run with choices := (state, number) :: run.choices } later
        [.wrote (setup.store.path (.choice state number)) document] [])
      (footprint : Footprint (· = setup.store.path (.choice state number))
        [setup.store.path (.choice state number)]
        [.wrote (setup.store.path (.choice state number)) document]) :
      Captures host setup state number condition run (.ok (), later)

theorem captures (host : Host σ) (setup : Setup) (state number : Nat) (condition : Expr)
    (run : Run σ) :
    Captures host setup state number condition run
      (captureChoice host setup state number (some condition) run) := by
  simp only [captureChoice, bind_run, get_run]
  split
  next known => exact .duplicate (by simpa using known)
  next unknown =>
    let noted : Run σ := { run with choices := (state, number) :: run.choices }
    let path := setup.store.path (.choice state number)
    have fresh : (state, number) ∉ run.choices := by simpa using unknown
    cases checked : condition.check with
    | error cause =>
      rw [conditionText_of_defect checked]
      exact .malformed fresh checked
    | ok =>
      have text := conditionText_of_valid checked
      rw [text]
      generalize condition.toJson.sortFields.pretty = document at text ⊢
      have ended := performs_write host setup (· = path) (.choice state number) document rfl noted
      show Captures host setup state number condition run
        (write host setup (.choice state number) document noted)
      generalize write host setup (.choice state number) document noted = outcome at ended ⊢
      cases ended with
      | fails grows footprint failed => exact .aborted fresh checked grows footprint failed
      | gives grows footprint logged =>
        subst logged
        exact .archived fresh checked text grows footprint

theorem captureChoice_cases (host : Host σ) (setup : Setup) (state number : Nat)
    (condition : Option Expr) (run : Run σ) :
    Stepped host setup run (.choice state number condition)
      (captureChoice host setup state number condition run).2 := by
  cases condition with
  | none => exact .idle
  | some condition =>
    have ended := captures host setup state number condition run
    generalize captureChoice host setup state number (some condition) run = outcome at ended ⊢
    cases ended with
    | duplicate => exact .idle
    | malformed fresh => exact .captured fresh (.refl host _) .nil
    | aborted fresh _ grows footprint => exact .captured fresh grows footprint
    | archived fresh _ _ grows footprint => exact .captured fresh grows footprint

theorem step_cases (host : Host σ) (setup : Setup) (event : Event) (run : Run σ) :
    Stepped host setup run event (step host setup event run).2 := by
  cases event with
  | comparison site =>
    simp only [step, bind_pure_state]
    exact .partitioned (compare_cases host setup site run)
  | depthLimit condition =>
    simp only [step, bind_pure_state]
    exact .partitioned (limitDepth_cases host setup condition run)
  | choice state number condition =>
    simp only [step, bind_pure_state]
    exact captureChoice_cases host setup state number condition run

theorem step_records (host : Host σ) (setup : Setup) (event : Event) (run : Run σ) :
    (step host setup event run).2.records = run.records ∨
      ∃ record, Recorded host setup event record ∧
        (step host setup event run).2.records = run.records ++ [record] := by
  have stepped := step_cases host setup event run
  generalize (step host setup event run).2 = later at stepped ⊢
  cases stepped with
  | idle => exact .inl rfl
  | captured _ grows => exact .inl (by simpa using grows.records)
  | partitioned ended =>
    cases ended with
    | refused => exact .inl rfl
    | aborted grows => exact .inl (by simpa using grows.records)
    | recorded _ recorded _ _ grows => exact .inr ⟨_, recorded, grows.records⟩

theorem Stepped.effects {host : Host σ} {setup : Setup} {run later : Run σ} {event : Event}
    (stepped : Stepped host setup run event later) : run.effects <+: later.effects := by
  cases stepped with
  | idle => exact List.prefix_refl _
  | captured _ grows => exact ⟨_, grows.effects.symm⟩
  | partitioned ended =>
    cases ended with
    | refused => exact List.prefix_refl _
    | aborted grows => exact ⟨_, grows.effects.symm⟩
    | recorded _ _ _ _ grows => exact ⟨_, grows.effects.symm⟩

def evidenceOf (record : Record) : Evidence :=
  { flags := record.flags
    pc := record.answers.pc.map Answer.status
    neq := record.answers.neq.map Answer.status
    eq := record.answers.eq.map Answer.status
    callInCondition := record.calls.pc
    callAnywhere := record.calls.any }

namespace Recorded

variable {host : Host σ} {setup : Setup} {event : Event} {record : Record}

theorem classified (recorded : Recorded host setup event record) :
    (evidenceOf record).classify? = some record.classification := by
  cases recorded <;> assumption

theorem clean (recorded : Recorded host setup event record)
    (fine : record.flags.isError = false) {kind : QueryKind} {answer : Answer}
    (given : record.answers.get? kind = some answer) : answer.status ≠ .error := by
  cases recorded with
  | comparison _ asked => exact asked.clean (.initial _) fine kind answer given
  | depthLimit _ asked => exact asked.clean (.initial _) fine kind answer given

theorem comparison_of_within (recorded : Recorded host setup event record)
    (within : record.flags.isDepthLimited = false) : record.kind = .comparison := by
  cases recorded with
  | comparison => rfl
  | depthLimit _ asked => exact absurd (asked.depthLimited.symm.trans within) (by decide)

theorem equivalent_iff (recorded : Recorded host setup event record)
    (compared : record.kind = .comparison) :
    record.equivalent = true ↔ (evidenceOf record).neq = some .unsat := by
  cases recorded with
  | depthLimit => cases compared
  | @comparison _ _ _ progress =>
    cases answer : progress.answers.neq <;> simp [comparisonRecord, evidenceOf, answer]

theorem comparison_of_equivalent (recorded : Recorded host setup event record)
    (equivalent : record.equivalent = true) : record.kind = .comparison := by
  cases recorded with
  | comparison => rfl
  | depthLimit => cases equivalent

theorem answered (recorded : Recorded host setup event record)
    (compared : record.kind = .comparison) (fine : record.flags.isError = false)
    {kind : QueryKind} (wanted : kind = .reachability → setup.solveReachability = true) :
    (record.answers.get? kind).isSome := by
  cases recorded with
  | depthLimit => cases compared
  | @comparison _ queries _ _ _ posed asked =>
    have member : queries.get kind ∈ comparisonQueries setup queries := by
      cases kind with
      | reachability => simp [comparisonQueries, QuerySet.get, wanted]
      | neq => simp [comparisonQueries, QuerySet.get]
      | eq => simp [comparisonQueries, QuerySet.get]
    have complete := asked.complete fine member
    rwa [Synthesizer.kind_synthesize posed] at complete

theorem calls_any (recorded : Recorded host setup event record)
    (compared : record.kind = .comparison) :
    record.calls.any = (record.condition.any Expr.hasCall || record.old.any Expr.hasCall ||
      record.new.any Expr.hasCall) := by
  cases recorded with
  | comparison => rfl
  | depthLimit => cases compared

end Recorded

/-- The state after events in order. An event that fails leaves what it has done. -/
def after (host : Host σ) (setup : Setup) (run : Run σ) (events : List Event) : Run σ :=
  events.foldl (fun run event => (step host setup event run).2) run

theorem after_append (host : Host σ) (setup : Setup) (run : Run σ) (earlier later : List Event) :
    after host setup run (earlier ++ later) =
      after host setup (after host setup run earlier) later :=
  List.foldl_append

theorem after_induction {host : Host σ} {setup : Setup} {property : Run σ → Prop}
    {events : List Event} {run : Run σ} (start : property run)
    (preserved : ∀ {run later : Run σ} {event : Event}, event ∈ events →
      Stepped host setup run event later → property run → property later) :
    property (after host setup run events) := by
  induction events generalizing run with
  | nil => exact start
  | cons event events ih =>
    refine ih (preserved List.mem_cons_self (step_cases host setup event run) start) ?_
    exact fun member => preserved (List.mem_cons_of_mem event member)

theorem after_effects (host : Host σ) (setup : Setup) (run : Run σ) (events : List Event) :
    run.effects <+: (after host setup run events).effects := by
  induction events generalizing run with
  | nil => exact List.prefix_refl _
  | cons event events ih => exact (step_cases host setup event run).effects.trans (ih _)

theorem mem_records_after {host : Host σ} {setup : Setup} {run : Run σ} {events : List Event}
    {record : Record} (member : record ∈ (after host setup run events).records) :
    record ∈ run.records ∨ ∃ event ∈ events, Recorded host setup event record := by
  induction events generalizing run with
  | nil => exact .inl member
  | cons event events ih =>
    -- Either the rest of the run added the record, or it was there after this event.
    rcases ih member with earlier | ⟨other, later, recorded⟩
    · rcases step_records host setup event run with kept | ⟨added, recorded, grown⟩
      · exact .inl (kept ▸ earlier)
      · rw [grown, List.mem_append, List.mem_singleton] at earlier
        rcases earlier with before | rfl
        · exact .inl before
        · exact .inr ⟨event, List.mem_cons_self, recorded⟩
    · exact .inr ⟨other, List.mem_cons_of_mem event later, recorded⟩

end PathEquiv.Run
