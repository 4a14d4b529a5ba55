import PathEquiv.Proofs.Run.Action
import PathEquiv.Proofs.Run.Names

set_option autoImplicit false

namespace PathEquiv.Run

variable {σ : Type}

inductive Asked (host : Host σ) : List Query → Progress → Progress → Prop where
  | done (progress : Progress) : Asked host [] progress progress
  | stopped {queries : List Query} {progress : Progress} (failed : progress.flags.isError = true) :
      Asked host queries progress progress
  | next {query : Query} {queries : List Query} {progress final : Progress}
      {reply : Except SolverError Answer} (running : progress.flags.isError = false)
      (replied : Replies host query reply)
      (rest : Asked host queries (progress.note query reply) final) :
      Asked host (query :: queries) progress final

def answerOf : Except SolverError Answer → Answer
  | .ok answer => answer
  | .error cause => failedAnswer cause

@[simp] theorem answers_note (progress : Progress) (query : Query)
    (reply : Except SolverError Answer) :
    (progress.note query reply).answers = progress.answers.set query.kind (answerOf reply) := by
  cases reply <;> rfl

@[simp] theorem flags_note (progress : Progress) (query : Query)
    (reply : Except SolverError Answer) :
    (progress.note query reply).flags =
      if (answerOf reply).status = .error then { progress.flags with isError := true }
      else progress.flags := by
  cases reply <;> rfl

@[simp] theorem fingerprints_note (progress : Progress) (query : Query)
    (reply : Except SolverError Answer) :
    (progress.note query reply).fingerprints =
      progress.fingerprints.set query.kind query.fingerprint := by
  cases reply <;> rfl

namespace Asked

variable {host : Host σ} {queries : List Query} {progress final : Progress}

theorem flags_eq (asked : Asked host queries progress final) :
    final.flags = { progress.flags with isError := final.flags.isError } := by
  induction asked with
  | done => rfl
  | stopped => rfl
  | next _ _ _ ih =>
    rw [ih, flags_note]
    split <;> rfl

theorem depthLimited (asked : Asked host queries progress final) :
    final.flags.isDepthLimited = progress.flags.isDepthLimited := by
  rw [asked.flags_eq]

theorem eq_of_error (asked : Asked host queries progress final)
    (failed : progress.flags.isError = true) : final = progress := by
  cases asked with
  | done => rfl
  | stopped => rfl
  | next running => simp [failed] at running

theorem unasked (asked : Asked host queries progress final) {kind : QueryKind}
    (other : kind ∉ queries.map Query.kind) :
    final.answers.get? kind = progress.answers.get? kind := by
  induction asked with
  | done => rfl
  | stopped => rfl
  | next _ _ _ ih =>
    simp only [List.map_cons, List.mem_cons, not_or] at other
    rw [ih other.2, answers_note, PerQuery.get?_set, if_neg (Ne.symm other.1)]

theorem replied (asked : Asked host queries progress final) {kind : QueryKind} {answer : Answer}
    (given : final.answers.get? kind = some answer) :
    progress.answers.get? kind = some answer ∨
      ∃ query ∈ queries, query.kind = kind ∧ ∃ reply, Replies host query reply ∧
        answerOf reply = answer := by
  induction asked with
  | done => exact .inl given
  | stopped => exact .inl given
  | @next query queries _ _ reply _ replied _ ih =>
    rcases ih given with earlier | ⟨other, member, same, later⟩
    · -- No later query replaced the answer: it was given here or it is older still.
      rw [answers_note, PerQuery.get?_set] at earlier
      split at earlier
      next same =>
        exact .inr ⟨query, List.mem_cons_self, same, reply, replied, Option.some.inj earlier⟩
      next => exact .inl earlier
    · exact .inr ⟨other, List.mem_cons_of_mem query member, same, later⟩

theorem answered (asked : Asked host queries progress final) {kind : QueryKind}
    (given : (progress.answers.get? kind).isSome) : (final.answers.get? kind).isSome := by
  induction asked with
  | done => exact given
  | stopped => exact given
  | next _ _ _ ih =>
    apply ih
    rw [answers_note, PerQuery.get?_set]
    split
    next => rfl
    next => exact given

theorem complete (asked : Asked host queries progress final)
    (fine : final.flags.isError = false) {query : Query} (member : query ∈ queries) :
    (final.answers.get? query.kind).isSome := by
  induction asked with
  | done => simp at member
  | stopped failed => simp [fine] at failed
  | next _ _ rest ih =>
    rcases List.mem_cons.mp member with rfl | later
    · -- The query has its answer now and keeps one.
      apply rest.answered
      simp
    · exact ih fine later

end Asked

def Clean (progress : Progress) : Prop :=
  progress.flags.isError = false →
    ∀ kind answer, progress.answers.get? kind = some answer → answer.status ≠ .error

theorem Clean.initial (flags : Flags) : Clean { flags } := by
  intro _ kind answer given
  cases kind <;> simp [PerQuery.get?] at given

theorem Clean.note {progress : Progress} (clean : Clean progress) (query : Query)
    (reply : Except SolverError Answer) : Clean (progress.note query reply) := by
  intro fine kind answer given
  rw [flags_note] at fine
  split at fine
  next => simp at fine
  next passed =>
    rw [answers_note, PerQuery.get?_set] at given
    split at given
    next => exact Option.some.inj given ▸ passed
    next => exact clean fine kind answer given

theorem Asked.clean {host : Host σ} {queries : List Query} {progress final : Progress}
    (asked : Asked host queries progress final) (clean : Clean progress) : Clean final := by
  induction asked with
  | done => exact clean
  | stopped => exact clean
  | next _ _ _ ih => exact ih (clean.note _ _)

theorem Asked.decided {host : Host σ} {queries : List Query} {flags : Flags} {final : Progress}
    (asked : Asked host queries { flags } final) (fine : final.flags.isError = false)
    {query : Query} (member : query ∈ queries) :
    ∃ answer, final.answers.get? query.kind = some answer ∧ answer.status ≠ .error := by
  obtain ⟨answer, given⟩ := Option.isSome_iff_exists.mp (asked.complete fine member)
  exact ⟨answer, given, asked.clean (.initial flags) fine query.kind answer given⟩

def Fingerprinted (digest : QueryKind → String) (progress : Progress) : Prop :=
  ∀ kind, progress.fingerprints.get? kind = (progress.answers.get? kind).map fun _ => digest kind

theorem Fingerprinted.initial (digest : QueryKind → String) (flags : Flags) :
    Fingerprinted digest { flags } := by
  intro kind
  cases kind <;> rfl

theorem Asked.fingerprinted {host : Host σ} {queries : List Query} {progress final : Progress}
    (asked : Asked host queries progress final) {digest : QueryKind → String}
    (digests : ∀ query ∈ queries, query.fingerprint = digest query.kind)
    (before : Fingerprinted digest progress) : Fingerprinted digest final := by
  induction asked with
  | done => exact before
  | stopped => exact before
  | @next query _ progress _ reply _ _ _ ih =>
    refine ih (fun other member => digests other (by simp [member])) fun kind => ?_
    rw [fingerprints_note, answers_note, PerQuery.get?_set, PerQuery.get?_set]
    split
    next same => rw [digests query (by simp), same, Option.map_some]
    next => exact before kind

def answeredKinds (answers : PerQuery Answer) (planned : List QueryKind) : List QueryKind :=
  planned.filter fun kind => (answers.get? kind).isSome

theorem answeredKinds_cons {answers : PerQuery Answer} {kind : QueryKind} {answer : Answer}
    (given : answers.get? kind = some answer) (planned : List QueryKind) :
    answeredKinds answers (kind :: planned) = kind :: answeredKinds answers planned := by
  simp [answeredKinds, given]

theorem answeredKinds_eq_nil {answers : PerQuery Answer} {planned : List QueryKind}
    (unanswered : ∀ kind ∈ planned, answers.get? kind = none) :
    answeredKinds answers planned = [] := by
  simp only [answeredKinds, List.filter_eq_nil_iff]
  intro kind member
  simp [unanswered kind member]

structure StopsAtError (answers : PerQuery Answer) (planned calls : List QueryKind) : Prop where
  inOrder : calls <+: planned
  before : ∀ kind ∈ calls.dropLast, ∀ answer, answers.get? kind = some answer →
    answer.status ≠ .error
  stop : calls = planned ∨ ∃ kind answer, calls.getLast? = some kind ∧
    answers.get? kind = some answer ∧ answer.status = .error

theorem StopsAtError.cons {answers : PerQuery Answer} {kind : QueryKind} {answer : Answer}
    {planned calls : List QueryKind} (given : answers.get? kind = some answer)
    (passed : answer.status ≠ .error) (rest : StopsAtError answers planned calls) :
    StopsAtError answers (kind :: planned) (kind :: calls) where
  inOrder := List.cons_prefix_cons.mpr ⟨rfl, rest.inOrder⟩
  before := by
    intro other member found given'
    cases calls with
    | nil => simp at member
    | cons first calls =>
      rcases List.mem_cons.mp member with rfl | later
      · exact Option.some.inj (given.symm.trans given') ▸ passed
      · exact rest.before other later found given'
  stop := by
    rcases rest.stop with all | ⟨last, found, isLast, error⟩
    · exact .inl (by rw [all])
    · exact .inr ⟨last, found, by simp [List.getLast?_cons, isLast], error⟩

theorem StopsAtError.single {answers : PerQuery Answer} {kind : QueryKind} {answer : Answer}
    (given : answers.get? kind = some answer) (failed : answer.status = .error)
    (planned : List QueryKind) : StopsAtError answers (kind :: planned) [kind] where
  inOrder := by simp
  before := by simp
  stop := .inr ⟨kind, answer, rfl, given, failed⟩

theorem unanswered_note {query : Query} {queries : List Query} {progress : Progress}
    (reply : Except SolverError Answer) (fresh : query.kind ∉ queries.map Query.kind)
    (unanswered : ∀ kind ∈ (query :: queries).map Query.kind, progress.answers.get? kind = none) :
    ∀ kind ∈ queries.map Query.kind, (progress.note query reply).answers.get? kind = none := by
  intro kind member
  have other : query.kind ≠ kind := fun same => fresh (same ▸ member)
  rw [answers_note, PerQuery.get?_set, if_neg other]
  exact unanswered kind (by simp [member])

theorem Asked.stopsAtError {host : Host σ} {queries : List Query} {progress final : Progress}
    (asked : Asked host queries progress final) (running : progress.flags.isError = false)
    (distinct : (queries.map Query.kind).Nodup)
    (unanswered : ∀ kind ∈ queries.map Query.kind, progress.answers.get? kind = none) :
    StopsAtError final.answers (queries.map Query.kind)
      (answeredKinds final.answers (queries.map Query.kind)) := by
  induction asked with
  | done => exact ⟨by simp [answeredKinds], by simp [answeredKinds], .inl rfl⟩
  | stopped failed => simp [running] at failed
  | @next query queries progress final reply _ _ rest ih =>
    rw [List.map_cons, List.nodup_cons] at distinct
    have given : final.answers.get? query.kind = some (answerOf reply) := by
      rw [rest.unasked distinct.1]
      simp
    have others := unanswered_note reply distinct.1 unanswered
    rw [List.map_cons, answeredKinds_cons given]
    by_cases failed : (answerOf reply).status = .error
    next =>
      -- The error is noted, so nothing more is asked.
      have ended := rest.eq_of_error (by simp [failed])
      rw [ended, answeredKinds_eq_nil others, ← ended]
      exact .single given failed _
    next =>
      have fine : (progress.note query reply).flags.isError = false := by
        simpa [failed] using running
      exact .cons given failed (ih fine distinct.2 others)

abbrev partitionPath (setup : Setup) (id : Nat) (file : PartitionFile) : String :=
  setup.store.path (.partition id file)

def Owns (setup : Setup) (id : Nat) (path : String) : Prop :=
  ∃ file, path = partitionPath setup id file

def answerEffects (setup : Setup) (id : Nat) (calls : CallFlags) (query : Query)
    (answer : Answer) : List Effect :=
  let path := partitionPath setup id
  [.wrote (path (.toSolve query.kind)) query.text,
    .asked query.kind (path (.toSolve query.kind)),
    .wrote (path (.answer query.kind))
      (writtenStatus setup calls query.kind answer.status).token] ++
  (if query.kind.asksModel ∧ answer.status = .sat then
    [.wrote (path .model) (answer.model.getD "")] else []) ++
  (if !Text.allBlank answer.diagnostics then
    [.wrote (path (.errors query.kind)) answer.diagnostics] else [])

def queryEffects (setup : Setup) (id : Nat) (calls : CallFlags) (answers : PerQuery Answer)
    (query : Query) : List Effect :=
  match answers.get? query.kind with
  | none => []
  | some answer => answerEffects setup id calls query answer

theorem performs_file (host : Host σ) (setup : Setup) (id : Nat) (file : PartitionFile)
    (contents : String) :
    Performs host (Owns setup id) [partitionPath setup id file]
      (write host setup (.partition id file) contents) nothing
      fun _ added => added = [.wrote (partitionPath setup id file) contents] :=
  performs_write host setup _ (.partition id file) contents ⟨file, rfl⟩

theorem performs_solveQuery (host : Host σ) (setup : Setup) (id : Nat) (calls : CallFlags)
    (query : Query) (progress : Progress) :
    Performs host (Owns setup id)
      ((queryFiles query.kind).map (partitionPath setup id))
      (solveQuery host setup id calls query progress) nothing fun later added =>
        ∃ reply, Replies host query reply ∧ later = progress.note query reply ∧
          added = answerEffects setup id calls query (answerOf reply) := by
  let path := partitionPath setup id
  have writes := performs_file host setup id
  have order : (queryFiles query.kind).map path =
      [path (.toSolve query.kind)] ++ ([] ++ ([path (.answer query.kind)] ++
        ((if query.kind.asksModel then [path .model] else []) ++
          ([path (.errors query.kind)] ++ [])))) := by
    cases query.kind <;> rfl
  rw [order]
  -- One file or one call for each line of the action, in the order of `order`.
  unfold solveQuery
  refine .bind (writes (.toSolve query.kind) query.text) ?_
  rintro _ _ rfl
  refine .bind (performs_ask host query _ ⟨_, rfl⟩) ?_
  rintro reply _ ⟨replied, rfl⟩
  refine .bind (writes (.answer query.kind) _) ?_
  rintro _ _ rfl
  let answer := answerOf reply
  refine .optional [.wrote (path .model) (answer.model.getD "")] (fun wanted => ?_) ?_
  next =>
    rw [wanted.1, if_pos rfl]
    exact writes .model _
  refine .optional [.wrote (path (.errors query.kind)) answer.diagnostics]
    (fun _ => writes (.errors query.kind) _) ?_
  refine .pure ⟨reply, replied, rfl, ?_⟩
  simp only [answerEffects, List.cons_append, List.nil_append, List.append_nil]
  rfl

theorem performs_solveAll (host : Host σ) (setup : Setup) (id : Nat) (calls : CallFlags)
    (queries : List Query) (progress : Progress) (distinct : (queries.map Query.kind).Nodup)
    (unanswered : ∀ kind ∈ queries.map Query.kind, progress.answers.get? kind = none) :
    Performs host (Owns setup id)
      ((queries.flatMap fun query => queryFiles query.kind).map (partitionPath setup id))
      (solveAll host setup id calls queries progress) nothing fun final added =>
        Asked host queries progress final ∧
          added = queries.flatMap (queryEffects setup id calls final.answers) := by
  induction queries generalizing progress with
  | nil => exact .pure ⟨.done progress, rfl⟩
  | cons query queries ih =>
    rw [List.map_cons, List.nodup_cons] at distinct
    unfold solveAll
    split
    next failed =>
      -- An error that is already there stops the row before its first query.
      refine .pure ⟨.stopped failed, ?_⟩
      symm
      rw [List.flatMap_eq_nil_iff]
      intro other member
      rw [queryEffects, unanswered other.kind (List.mem_map_of_mem member)]
    next running =>
      rw [List.flatMap_cons, List.map_append]
      refine .bind (performs_solveQuery host setup id calls query progress) ?_
      rintro _ _ ⟨reply, replied, rfl, rfl⟩
      have others := unanswered_note reply distinct.1 unanswered
      refine (ih _ distinct.2 others).mono (List.Sublist.refl _) ?_
      rintro final _ ⟨asked, rfl⟩
      -- The queries after it are of other kinds, so its answer stays.
      have given : final.answers.get? query.kind = some (answerOf reply) := by
        rw [asked.unasked distinct.1]
        simp
      refine ⟨.next (by simpa using running) replied asked, ?_⟩
      rw [List.flatMap_cons, queryEffects, given]

end PathEquiv.Run
