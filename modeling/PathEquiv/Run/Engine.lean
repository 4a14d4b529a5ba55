import PathEquiv.Partition.Summary
import PathEquiv.Run.Artifact
import PathEquiv.Run.Config
import PathEquiv.Run.Event

set_option autoImplicit false

namespace PathEquiv

/-- The outside of a run. It stores files, and asking it a query stands for a solver that is started
on the file of the query and gives an answer or fails; nothing is assumed of either. -/
structure Host (σ : Type) where
  write : (path contents : String) → σ → Except String Unit × σ
  solve : Query → (path : String) → σ → Except SolverError Answer × σ

inductive Effect where
  | wrote (path contents : String)
  | failedToWrite (path : String)
  | asked (kind : QueryKind) (path : String)
  deriving DecidableEq, Repr

inductive EngineError where
  | synthesis (cause : SynthesisError)
  | interchange (cause : InterchangeError)
  | unclassified (evidence : Evidence)
  | artifact (path cause : String)
  | duplicateChoice (state number : Nat)
  deriving DecidableEq, Repr

namespace EngineError

def message : EngineError → String
  | .synthesis cause => "cannot build solver queries: " ++ cause.message
  | .interchange cause => "cannot serialize path condition: " ++ cause.message
  | .unclassified evidence => evidence.unclassifiedMessage
  | .artifact path cause => artifactMessage path cause
  | .duplicateChoice state number =>
      "path condition for state " ++ Text.natText state ++ ", choice " ++ Text.natText number ++
        " was already captured"

def isFatal : EngineError → Bool
  | .unclassified _ | .artifact .. => true
  | .synthesis _ | .interchange _ | .duplicateChoice .. => false

end EngineError

structure Run (σ : Type) where
  counter : PartitionCounter := {}
  records : List Record := []
  choices : List (Nat × Nat) := []
  effects : List Effect := []
  outside : σ

abbrev RunM (σ : Type) := ExceptT EngineError (StateM (Run σ))

structure Setup where
  store : ArtifactStore
  synthesizer : Synthesizer
  downgradeCallAnswers : Bool
  solveReachability : Bool

def Config.setup (config : Config) : Setup :=
  { store := .ofRunId config.outputDir config.runId
    synthesizer := config.synthesizer
    downgradeCallAnswers := config.downgradeCallAnswers
    solveReachability := config.solveReachability }

namespace Run

variable {σ : Type}

def writeTo (host : Host σ) (path contents : String) : RunM σ Unit := do
  let run ← get
  match host.write path contents run.outside with
  | (.ok _, outside) =>
      set { run with outside, effects := run.effects ++ [Effect.wrote path contents] }
  | (.error cause, outside) =>
      set { run with outside, effects := run.effects ++ [Effect.failedToWrite path] }
      throw (.artifact path cause)

def write (host : Host σ) (setup : Setup) (artifact : Artifact) (contents : String) :
    RunM σ Unit :=
  writeTo host (setup.store.path artifact) contents

def ask (host : Host σ) (query : Query) (path : String) : RunM σ (Except SolverError Answer) := do
  let run ← get
  let (answer, outside) := host.solve query path run.outside
  set { run with outside, effects := run.effects ++ [Effect.asked query.kind path] }
  return answer

def allocate : RunM σ Nat := do
  let run ← get
  let (id, counter) := run.counter.allocate
  set { run with counter }
  return id

structure Progress where
  flags : Flags := {}
  answers : PerQuery Answer := {}
  fingerprints : PerQuery String := {}
  errors : List String := []

def failedAnswer (cause : SolverError) : Answer :=
  { status := .error, model := none, diagnostics := cause.message, statistics := {} }

/-- The status that is written next to a query. A difference that rests on functions without
definition counts as unknown if the settings say so. -/
def writtenStatus (setup : Setup) (calls : CallFlags) (kind : QueryKind) (status : SolverStatus) :
    SolverStatus :=
  if kind = .neq ∧ status = .sat ∧ calls.any ∧ setup.downgradeCallAnswers then .unknown
  else status

def Progress.note (p : Progress) (query : Query) (reply : Except SolverError Answer) : Progress :=
  let (answer, errors) := match reply with
    | .ok answer => (answer, p.errors)
    | .error cause => (failedAnswer cause, p.errors ++ [query.kind.label ++ ": " ++ cause.message])
  { flags := if answer.status = .error then { p.flags with isError := true } else p.flags
    answers := p.answers.set query.kind answer
    fingerprints := p.fingerprints.set query.kind query.fingerprint
    errors }

def solveQuery (host : Host σ) (setup : Setup) (id : Nat) (calls : CallFlags) (query : Query)
    (progress : Progress) : RunM σ Progress := do
  let kind := query.kind
  let file (f : PartitionFile) : Artifact := .partition id f
  write host setup (file (.toSolve kind)) query.text
  let reply ← ask host query (setup.store.path (file (.toSolve kind)))
  let answer := match reply with
    | .ok answer => answer
    | .error cause => failedAnswer cause
  write host setup (file (.answer kind)) (writtenStatus setup calls kind answer.status).token
  if kind.asksModel ∧ answer.status = .sat then
    write host setup (file .model) (answer.model.getD "")
  if !Text.allBlank answer.diagnostics then
    write host setup (file (.errors kind)) answer.diagnostics
  return progress.note query reply

def solveAll (host : Host σ) (setup : Setup) (id : Nat) (calls : CallFlags) :
    List Query → Progress → RunM σ Progress
  | [], progress => return progress
  | query :: queries, progress =>
      if progress.flags.isError then return progress
      else do
        let progress ← solveQuery host setup id calls query progress
        solveAll host setup id calls queries progress

def Progress.evidence (p : Progress) (calls : CallFlags) : Evidence :=
  { flags := p.flags
    pc := p.answers.pc.map Answer.status
    neq := p.answers.neq.map Answer.status
    eq := p.answers.eq.map Answer.status
    callInCondition := calls.pc
    callAnywhere := calls.any }

def conclude (host : Host σ) (setup : Setup) (progress : Progress) (calls : CallFlags)
    (record : Classification → Record) : RunM σ Record := do
  let evidence := progress.evidence calls
  match evidence.classify? with
  | none => throw (.unclassified evidence)
  | some classification =>
      let record := record classification
      if record.kind = .comparison then
        write host setup (.partition record.id .hasCalls) (if calls.any then "true" else "false")
      write host setup (.partition record.id .record) record.toJson.pretty
      modify fun run => { run with records := run.records ++ [record] }
      return record

def compare (host : Host σ) (setup : Setup) (site : Site) : RunM σ Record := do
  let queries ←
    (setup.synthesizer.synthesize site.condition site.old site.new).mapError EngineError.synthesis
  let document ← (conditionText site.condition).mapError EngineError.interchange
  let calls := CallFlags.ofExprs site.condition site.old site.new
  let id ← allocate
  write host setup (.partition id .condition) document
  let asked :=
    (if setup.solveReachability then [queries.reachability] else []) ++ [queries.neq, queries.eq]
  let progress ← solveAll host setup id calls asked { flags := site.flags }
  conclude host setup progress calls fun classification =>
    { id, kind := .comparison
      condition := site.condition, old := some site.old, new := some site.new
      flags := progress.flags, calls
      answers := progress.answers, fingerprints := progress.fingerprints
      classification
      equivalent := progress.answers.neq.any (·.status == .unsat)
      errors := progress.errors }

def limitDepth (host : Host σ) (setup : Setup) (condition : Option Expr) : RunM σ Record := do
  let query ← (setup.synthesizer.reachability condition).mapError EngineError.synthesis
  let document ← (conditionText condition).mapError EngineError.interchange
  let calls := CallFlags.ofCondition condition
  let id ← allocate
  write host setup (.partition id .condition) document
  let asked := if setup.solveReachability then [query] else []
  let progress ← solveAll host setup id calls asked { flags := { isDepthLimited := true } }
  conclude host setup progress calls fun classification =>
    { id, kind := .depthLimit
      condition, old := none, new := none
      flags := progress.flags, calls
      answers := progress.answers, fingerprints := progress.fingerprints
      classification, equivalent := false, errors := progress.errors }

/-- Archives the path condition of a choice, at most once for each choice. Without a condition there
is nothing to archive. -/
def captureChoice (host : Host σ) (setup : Setup) (state number : Nat) :
    (condition : Option Expr) → RunM σ Unit
  | none => return
  | some condition => do
      if (← get).choices.contains (state, number) then
        throw (.duplicateChoice state number)
      modify fun run => { run with choices := (state, number) :: run.choices }
      let document ← (conditionText (some condition)).mapError EngineError.interchange
      write host setup (.choice state number) document

def summary (setup : Setup) (run : Run σ) : Summary :=
  .ofRecords setup.store.runId run.records

def finish (host : Host σ) (setup : Setup) : RunM σ Summary := do
  let summary := (← get).summary setup
  write host setup .result summary.toJson.pretty
  return summary

end Run

end PathEquiv
