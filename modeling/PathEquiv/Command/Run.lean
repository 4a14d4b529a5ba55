import PathEquiv.Command.Basic
import PathEquiv.Command.Report
import PathEquiv.Solver.Process

set_option autoImplicit false

namespace PathEquiv

inductive CommandError where
  | unknownFormat (text : String)
  | unknownSolver (text : String)
  | unknownAnswer (text : String)
  | unknownKind (text : String)
  | unreadable (path : String)
  | unreadableConfig (path : String) (cause : DiskError)
  | malformed (path : String)
  | unclassified (evidence : Evidence)
  | benchmark (cause : BenchmarkError)
  | synthesis (cause : SynthesisError)
  | engine (cause : EngineError)
  deriving DecidableEq, Repr

def CommandError.message : CommandError → String
  | .unknownFormat text => "Unknown output format: " ++ text ++ ". Use 'text' or 'json'."
  | .unknownSolver text => "Unknown solver: " ++ text ++ ". Use 'z3' or 'cvc5'."
  | .unknownAnswer text =>
      "Unknown solver answer: " ++ text ++ ". Use sat, unsat, unknown or none."
  | .unknownKind text => "Unknown query kind: " ++ text ++ ". Use pc, neq, eq or all."
  | .unreadable path => "Failed to read " ++ path
  | .unreadableConfig path cause => "cannot read config " ++ path ++ ": " ++ cause.message
  | .malformed path => "invalid document: " ++ path
  | .unclassified evidence => evidence.unclassifiedMessage
  | .benchmark cause => cause.message
  | .synthesis cause => cause.message
  | .engine cause => cause.message

abbrev CommandM := ExceptT CommandError (StateM Workspace)

inductive OutputFormat where
  | text
  | json
  deriving DecidableEq, Repr

def OutputFormat.ofText : String → Except CommandError OutputFormat
  | "text" => .ok .text
  | "json" => .ok .json
  | other => .error (.unknownFormat other)

namespace Command

def solverKind : String → Except CommandError SolverKind
  | "z3" => .ok .z3
  | "cvc5" => .ok .cvc5
  | other => .error (.unknownSolver other)

def status : String → Except CommandError (Option SolverStatus)
  | "sat" => .ok (some .sat)
  | "unsat" => .ok (some .unsat)
  | "unknown" => .ok (some .unknown)
  | "none" => .ok none
  | other => .error (.unknownAnswer other)

def kinds : String → Except CommandError (List QueryKind)
  | "pc" => .ok [.reachability]
  | "neq" => .ok [.neq]
  | "eq" => .ok [.eq]
  | "all" => .ok [.reachability, .neq, .eq]
  | other => .error (.unknownKind other)

private def readText (path : String) : CommandM String := do
  match (← get).disk.readText path with
  | .ok text => return text
  | .error _ => throw (.unreadable path)

private def parsed {α : Type} (path : String) : Option α → CommandM α
  | some value => return value
  | none => throw (.malformed path)

private def loadConfig : Option String → CommandM Config
  | none => return {}
  | some path => do
      match (← get).disk.readText path with
      | .error cause => throw (.unreadableConfig path cause)
      | .ok text => parsed path (Config.ofText? text)

private def document (json : Json) : String :=
  json.pretty ++ "\n"

end Command

def ClassifyCommand.run (command : ClassifyCommand) : Except CommandError String := do
  let format ← OutputFormat.ofText command.format
  let evidence : Evidence := {
    flags := {
      isError := command.error, isTimeout := command.timeout
      isDepthLimited := command.depthLimited }
    pc := ← Command.status command.pc
    neq := ← Command.status command.neq
    eq := ← Command.status command.eq
    callInCondition := command.callInCondition
    -- A call in the condition is a call in the inputs.
    callAnywhere := command.callAnywhere || command.callInCondition }
  match evidence.classify?, format with
  | none, _ => .error (.unclassified evidence)
  | some c, .text => return c.name ++ "\n"
  | some c, .json =>
      return Command.document (.obj [
        ("classification", .str c.name), ("definitive", .bool c.isDefinitive)])

def ExpectedCommand.run (command : ExpectedCommand) : Except CommandError String := do
  let format ← OutputFormat.ofText command.format
  let name ← (benchmarkName command.root command.directory).mapError CommandError.benchmark
  let result ← (expectedResult command.root command.directory).mapError CommandError.benchmark
  match format with
  | .text => return name ++ "\t" ++ result.name ++ "\n"
  | .json =>
      return Command.document (.obj [("benchmark", .str name), ("expected", .str result.name)])

namespace Command

private def queryText (queries : List Query) : String :=
  match queries with
  | [query] => query.text
  | _ =>
      String.intercalate "\n" (queries.map fun q =>
        ";; ---- " ++ q.kind.label ++ " query ----\n" ++ q.text)

end Command

def SynthesizeCommand.run (config : Option String) (command : SynthesizeCommand) :
    CommandM String := do
  let kinds ← Command.kinds command.kind
  let config ← Command.loadConfig config
  let known ← match command.known with
    | some path => Command.readText path
    | none => pure config.knownDeclarations
  let site ← Command.parsed command.site (Site.ofText? (← Command.readText command.site))
  let synthesizer : Synthesizer := { known := .parse known }
  let queries ←
    (synthesizer.synthesize site.condition site.old site.new).mapError CommandError.synthesis
  return Command.queryText (kinds.map queries.get)

namespace Command

-- Another kind of solver takes neither the program nor the arguments of the configured one.
def chosenSolver (command : ReplayCommand) (solver : SolverConfig) :
    Except CommandError SolverConfig :=
  match command.solver with
  | some text => do return { solver with kind := ← solverKind text, command := none, args := [] }
  | none => .ok solver

def override (command : ReplayCommand) (config : Config) : Except CommandError Config := do
  let solver ← chosenSolver command config.solver
  return { config with
    runId := command.runId.getD config.runId
    outputDir := command.outputDir.getD config.outputDir
    solver := { solver with timeoutSecs := command.timeoutSecs.getD solver.timeoutSecs } }

def host (solver : SolverConfig) : Host Workspace where
  write path contents w :=
    match w.disk.writeText path contents with
    | .ok disk => (.ok (), { w with disk })
    | .error cause => (.error cause.message, w)
  solve _ path w := solver.solve path w

private def replayEvents (config : Config) (events : List Event) (expected : Option Expected) :
    CommandM Report := do
  let w ← get
  match w.disk.createDirectories config.outputDir with
  | .error cause => throw (.engine (.artifact config.outputDir cause.message))
  | .ok disk => do
      let host := host config.solver
      let all : RunM Workspace (List Outcome × Summary) := do
        let outcomes ← Run.replay host config.setup events
        let summary ← Run.finish host config.setup
        return (outcomes, summary)
      let (result, run) := all.run { outside := { w with disk } }
      set run.outside
      match result with
      | .ok (outcomes, summary) => return { summary, records := run.records, outcomes, expected }
      | .error cause => throw (.engine cause)

end Command

def ReplayCommand.run (config : Option String) (command : ReplayCommand) : CommandM String := do
  let format ← OutputFormat.ofText command.format
  let config ← Command.override command (← Command.loadConfig config)
  let expected ← match command.benchmark with
    | some (directory, root) => do
        pure (some (← (expectedResult root directory).mapError CommandError.benchmark))
    | none => pure none
  let trace ← Command.parsed command.trace (Trace.ofText? (← Command.readText command.trace))
  let report ← Command.replayEvents config trace.events expected
  match format with
  | .text => return report.text
  | .json => return Command.document report.toJson

def Invocation.run (invocation : Invocation) : CommandM String :=
  match invocation.command with
  | .replay command => command.run invocation.config
  | .synthesize command => command.run invocation.config
  | .classify command => command.run
  | .expected command => command.run

structure Printed where
  exitCode : Nat
  output : String := ""
  error : Option CommandError := none

def versionText : String := "eqcheck 0.3.0\n"

def helpText : String :=
  String.join [
    "Per-partition equivalence checking of program versions via SMT\n\n",
    "Usage: eqcheck [--config <CONFIG>] <COMMAND>\n\n",
    "Commands:\n",
    "  replay      Replay a recorded exploration trace and classify every partition\n",
    "  synthesize  Print the SMT-LIB queries for one comparison site\n",
    "  classify    Classify one partition from its solver answers and flags\n",
    "  expected    Look up the expected verdict of a benchmark directory\n",
    "  help        Print this message\n"]

/-- The program: from its arguments and a workspace to what it prints and the changed workspace. -/
def execute (arguments : List String) (w : Workspace) : Printed × Workspace :=
  match Invocation.ofArguments arguments with
  | .error .usage => ({ exitCode := 2 }, w)
  | .error .help => ({ exitCode := 0, output := helpText }, w)
  | .error .version => ({ exitCode := 0, output := versionText }, w)
  | .ok invocation =>
      match invocation.run.run w with
      | (.ok output, w) => ({ exitCode := 0, output }, w)
      | (.error e, w) => ({ exitCode := 1, error := some e }, w)

end PathEquiv
