import PathEquiv.Command.Options

set_option autoImplicit false

namespace PathEquiv

structure ReplayCommand where
  trace : String
  runId : Option String := none
  outputDir : Option String := none
  solver : Option String := none
  timeoutSecs : Option Nat := none
  benchmark : Option (String × String) := none
  format : String := "text"
  deriving DecidableEq, Repr

structure SynthesizeCommand where
  site : String
  kind : String := "all"
  known : Option String := none
  deriving DecidableEq, Repr

structure ClassifyCommand where
  pc : String := "sat"
  neq : String := "none"
  eq : String := "none"
  callInCondition : Bool := false
  callAnywhere : Bool := false
  error : Bool := false
  timeout : Bool := false
  depthLimited : Bool := false
  format : String := "text"
  deriving DecidableEq, Repr

structure ExpectedCommand where
  directory : String
  root : String
  format : String := "text"
  deriving DecidableEq, Repr

inductive Command where
  | replay (command : ReplayCommand)
  | synthesize (command : SynthesizeCommand)
  | classify (command : ClassifyCommand)
  | expected (command : ExpectedCommand)
  deriving DecidableEq, Repr

structure Invocation where
  config : Option String
  command : Command
  deriving DecidableEq, Repr

namespace Command

def configOption : String × OptionKind := ("config", .path)

def replayUsage : Usage where
  options := [("run-id", .text), ("output-dir", .path), ("solver", .text), ("timeout", .number),
    ("benchmark", .path), ("bench-root", .path), ("format", .text), configOption]
  operands := ["trace"]

def synthesizeUsage : Usage where
  options := [("kind", .text), ("known", .path), configOption]
  operands := ["site"]

def classifyUsage : Usage where
  options := [("pc", .text), ("neq", .text), ("eq", .text), ("uif-pc", .flag), ("uif-any", .flag),
    ("error", .flag), ("timeout", .flag), ("depth-limited", .flag), ("format", .text), configOption]

def expectedUsage : Usage where
  options := [("root", .path), ("format", .text), configOption]
  operands := ["dir"]

def required {α : Type} : Option α → Except Refusal α
  | some value => .ok value
  | none => .error .usage

def benchmarkOf (g : Given) : Except Refusal (Option (String × String)) :=
  match g.value? "benchmark", g.value? "bench-root" with
  | some directory, some root => .ok (some (directory, root))
  | some _, none => .error .usage
  | none, _ => .ok none

def replayOf (g : Given) : Except Refusal Command := do
  let benchmark ← benchmarkOf g
  return .replay {
    trace := ← required (g.operand? 0)
    runId := g.value? "run-id"
    outputDir := g.value? "output-dir"
    solver := g.value? "solver"
    timeoutSecs := (g.value? "timeout").bind fun n => Text.unsignedBelow? (Nat.pow 2 64) n.toList
    benchmark
    format := (g.value? "format").getD "text" }

def synthesizeOf (g : Given) : Except Refusal Command := do
  return .synthesize {
    site := ← required (g.operand? 0)
    kind := (g.value? "kind").getD "all"
    known := g.value? "known" }

def classifyOf (g : Given) : Except Refusal Command := do
  let decided := g.has "error" || g.has "timeout" || g.has "depth-limited"
  let answer (name : String) : Except Refusal String :=
    match g.value? name with
    | some value => .ok value
    | none => if decided then .ok "none" else .error .usage
  return .classify {
    pc := (g.value? "pc").getD "sat"
    neq := ← answer "neq"
    eq := ← answer "eq"
    callInCondition := g.has "uif-pc"
    callAnywhere := g.has "uif-any"
    error := g.has "error"
    timeout := g.has "timeout"
    depthLimited := g.has "depth-limited"
    format := (g.value? "format").getD "text" }

def expectedOf (g : Given) : Except Refusal Command := do
  return .expected {
    directory := ← required (g.operand? 0)
    root := ← required (g.value? "root")
    format := (g.value? "format").getD "text" }

def named? : String → Option (Usage × (Given → Except Refusal Command))
  | "replay" => some (replayUsage, replayOf)
  | "synthesize" => some (synthesizeUsage, synthesizeOf)
  | "classify" => some (classifyUsage, classifyOf)
  | "expected" => some (expectedUsage, expectedOf)
  | _ => none

def helpOn : List String → Refusal
  | [] | ["help"] => .help
  | [name] => if (named? name).isSome then .help else .usage
  | _ => .usage

def isVersion : Argument → Bool
  | .long "version" none => true
  | .short ('V' :: _) => true
  | _ => false

def readNamed (config : Option String) (name : String) (rest : List String) :
    Except Refusal Invocation :=
  if name = "help" then .error (helpOn rest)
  else
    match named? name with
    | none => .error .usage
    | some (usage, make) => do
        let g ← usage.read {} rest
        return { config := (g.value? "config").or config, command := ← make g }

def readTop (config : Option String) : List String → Except Refusal Invocation
  | [] => .error .usage
  | argument :: rest =>
      match Argument.ofText argument, rest with
      | .operand name, rest => readNamed config name rest
      | .long "config" (some path), rest =>
          if config.isSome || path.isEmpty then .error .usage else readTop (some path) rest
      | .long "config" none, path :: rest =>
          match Argument.ofText path with
          | .operand path =>
              if config.isSome || path.isEmpty then .error .usage else readTop (some path) rest
          | _ => .error .usage
      | .long "help" none, _ | .short ('h' :: _), _ => .error .help
      | other, _ => .error (if isVersion other then .version else .usage)

end Command

def Invocation.ofArguments (arguments : List String) : Except Command.Refusal Invocation :=
  Command.readTop none arguments

end PathEquiv
