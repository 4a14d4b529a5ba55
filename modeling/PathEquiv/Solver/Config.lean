import PathEquiv.Json.Record
import PathEquiv.Text.Decimal
import PathEquiv.Text.Search

set_option autoImplicit false

namespace PathEquiv

inductive SolverKind where
  | z3
  | cvc5
  | custom
  deriving DecidableEq, Repr, Inhabited

namespace SolverKind

def name : SolverKind → String
  | z3 => "z3"
  | cvc5 => "cvc5"
  | custom => "custom"

def ofName? : String → Option SolverKind
  | "z3" => some z3
  | "cvc5" => some cvc5
  | "custom" => some custom
  | _ => none

def program : SolverKind → String
  | z3 => "z3"
  | cvc5 => "cvc5"
  | custom => ""

end SolverKind

/-- Placeholders for the path of the query and for the time limit in seconds and milliseconds. -/
def queryPlaceholder : String := "\x7bquery\x7d"
def secondsPlaceholder : String := "\x7btimeout_secs\x7d"
def millisPlaceholder : String := "\x7btimeout_ms\x7d"

def SolverKind.arguments : SolverKind → List String
  | .z3 => ["-smt2", queryPlaceholder, "-T:" ++ secondsPlaceholder]
  | .cvc5 =>
      ["--lang", "smt2", "--produce-models", "--tlimit=" ++ millisPlaceholder, queryPlaceholder]
  | .custom => [queryPlaceholder]

def budgetSeconds (seconds nanos : Nat) : Nat :=
  max 1 (seconds + (nanos + 999999999) / 1000000000)

structure SolverConfig where
  kind : SolverKind := .z3
  command : Option String := none
  args : List String := []
  timeoutSecs : Nat := 1
  graceMs : Nat := 2000
  deriving DecidableEq, Repr, Inhabited

namespace SolverConfig

def program (config : SolverConfig) : String :=
  config.command.getD config.kind.program

def template (config : SolverConfig) : List String :=
  if config.args.isEmpty then config.kind.arguments else config.args

def seconds (config : SolverConfig) : Nat :=
  budgetSeconds config.timeoutSecs 0

def fillIn (config : SolverConfig) (path argument : String) : String :=
  Text.replaced millisPlaceholder (Text.natText (config.seconds * 1000))
    (Text.replaced secondsPlaceholder (Text.natText config.seconds)
      (Text.replaced queryPlaceholder path argument))

def arguments (config : SolverConfig) (path : String) : List String :=
  config.template.map (config.fillIn path)

def deadlineMs (config : SolverConfig) : Nat :=
  config.timeoutSecs * 1000 + config.graceMs

def commandJson : Option String → Json
  | none => .null
  | some command => .str command

def fields (config : SolverConfig) : List (String × Json) := [
  ("kind", .str config.kind.name),
  ("command", commandJson config.command),
  ("args", .arr (config.args.map .str)),
  ("timeout_secs", .int config.timeoutSecs),
  ("grace_ms", .int config.graceMs)]

def toJson (config : SolverConfig) : Json :=
  .obj config.fields

def kind? (document : Json) : Option SolverKind :=
  (Json.constant? .outer document).bind SolverKind.ofName?

def ofJson? (document : Json) : Option SolverConfig := do
  let names := ["kind", "command", "args", "timeout_secs", "grace_ms"]
  let [kind, command, args, timeoutSecs, graceMs] ← document.record? names .refused | none
  let standard : SolverConfig := {}
  return {
    kind := ← Json.withDefault? standard.kind kind? kind
    command := ← Json.withDefault? standard.command (Json.nullable? Json.str?) command
    args := ← Json.withDefault? standard.args (Json.list? Json.str?) args
    timeoutSecs := ← Json.withDefault? standard.timeoutSecs Json.nat? timeoutSecs
    graceMs := ← Json.withDefault? standard.graceMs Json.nat? graceMs }

end SolverConfig

end PathEquiv
