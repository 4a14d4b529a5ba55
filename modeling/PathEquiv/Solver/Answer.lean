import PathEquiv.Json.Basic
import PathEquiv.Text.Blank
import PathEquiv.Text.Search

set_option autoImplicit false

namespace PathEquiv

inductive SolverStatus where
  | sat
  | unsat
  | unknown
  | error
  deriving DecidableEq, Repr, Inhabited

namespace SolverStatus

def token : SolverStatus → String
  | sat => "sat"
  | unsat => "unsat"
  | unknown => "unknown"
  | error => "error"

def label : SolverStatus → String
  | sat => "SAT"
  | unsat => "UNSAT"
  | unknown => "UNKNOWN"
  | error => "ERROR"

def ofChars (line : List Char) : SolverStatus :=
  let token := Text.trim line
  if Text.startsWith "(error".toList token then error
  else if token = "sat".toList then sat
  else if token = "unsat".toList then unsat
  else unknown

def ofLine (line : String) : SolverStatus :=
  ofChars line.toList

end SolverStatus

structure Statistics where
  elapsedMs : Nat := 0
  exitCode : Option Int := none
  killed : Bool := false
  deriving DecidableEq, Repr, Inhabited

def Statistics.toJson (s : Statistics) : Json :=
  .obj [
    ("elapsed_ms", .int s.elapsedMs),
    ("exit_code", match s.exitCode with | none => .null | some code => .int code),
    ("killed", .bool s.killed)]

structure Answer where
  status : SolverStatus
  model : Option String
  diagnostics : String
  statistics : Statistics
  deriving DecidableEq, Repr, Inhabited

namespace Answer

def joinLines (lines : List (List Char)) : List Char :=
  ['\n'].intercalate lines

/-- The model that follows the status line, without blanks at its end but with a last line feed. -/
def modelOf (lines : List (List Char)) : Option String :=
  let text := joinLines lines
  if text.all Text.isBlank then none else some (String.ofList (Text.trimEnd text ++ ['\n']))

/-- Reads the two output streams of a solver. A status line that reports an error is repeated at
the top of the diagnostics. -/
def ofOutput (stdout stderr : String) (statistics : Statistics) : Answer :=
  let lines := Text.lines stdout.toList
  let first := Text.trim (lines.headD [])
  let status := SolverStatus.ofChars first
  { status
    model := if status = .sat then modelOf lines.tail else none
    diagnostics := if status = .error then String.ofList first ++ "\n" ++ stderr else stderr
    statistics }

def unknown (diagnostics : String) (statistics : Statistics) : Answer :=
  { status := .unknown, model := none, diagnostics, statistics }

def toJson (answer : Answer) : Json :=
  .obj [
    ("status", .str answer.status.label),
    ("model", match answer.model with | none => .null | some text => .str text),
    ("diagnostics", .str answer.diagnostics),
    ("statistics", answer.statistics.toJson)]

end Answer

inductive SolverError where
  | launch (command source : String)
  | transfer (source : String)
  | capture (stream : String)
  deriving DecidableEq, Repr

def SolverError.message : SolverError → String
  | .launch command source => "failed to launch solver `" ++ command ++ "`: " ++ source
  | .transfer source => "solver I/O error: " ++ source
  | .capture stream => "failed to capture solver " ++ stream

end PathEquiv
