import PathEquiv.Partition.Flags
import PathEquiv.Solver.Answer

set_option autoImplicit false

namespace PathEquiv

inductive Classification where
  | missing
  | baseToolMissing
  | error
  | unreachable
  | timeout
  | depthLimited
  | unknown
  | maybeNeq
  | maybeEq
  | neq
  | eq
  deriving DecidableEq, Repr, Inhabited

namespace Classification

def all : List Classification :=
  [missing, baseToolMissing, error, unreachable, timeout, depthLimited, unknown, maybeNeq, maybeEq,
    neq, eq]

def rank (c : Classification) : Nat :=
  all.idxOf c

def name : Classification → String
  | missing => "MISSING"
  | baseToolMissing => "BASE_TOOL_MISSING"
  | error => "ERROR"
  | unreachable => "UNREACHABLE"
  | timeout => "TIMEOUT"
  | depthLimited => "DEPTH_LIMITED"
  | unknown => "UNKNOWN"
  | maybeNeq => "MAYBE_NEQ"
  | maybeEq => "MAYBE_EQ"
  | neq => "NEQ"
  | eq => "EQ"

def isDefinitive : Classification → Bool
  | eq | neq | unreachable => true
  | _ => false

private def foldCase (cs : List Char) : List Char :=
  cs.map Char.toLower

def ofName? (name : String) : Option Classification :=
  all.find? fun c => c.name = name

/-- Reads the name of a class. White space around it and the case of ASCII letters do not count. -/
def ofText? (text : String) : Option Classification :=
  let wanted := foldCase (Text.trim text.toList)
  all.find? fun c => foldCase c.name.toList = wanted

def unknownMessage (text : String) : String :=
  "unknown classification `" ++ text ++ "`"

end Classification

structure Evidence where
  missing : Bool := false
  baseToolMissing : Bool := false
  flags : Flags := {}
  pc : Option SolverStatus := none
  neq : Option SolverStatus := none
  eq : Option SolverStatus := none
  callInCondition : Bool := false
  callAnywhere : Bool := false
  deriving DecidableEq, Repr, Inhabited

namespace Evidence

private def boolText (b : Bool) : String :=
  if b then "true" else "false"

private def statusText : Option SolverStatus → String
  | none => "None"
  | some .sat => "Some(Sat)"
  | some .unsat => "Some(Unsat)"
  | some .unknown => "Some(Unknown)"
  | some .error => "Some(Error)"

private def recordText (name : String) (fields : List (String × String)) : String :=
  let shown := fields.map fun (key, value) => key ++ ": " ++ value
  name ++ " \x7b " ++ String.intercalate ", " shown ++ " \x7d"

def describe (e : Evidence) : String :=
  recordText "ClassifierInput" [
    ("missing", boolText e.missing),
    ("base_tool_missing", boolText e.baseToolMissing),
    ("flags", recordText "OperationalFlags" [
      ("is_error", boolText e.flags.isError),
      ("is_timeout", boolText e.flags.isTimeout),
      ("is_depth_limited", boolText e.flags.isDepthLimited)]),
    ("pc", statusText e.pc),
    ("neq", statusText e.neq),
    ("eq", statusText e.eq),
    ("has_uif_pc", boolText e.callInCondition),
    ("has_uif_any", boolText e.callAnywhere)]

/-- The class of a partition, if a rule applies.

Results that can differ and can agree may still agree in the concrete programs, and results that
agree on an approximate path may belong to a path that is not taken. -/
def classify? (e : Evidence) : Option Classification :=
  if e.missing then some .missing
  else if e.baseToolMissing then some .baseToolMissing
  else if e.flags.isError then some .error
  else if e.pc = some .unsat then some .unreachable
  else if e.flags.isTimeout then some .timeout
  else if e.flags.isDepthLimited then some .depthLimited
  else if e.pc = some .unknown ∨ e.neq = some .unknown ∨ e.eq = some .unknown then some .unknown
  else if e.neq = some .sat ∧ e.eq = some .sat then some .maybeNeq
  else if e.neq = some .unsat ∧ e.callInCondition then some .maybeEq
  else if (e.neq = some .sat ∧ !e.callAnywhere) ∨ e.eq = some .unsat then some .neq
  else if e.neq = some .unsat ∧ !e.callInCondition then some .eq
  else none

def unclassifiedMessage (e : Evidence) : String :=
  "unable to classify partition: " ++ e.describe

end Evidence

end PathEquiv
