import PathEquiv.Json.Reader
import PathEquiv.Json.Record
import PathEquiv.Json.Writer
import PathEquiv.Expr.Validity

set_option autoImplicit false

namespace PathEquiv

inductive InterchangeError where
  | malformed
  | structural (cause : StructuralError)
  deriving DecidableEq, Repr

def InterchangeError.message : InterchangeError → String
  | .malformed => "malformed interchange document"
  | .structural cause => cause.message

namespace Expr

mutual

def toJson : Expr → Json
  | .literal value sort =>
      .obj [("kind", .str "literal"), ("value", .str value), ("sort", .str sort.name)]
  | .var name sort =>
      .obj [("kind", .str "variable"), ("name", .str name), ("sort", .str sort.name)]
  | .op opcode operands =>
      .obj [("kind", .str "operator"), ("op", .str opcode.name),
        ("operands", .arr (allToJson operands))]
  | .call function sort operands =>
      .obj [("kind", .str "uninterpreted_call"), ("function", .str function),
        ("sort", .str sort.name), ("operands", .arr (allToJson operands))]

def allToJson : List Expr → List Json
  | [] => []
  | e :: es => toJson e :: allToJson es

end

def sort? (document : Json) : Option SmtSort :=
  (Json.constant? .inner document).bind SmtSort.ofName?

def opcode? (document : Json) : Option Opcode :=
  (Json.constant? .inner document).bind Opcode.ofName?

def kinds : List String :=
  ["literal", "variable", "operator", "uninterpreted_call"]

-- Every level of an expression takes at least one level of its document.
def ofJsonUpTo : (depth : Nat) → Json.Place → Json → Option Expr
  | 0, _, _ => none
  | depth + 1, place, document => do
      let (kind, body) ← Json.tagged? place "kind" kinds document
      let operands := Json.list? (ofJsonUpTo depth .inner)
      match kind with
      | "literal" =>
          let [value, sort] ← body.record? ["value", "sort"] .ignored | none
          return .literal (← Json.required? Json.str? value) (← Json.required? sort? sort)
      | "variable" =>
          let [name, sort] ← body.record? ["name", "sort"] .ignored | none
          return .var (← Json.required? Json.str? name) (← Json.required? sort? sort)
      | "operator" =>
          let [opcode, args] ← body.record? ["op", "operands"] .ignored | none
          return .op (← Json.required? opcode? opcode) (← Json.required? operands args)
      | _ =>
          let [function, sort, args] ← body.record? ["function", "sort", "operands"] .ignored
            | none
          return .call (← Json.required? Json.str? function) (← Json.required? sort? sort)
            (← Json.required? operands args)

/-- Reads the document of an expression; other fields of a node are ignored. The expression need
not be valid. -/
def ofJson? (place : Json.Place) (document : Json) : Option Expr :=
  ofJsonUpTo document.depth place document

def toDocument (e : Expr) : Except InterchangeError Json :=
  match e.check with
  | .ok _ => .ok e.toJson.sortFields
  | .error cause => .error (.structural cause)

def ofDocument (document : Json) : Except InterchangeError Expr :=
  match ofJson? .outer document with
  | none => .error .malformed
  | some e =>
      match e.check with
      | .ok _ => .ok e
      | .error cause => .error (.structural cause)

end Expr

def conditionDocument (condition : Option Expr) : Except InterchangeError Json :=
  (condition.getD (Expr.bool true)).toDocument

def conditionText (condition : Option Expr) : Except InterchangeError String :=
  (conditionDocument condition).map Json.pretty

end PathEquiv
