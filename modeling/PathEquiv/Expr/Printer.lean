import PathEquiv.Expr.Validity

set_option autoImplicit false

namespace PathEquiv

def callMarker : String := "UF_"

def callSymbol (function : String) : String :=
  if Text.hasStart callMarker function then function else callMarker ++ function

def signed (value : String) (magnitude : List Char → List Char) : String :=
  match value.toList with
  | '-' :: digits => "(- " ++ String.ofList (magnitude digits) ++ ")"
  | digits => String.ofList (magnitude digits)

def withPoint (digits : List Char) : List Char :=
  if digits.contains '.' then digits else digits ++ ['.', '0']

def doubleQuotes (cs : List Char) : List Char :=
  cs.flatMap fun c => if c = '"' then ['"', '"'] else [c]

/-- The text of a constant in a query. There are no negative numerals, so a minus sign becomes an
application, and a real always has a point. -/
def SmtSort.printLiteral (sort : SmtSort) (value : String) : String :=
  match sort with
  | .integer => signed value id
  | .real => signed value withPoint
  | .boolean => value
  | .string => "\"" ++ String.ofList (doubleQuotes value.toList) ++ "\""

def application (symbol : String) (operands : List String) : String :=
  "(" ++ symbol ++ " " ++ String.intercalate " " operands ++ ")"

def printOperator : Opcode → List String → String
  | .and, [] => "true"
  | .or, [] => "false"
  | .and, [operand] | .or, [operand] => operand
  | op, operands => application op.symbol operands

def printCall (function : String) : List String → String
  | [] => callSymbol function
  | operands => application (callSymbol function) operands

namespace Expr

mutual

/-- The expression in the notation of queries. Conjunctions and disjunctions of fewer than two
operands are simplified, and a call without arguments is its bare symbol. -/
def print : Expr → String
  | .literal value sort => sort.printLiteral value
  | .var name _ => name
  | .op opcode operands => printOperator opcode (printAll operands)
  | .call function _ operands => printCall function (printAll operands)

def printAll : List Expr → List String
  | [] => []
  | e :: es => print e :: printAll es

end

def smtlib (e : Expr) : Except StructuralError String :=
  match e.check with
  | .ok _ => .ok e.print
  | .error e => .error e

end Expr

def printCondition : Option Expr → String
  | none => "true"
  | some e => e.print

end PathEquiv
