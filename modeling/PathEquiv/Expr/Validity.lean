import PathEquiv.Expr.Basic
import PathEquiv.Text.Search

set_option autoImplicit false

namespace PathEquiv

inductive SymbolRole where
  | variableName
  | functionName
  deriving DecidableEq, Repr

def SymbolRole.text : SymbolRole → String
  | .variableName => "variable"
  | .functionName => "function"

inductive StructuralError where
  | arity (op : Opcode) (found : Nat)
  | emptySymbol (role : SymbolRole)
  | invalidSymbol (name : String)
  | invalidLiteral (value : String) (sort : SmtSort)
  deriving DecidableEq, Repr

def StructuralError.message : StructuralError → String
  | .arity op found =>
      "operator `" ++ op.symbol ++ "` expects " ++ op.arity.text ++ " operands, found " ++
        Text.natText found
  | .emptySymbol role => "empty " ++ role.text ++ " name"
  | .invalidSymbol name =>
      "symbol `" ++ name ++
        "` contains characters that cannot appear in an SMT-LIB simple symbol"
  | .invalidLiteral value sort =>
      "literal `" ++ value ++ "` is not a valid " ++ sort.smtlib ++ " constant"

def isSymbolChar (c : Char) : Bool :=
  c.isAlphanum || "~!@$%^&*_-+=<>.?/".toList.contains c

def isSimpleSymbol (cs : List Char) : Bool :=
  match cs with
  | [] => false
  | c :: _ => cs.all isSymbolChar && !Text.isDecimalDigit c

def checkSymbol (role : SymbolRole) (name : String) : Except StructuralError Unit :=
  if name.toList.isEmpty then .error (.emptySymbol role)
  else if isSimpleSymbol name.toList then .ok ()
  else .error (.invalidSymbol name)

def magnitude : List Char → List Char
  | '-' :: rest => rest
  | cs => cs

/-- Whether a text spells a constant of a sort. Numbers may have one minus sign; a real may have a
point, with digits on both sides of it. -/
def SmtSort.spells (sort : SmtSort) (value : String) : Bool :=
  match sort with
  | .integer => Text.isDigits (magnitude value.toList)
  | .real =>
      let (whole, fraction) := Text.splitFirst '.' (magnitude value.toList)
      Text.isDigits whole && Text.isDigits (fraction.getD ['0'])
  | .boolean => value == "true" || value == "false"
  | .string => true

namespace Expr

mutual

/-- Checks arities, symbols and literals, each node before its operands and those from left to
right. -/
def check : Expr → Except StructuralError Unit
  | .literal value sort =>
      if sort.spells value then .ok () else .error (.invalidLiteral value sort)
  | .var name _ => checkSymbol .variableName name
  | .op opcode operands =>
      if opcode.arity.accepts operands.length then checkAll operands
      else .error (.arity opcode operands.length)
  | .call function _ operands =>
      match checkSymbol .functionName function with
      | .ok _ => checkAll operands
      | .error e => .error e

def checkAll : List Expr → Except StructuralError Unit
  | [] => .ok ()
  | e :: es =>
      match check e with
      | .ok _ => checkAll es
      | .error e => .error e

end

def Valid (e : Expr) : Prop :=
  e.check = .ok ()

end Expr

def checkCondition : Option Expr → Except StructuralError Unit
  | none => .ok ()
  | some e => e.check

end PathEquiv
