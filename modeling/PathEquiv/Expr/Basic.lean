import PathEquiv.Text.Decimal

set_option autoImplicit false

namespace PathEquiv

inductive SmtSort where
  | integer
  | real
  | boolean
  | string
  deriving DecidableEq, Repr, Inhabited

namespace SmtSort

def smtlib : SmtSort → String
  | integer => "Int"
  | real => "Real"
  | boolean => "Bool"
  | string => "String"

def name : SmtSort → String
  | integer => "integer"
  | real => "real"
  | boolean => "boolean"
  | string => "string"

def all : List SmtSort := [integer, real, boolean, string]

def ofName? (name : String) : Option SmtSort :=
  all.find? (·.name == name)

def rank : SmtSort → Nat
  | integer => 0
  | real => 1
  | boolean => 2
  | string => 3

end SmtSort

inductive Opcode where
  | add | sub | mul | div | intDiv | mod | neg | pow
  | eq | distinct | lt | le | gt | ge
  | and | or | not | implies | ite
  | concat | strLen
  deriving DecidableEq, Repr, Inhabited

inductive Arity where
  | exactly (count : Nat)
  | atLeast (count : Nat)
  deriving DecidableEq, Repr

namespace Arity

def accepts : Arity → Nat → Bool
  | exactly count, n => n == count
  | atLeast count, n => count ≤ n

def text : Arity → String
  | exactly count => "exactly " ++ Text.natText count
  | atLeast count => "at least " ++ Text.natText count

end Arity

namespace Opcode

def name : Opcode → String
  | add => "+"
  | sub => "-"
  | mul => "*"
  | div => "/"
  | intDiv => "div"
  | mod => "mod"
  | neg => "neg"
  | pow => "pow"
  | eq => "="
  | distinct => "distinct"
  | lt => "<"
  | le => "<="
  | gt => ">"
  | ge => ">="
  | and => "and"
  | or => "or"
  | not => "not"
  | implies => "=>"
  | ite => "ite"
  | concat => "str.++"
  | strLen => "str.len"

def symbol : Opcode → String
  | neg => "-"
  | op => op.name

def all : List Opcode :=
  [add, sub, mul, div, intDiv, mod, neg, pow, eq, distinct, lt, le, gt, ge, and, or, not, implies,
    ite, concat, strLen]

def ofName? (name : String) : Option Opcode :=
  all.find? (·.name == name)

def arity : Opcode → Arity
  | add | sub | mul | distinct | concat => .atLeast 2
  | div | intDiv | mod | pow | eq | lt | le | gt | ge | implies => .exactly 2
  | neg | not | strLen => .exactly 1
  | ite => .exactly 3
  | and | or => .atLeast 0

end Opcode

/-- A symbolic value. A literal holds the text of its constant; a call applies a function symbol
that has no definition. -/
inductive Expr where
  | literal (value : String) (sort : SmtSort)
  | var (name : String) (sort : SmtSort)
  | op (opcode : Opcode) (operands : List Expr)
  | call (function : String) (sort : SmtSort) (operands : List Expr)
  deriving Inhabited, BEq, Repr

namespace Expr

def intVar (name : String) : Expr := .var name .integer
def realVar (name : String) : Expr := .var name .real

def int (n : Int) : Expr := .literal (Text.intText n) .integer
def real (value : String) : Expr := .literal value .real
def bool (b : Bool) : Expr := .literal (if b then "true" else "false") .boolean
def string (value : String) : Expr := .literal value .string

def add (a b : Expr) : Expr := .op .add [a, b]
def sub (a b : Expr) : Expr := .op .sub [a, b]
def mul (a b : Expr) : Expr := .op .mul [a, b]
def div (a b : Expr) : Expr := .op .div [a, b]
def pow (a b : Expr) : Expr := .op .pow [a, b]
def neg (a : Expr) : Expr := .op .neg [a]
def eq (a b : Expr) : Expr := .op .eq [a, b]
def lt (a b : Expr) : Expr := .op .lt [a, b]
def le (a b : Expr) : Expr := .op .le [a, b]
def gt (a b : Expr) : Expr := .op .gt [a, b]
def ge (a b : Expr) : Expr := .op .ge [a, b]
def and (terms : List Expr) : Expr := .op .and terms
def or (terms : List Expr) : Expr := .op .or terms
def not (a : Expr) : Expr := .op .not [a]
def implies (a b : Expr) : Expr := .op .implies [a, b]
def ite (condition a b : Expr) : Expr := .op .ite [condition, a, b]

def operands : Expr → List Expr
  | .op _ operands | .call _ _ operands => operands
  | .literal _ _ | .var _ _ => []

/-- The sort of the value that an expression denotes. A choice has the sort of its second operand,
arithmetic that of its first; without that operand they are boolean and integer. -/
def sort : Expr → SmtSort
  | .literal _ sort | .var _ sort | .call _ sort _ => sort
  | .op .ite (_ :: branch :: _) => branch.sort
  | .op .ite _ => .boolean
  | .op .add (first :: _) | .op .sub (first :: _) | .op .mul (first :: _)
  | .op .neg (first :: _) => first.sort
  | .op .add [] | .op .sub [] | .op .mul [] | .op .neg [] => .integer
  | .op .div _ | .op .pow _ => .real
  | .op .intDiv _ | .op .mod _ | .op .strLen _ => .integer
  | .op .concat _ => .string
  | .op .eq _ | .op .distinct _ | .op .lt _ | .op .le _ | .op .gt _ | .op .ge _ | .op .and _
  | .op .or _ | .op .not _ | .op .implies _ => .boolean
termination_by structural e => e

mutual

def hasCall : Expr → Bool
  | .literal _ _ | .var _ _ => false
  | .op _ operands => anyHasCall operands
  | .call _ _ _ => true

def anyHasCall : List Expr → Bool
  | [] => false
  | e :: es => e.hasCall || anyHasCall es

end

end Expr

end PathEquiv
