import PathEquiv.Declaration.Basic
import PathEquiv.Declaration.Known
import PathEquiv.Expr.Printer

set_option autoImplicit false

namespace PathEquiv

structure SignatureConflict where
  first : Declaration
  second : Declaration
  deriving DecidableEq, Repr

def SignatureConflict.message (conflict : SignatureConflict) : String :=
  "symbol `" ++ conflict.second.name ++ "` is used with two signatures: `" ++
    conflict.first.line ++ "` and `" ++ conflict.second.line ++ "`"

def recordDeclaration (table : List Declaration) (d : Declaration) :
    Except SignatureConflict (List Declaration) :=
  match table.find? (·.name == d.name) with
  | none => .ok (d :: table)
  | some first => if first = d then .ok table else .error { first, second := d }

namespace Expr

def callDeclaration (function : String) (sort : SmtSort) (operands : List Expr) : Declaration :=
  { name := callSymbol function, arguments := operands.map Expr.sort, sort }

mutual

def collect (table : List Declaration) : Expr → Except SignatureConflict (List Declaration)
  | .literal _ _ => .ok table
  | .var name sort => recordDeclaration table (.constant name sort)
  | .op _ operands => collectAll table operands
  | .call function sort operands =>
      match recordDeclaration table (callDeclaration function sort operands) with
      | .ok table => collectAll table operands
      | .error e => .error e

def collectAll (table : List Declaration) :
    List Expr → Except SignatureConflict (List Declaration)
  | [] => .ok table
  | e :: es =>
      match collect table e with
      | .ok table => collectAll table es
      | .error e => .error e

end

end Expr

def isConstant (d : Declaration) : Bool :=
  d.arguments.isEmpty && !Text.hasStart callMarker d.name

def constantLe (a b : Declaration) : Bool :=
  a.sort.rank < b.sort.rank || (a.sort.rank == b.sort.rank && Text.shortlexLe a.name b.name)

def functionLe (a b : Declaration) : Bool :=
  Text.shortlexLe a.name b.name

/-- Declares the symbols of expressions that are not known: constants by sort, then functions, and
shorter names first. -/
def inferFromExprs (known : KnownDeclarations) (exprs : List Expr) :
    Except SignatureConflict (List Declaration) :=
  match Expr.collectAll [] exprs with
  | .error e => .error e
  | .ok table =>
      let free := table.filter fun d => !known.contains d.name
      .ok ((free.filter isConstant).mergeSort constantLe ++
        (free.filter (!isConstant ·)).mergeSort functionLe)

end PathEquiv
