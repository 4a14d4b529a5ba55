import PathEquiv.Expr.Basic

set_option autoImplicit false

namespace PathEquiv

structure Declaration where
  name : String
  arguments : List SmtSort
  sort : SmtSort
  deriving DecidableEq, Repr, Inhabited

namespace Declaration

def constant (name : String) (sort : SmtSort) : Declaration :=
  { name, arguments := [], sort }

def line (d : Declaration) : String :=
  "(declare-fun " ++ d.name ++ " (" ++
    String.intercalate " " (d.arguments.map SmtSort.smtlib) ++ ") " ++ d.sort.smtlib ++ ")"

end Declaration

end PathEquiv
