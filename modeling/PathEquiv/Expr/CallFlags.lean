import PathEquiv.Expr.Printer

set_option autoImplicit false

namespace PathEquiv

structure CallFlags where
  pc : Bool := false
  old : Bool := false
  new : Bool := false
  deriving DecidableEq, Repr, Inhabited

def textHasCall (text : String) : Bool :=
  Text.hasPart callMarker text

namespace CallFlags

def ofCondition (condition : Option Expr) : CallFlags :=
  { pc := condition.any Expr.hasCall }

def ofExprs (condition : Option Expr) (old new : Expr) : CallFlags :=
  { ofCondition condition with old := old.hasCall, new := new.hasCall }

def ofTexts (condition old new : String) : CallFlags :=
  { pc := textHasCall condition, old := textHasCall old, new := textHasCall new }

def any (flags : CallFlags) : Bool :=
  flags.pc || flags.old || flags.new

end CallFlags

end PathEquiv
