import PathEquiv.Declaration.Convention
import PathEquiv.Declaration.Inference
import PathEquiv.Digest.Sha256

set_option autoImplicit false

namespace PathEquiv

inductive QueryKind where
  | reachability
  | neq
  | eq
  deriving DecidableEq, Repr, Inhabited

namespace QueryKind

def suffix : QueryKind → String
  | reachability => "-PC"
  | neq => ""
  | eq => "-EQ"

def asksModel : QueryKind → Bool
  | neq => true
  | reachability | eq => false

def label : QueryKind → String
  | reachability => "pc"
  | neq => "neq"
  | eq => "eq"

def all : List QueryKind := [reachability, neq, eq]

end QueryKind

structure Query where
  kind : QueryKind
  text : String
  declarations : List Declaration
  deriving DecidableEq, Repr, Inhabited

def Query.fingerprint (query : Query) : String :=
  Sha256.hexOfText query.text

structure QuerySet where
  reachability : Query
  neq : Query
  eq : Query
  deriving DecidableEq, Repr, Inhabited

def QuerySet.get (set : QuerySet) : QueryKind → Query
  | .reachability => set.reachability
  | .neq => set.neq
  | .eq => set.eq

inductive SynthesisError where
  | structural (cause : StructuralError)
  | conflict (cause : SignatureConflict)
  deriving DecidableEq, Repr

def SynthesisError.message : SynthesisError → String
  | .structural cause => cause.message
  | .conflict cause => cause.message

def defaultHelpers : List String :=
  ["(define-fun pow ((a Real) (b Real)) Real (^ a b))"]

structure Synthesizer where
  known : KnownDeclarations := {}
  helpers : List String := defaultHelpers
  deriving DecidableEq, Repr, Inhabited

namespace Synthesizer

def wanted (s : Synthesizer) (helper : String) : Bool :=
  match introducedSymbol? helper with
  | some symbol => !s.known.contains symbol
  | none => true

def header (s : Synthesizer) (declarations : List Declaration) : String :=
  let blocks := [
    s.known.text,
    String.intercalate "\n" (declarations.map Declaration.line),
    String.intercalate "\n" (s.helpers.filter s.wanted)]
  match blocks.filter (· ≠ "") with
  | [] => ""
  | blocks => String.intercalate "\n" blocks ++ "\n\n"

def preamble (s : Synthesizer) (declarations : List Declaration) (condition : String) :
    String :=
  s.header declarations ++ "; Path Condition:\n(assert " ++ condition ++ ")\n\n"

def reachabilityText (s : Synthesizer) (declarations : List Declaration) (condition : String) :
    String :=
  s.preamble declarations condition ++ "(check-sat)\n"

def queryText (s : Synthesizer) (declarations : List Declaration) (condition old new : String) :
    QueryKind → String
  | .reachability => s.reachabilityText declarations condition
  | .neq =>
      s.preamble declarations condition ++ "; Equivalence Check:\n(assert (not (= " ++ old ++ " " ++
        new ++ ")))\n\n(check-sat)\n(get-model)\n"
  | .eq =>
      s.preamble declarations condition ++ "; Equivalence Check:\n(assert (= " ++ old ++ " " ++
        new ++ "))\n\n(check-sat)\n"

def assemble (s : Synthesizer) (declarations : List Declaration)
    (condition old new : String) : QuerySet :=
  let query (kind : QueryKind) : Query :=
    { kind, text := s.queryText declarations condition old new kind, declarations }
  { reachability := query .reachability, neq := query .neq, eq := query .eq }

/-- The queries of a comparison. The path condition is checked first, then the old and the new
result; after that the symbols are declared in the same order. -/
def synthesize (s : Synthesizer) (condition : Option Expr) (old new : Expr) :
    Except SynthesisError QuerySet := do
  (checkCondition condition).mapError .structural
  old.check.mapError .structural
  new.check.mapError .structural
  let exprs := condition.toList ++ [old, new]
  let declarations ← (inferFromExprs s.known exprs).mapError .conflict
  return s.assemble declarations (printCondition condition) old.print new.print

def synthesizeText (s : Synthesizer) (condition old new : String) : QuerySet :=
  let declarations := inferFromText s.known (condition ++ "\n" ++ old ++ "\n" ++ new)
  s.assemble declarations condition old new

def reachability (s : Synthesizer) (condition : Option Expr) : Except SynthesisError Query := do
  (checkCondition condition).mapError .structural
  let declarations ← (inferFromExprs s.known condition.toList).mapError .conflict
  return {
    kind := .reachability
    text := s.reachabilityText declarations (printCondition condition)
    declarations }

end Synthesizer

end PathEquiv
