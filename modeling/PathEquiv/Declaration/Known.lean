import PathEquiv.Text.Blank
import PathEquiv.Text.Order
import PathEquiv.Text.Search

set_option autoImplicit false

namespace PathEquiv

def introducers : List (List Char) :=
  ["declare-fun".toList, "declare-const".toList, "define-fun".toList]

def isNameChar (c : Char) : Bool :=
  !Text.isBlank c && c != '(' && c != ')'

def nameAfter? (rest : List Char) : Option (List Char) :=
  let name := (Text.trimStart rest).takeWhile isNameChar
  if (rest.takeWhile Text.isBlank).isEmpty || name.isEmpty then none else some name

def introducedHere? (cs : List Char) : Option (List Char) :=
  introducers.findSome? fun command => (Text.after? command cs).bind nameAfter?

-- No parenthesis opens between a command and its symbol, so nothing has to be skipped.
def introducedIn : List Char → List (List Char)
  | [] => []
  | c :: rest =>
      match if c = '(' then introducedHere? rest else none with
      | some name => name :: introducedIn rest
      | none => introducedIn rest

def introducedSymbols (text : String) : List String :=
  (introducedIn text.toList).map String.ofList

def introducedSymbol? (text : String) : Option String :=
  (introducedSymbols text).head?

structure KnownDeclarations where
  text : String := ""
  symbols : List String := []
  deriving DecidableEq, Repr, Inhabited

namespace KnownDeclarations

def empty : KnownDeclarations := {}

def parse (text : String) : KnownDeclarations :=
  { text := Text.trimmed text
    symbols := Text.distinctSorted (introducedSymbols text) }

def contains (known : KnownDeclarations) (symbol : String) : Bool :=
  known.symbols.contains symbol

end KnownDeclarations

end PathEquiv
