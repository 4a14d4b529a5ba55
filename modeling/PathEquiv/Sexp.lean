import PathEquiv.Text.Blank

set_option autoImplicit false

/-!
# S-expressions

A tolerant reader of S-expressions and their rendering on one line. The reader never fails: a
closing parenthesis too many is passed over, and lists that are still open at the end are dropped.
-/

namespace PathEquiv

inductive Sexp where
  | atom (text : String)
  | list (items : List Sexp)
  deriving Inhabited, BEq, Repr

namespace Sexp

mutual

def render : Sexp → String
  | .atom text => text
  | .list items => "(" ++ String.intercalate " " (renderAll items) ++ ")"

def renderAll : List Sexp → List String
  | [] => []
  | item :: items => render item :: renderAll items

end

structure Reader where
  items : List Sexp := []
  outer : List (List Sexp) := []
  atom : List Char := []
  inString : Bool := false
  deriving Inhabited

namespace Reader

def flush (r : Reader) : Reader :=
  match r.atom with
  | [] => r
  | cs => { r with items := .atom (String.ofList cs.reverse) :: r.items, atom := [] }

def openList (r : Reader) : Reader :=
  { r with items := [], outer := r.items :: r.outer }

def closeList (r : Reader) : Reader :=
  match r.outer with
  | [] => r
  | before :: outer => { r with items := .list r.items.reverse :: before, outer }

def step (r : Reader) (c : Char) : Reader :=
  if r.inString then { r with atom := c :: r.atom, inString := c ≠ '"' }
  else if c = '"' then { r with atom := c :: r.atom, inString := true }
  else if c = '(' then r.flush.openList
  else if c = ')' then r.flush.closeList
  else if Text.isBlank c then r.flush
  else { r with atom := c :: r.atom }

def finish (r : Reader) : List Sexp :=
  (r.flush.outer.getLast?.getD r.flush.items).reverse

end Reader

def readChars (cs : List Char) : List Sexp :=
  (cs.foldl Reader.step {}).finish

def readAll (text : String) : List Sexp :=
  readChars text.toList

end Sexp

end PathEquiv
