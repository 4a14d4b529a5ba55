set_option autoImplicit false

namespace PathEquiv.Shell

inductive Fallback where
  | use
  | assign
  | fail
  | replace
  deriving DecidableEq, Repr

inductive Side where
  | front
  | back
  deriving DecidableEq, Repr

inductive Piece where
  | text (chars : List Char) (quoted : Bool)
  | parameter (name : String) (quoted : Bool)
  | length (name : String) (quoted : Bool)
  | fallback (name : String) (rule : Fallback) (orEmpty : Bool) (word : List Piece) (quoted : Bool)
  | strip (name : String) (side : Side) (longest : Bool) (pattern : List Piece) (quoted : Bool)
  | output (script : List Char) (quoted : Bool)
  | arithmetic (expression : List Piece) (quoted : Bool)
  | bad
  deriving Repr, Inhabited

abbrev Word := List Piece

inductive RedirectKind where
  | input
  | output
  | append
  | share
  | here
  deriving DecidableEq, Repr, Inhabited

structure Redirect where
  descriptor : Nat
  kind : RedirectKind
  target : Word
  deriving Repr, Inhabited

inductive Command where
  | simple (line : Nat) (assignments : List (String × Word)) (words : List Word)
      (redirects : List Redirect)
  | pipeline (stages : List Command)
  | negation (command : Command)
  | both (left right : Command)
  | either (left right : Command)
  | sequence (commands : List Command)
  | background (command : Command)
  | redirected (command : Command) (redirects : List Redirect)
  | subshell (body : Command)
  | conditional (condition yes : Command) (no : Option Command)
  | loop (untilDone : Bool) (condition body : Command)
  | each (name : String) (words : Option (List Word)) (body : Command)
  | choice (subject : Word) (arms : List (List Word × Command))
  | function (name : String) (body : Command)
  deriving Inhabited

structure ScriptError where
  line : Nat
  message : String
  deriving DecidableEq, Repr

structure Script where
  commands : List Command
  fault : Option ScriptError

end PathEquiv.Shell
