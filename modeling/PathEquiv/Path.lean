set_option autoImplicit false

namespace PathEquiv.Path

inductive Part where
  | root
  | here
  | up
  | name (text : String)
  deriving DecidableEq, Repr

def segments : List Char → List (List Char)
  | [] => [[]]
  | c :: rest =>
      if c = '/' then [] :: segments rest
      else
        match segments rest with
        | [] => [[c]]
        | segment :: others => (c :: segment) :: others

def inner? : List Char → Option Part
  | [] | ['.'] => none
  | ['.', '.'] => some .up
  | cs => some (.name (String.ofList cs))

def parts (path : String) : List Part :=
  match path.toList with
  | '/' :: rest => .root :: (segments rest).filterMap inner?
  | cs =>
      match segments cs with
      | ['.'] :: others => .here :: others.filterMap inner?
      | others => others.filterMap inner?

def below? : (base path : List Part) → Option (List Part)
  | [], path => some path
  | _ :: _, [] => none
  | b :: base, p :: path => if b = p then below? base path else none

def name? : Part → Option String
  | .name text => some text
  | _ => none

def names (path : List Part) : List String :=
  path.filterMap name?

def isAbsolute (path : String) : Bool :=
  path.toList.head? == some '/'

def join (directory path : String) : String :=
  if isAbsolute path || directory.isEmpty then path
  else if directory.toList.getLast? = some '/' then directory ++ path
  else directory ++ "/" ++ path

end PathEquiv.Path
