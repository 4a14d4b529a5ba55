import PathEquiv.Text.Decimal

set_option autoImplicit false

namespace PathEquiv.Command

inductive OptionKind where
  | flag
  | text
  | path
  | number
  deriving DecidableEq, Repr

def OptionKind.accepts (value : String) : OptionKind → Bool
  | .flag => false
  | .text => true
  | .path => !value.isEmpty
  | .number => (Text.unsignedBelow? (Nat.pow 2 64) value.toList).isSome

structure Usage where
  options : List (String × OptionKind)
  operands : List String := []

structure Given where
  values : List (String × String) := []
  operands : List String := []
  deriving Repr

namespace Given

def value? (g : Given) (name : String) : Option String :=
  g.values.lookup name

def has (g : Given) (name : String) : Bool :=
  (g.value? name).isSome

def operand? (g : Given) (index : Nat) : Option String :=
  g.operands[index]?

end Given

inductive Refusal where
  | usage
  | help
  | version
  deriving DecidableEq, Repr

inductive Argument where
  | endOfOptions
  | long (name : String) (value : Option String)
  | short (letters : List Char)
  | operand (text : String)
  deriving DecidableEq, Repr

def Argument.ofText (text : String) : Argument :=
  match text.toList with
  | ['-', '-'] => .endOfOptions
  | '-' :: '-' :: rest =>
      let name := rest.takeWhile (· != '=')
      match rest.drop name.length with
      | '=' :: value => .long (String.ofList name) (some (String.ofList value))
      | _ => .long (String.ofList name) none
  | '-' :: c :: rest => .short (c :: rest)
  | _ => .operand text

namespace Usage

private def addValue (g : Given) (kind : OptionKind) (name value : String) :
    Except Refusal Given :=
  if g.has name || !kind.accepts value then .error .usage
  else .ok { g with values := (name, value) :: g.values }

private def addFlag (g : Given) (name : String) : Except Refusal Given :=
  if g.has name then .error .usage else .ok { g with values := (name, "") :: g.values }

private def addOperand (u : Usage) (g : Given) (text : String) : Except Refusal Given :=
  if g.operands.length < u.operands.length && OptionKind.path.accepts text then
    .ok { g with operands := g.operands ++ [text] }
  else .error .usage

private def addOperands (u : Usage) (g : Given) (texts : List String) : Except Refusal Given :=
  texts.foldlM (addOperand u) g

private def isHelp : Argument → Bool
  | .long "help" none => true
  | .short ('h' :: _) => true
  | _ => false

def read (u : Usage) (g : Given) : List String → Except Refusal Given
  | [] => .ok g
  | argument :: rest =>
      if isHelp (.ofText argument) then .error .help
      else
        match Argument.ofText argument, rest with
        | .endOfOptions, rest => addOperands u g rest
        | .operand text, rest => do read u (← addOperand u g text) rest
        | .short _, _ => .error .usage
        | .long name attached, rest =>
            match u.options.lookup name, attached, rest with
            | none, _, _ => .error .usage
            | some .flag, none, rest => do read u (← addFlag g name) rest
            | some .flag, some _, _ => .error .usage
            | some kind, some value, rest => do read u (← addValue g kind name value) rest
            | some _, none, [] => .error .usage
            | some kind, none, value :: rest =>
                match Argument.ofText value with
                | .operand value => do read u (← addValue g kind name value) rest
                | _ => .error .usage

end Usage

end PathEquiv.Command
