import PathEquiv.Shell.Machine
import PathEquiv.Shell.Pattern
import PathEquiv.Text.Blank

set_option autoImplicit false

namespace PathEquiv.Shell

inductive Part where
  | text (chars : List Char) (quoted : Bool)
  | loose (chars : List Char)
  | boundary

abbrev Field := List (Char × Bool)

namespace Expansion

private def standardBlanks : String := " \t\n"

private def blanks : ShellM (List Char) := do
  return ((← ShellM.valueOf? "IFS").getD standardBlanks).toList

def value? (name : String) : ShellM (Option String) := do
  let e ← ShellM.env
  match name with
  | "0" => return some e.name
  | "#" => return some (Text.natText e.arguments.length)
  | "?" => return some (Text.natText e.status)
  | "$" => return some (Text.natText e.process)
  | "!" => return some (if e.lastJob = 0 then "" else Text.natText e.lastJob)
  | "-" => return some (String.ofList e.flags)
  | "@" | "*" =>
      return if e.arguments.isEmpty then none else some (String.intercalate " " e.arguments)
  | _ =>
      match Text.natural? name.toList with
      | some n => return e.arguments[n - 1]?
      | none => ShellM.valueOf? name

private def fail {α : Type} (message : String) : ShellM α := do
  ShellM.complain message
  throw (.exit 2)

private def requiredValue (name : String) : ShellM String := do
  match ← value? name with
  | some value => return value
  | none =>
      if (← ShellM.env).flags.contains 'u' && name != "@" && name != "*" then
        fail (name ++ ": parameter not set")
      else return ""

private def ofValue (value : String) (quoted : Bool) : List Part :=
  if quoted then [.text value.toList true] else [.loose value.toList]

private def allArguments (quoted : Bool) : ShellM (List Part) := do
  let e ← ShellM.env
  return List.intersperse .boundary (e.arguments.flatMap fun argument => ofValue argument quoted)

private def joinedArguments : ShellM (List Part) := do
  let e ← ShellM.env
  let separator := match ← blanks with
    | c :: _ => String.ofList [c]
    | [] => ""
  return [.text (String.intercalate separator e.arguments).toList true]

def fieldOf : List Part → Field
  | [] => []
  | .text chars quoted :: parts => chars.map (fun c => (c, quoted)) ++ fieldOf parts
  | .loose chars :: parts => chars.map (fun c => (c, false)) ++ fieldOf parts
  | .boundary :: parts => (' ', true) :: fieldOf parts

def textOf (parts : List Part) : List Char :=
  (fieldOf parts).map (·.1)

private def loosened : Part → Part
  | .text chars false => .loose chars
  | part => part

-- The shortest or longest start of a value that a pattern stands for is removed.
private def stripFront (pattern : Pattern) (longest : Bool) (value : List Char) : List Char :=
  let cuts := List.range (value.length + 1)
  let cuts := if longest then cuts.reverse else cuts
  match cuts.find? fun n => pattern.accepts (value.take n) with
  | some n => value.drop n
  | none => value

private def stripBack (pattern : Pattern) (longest : Bool) (value : List Char) : List Char :=
  let cuts := List.range (value.length + 1)
  let cuts := if longest then cuts else cuts.reverse
  match cuts.find? fun n => pattern.accepts (value.drop n) with
  | some n => value.take n
  | none => value

private def outputText (bytes : Bytes) : String :=
  let trimmed := (bytes.reverse.dropWhile (· == 10)).reverse
  Text.decodeBytes (trimmed.filter (· != 0))

private def numberOf (bindings : List (String × Variable)) (name : String) : Option Int :=
  match (bindings.lookup name).map Variable.value with
  | none | some "" => some 0
  | some value =>
      match (Text.trim value.toList) with
      | '-' :: digits => (Arithmetic.number? digits).map fun n => -n
      | digits => Arithmetic.number? digits

mutual

def parts (output : List Char → ShellM Bytes) : List Piece → ShellM (List Part)
  | [] => return []
  | p :: pieces => do
      let front ← part output p
      return front ++ (← parts output pieces)

def part (output : List Char → ShellM Bytes) : Piece → ShellM (List Part)
  | .text chars quoted => return [.text chars quoted]
  | .parameter "@" quoted => allArguments quoted
  | .parameter "*" true => joinedArguments
  | .parameter "*" false => allArguments false
  | .parameter name quoted => do return ofValue (← requiredValue name) quoted
  | .length name quoted => do
      return ofValue (Text.natText (← requiredValue name).length) quoted
  | .fallback name rule orEmpty word quoted => do
      let value := (← value? name).filter fun value => !orEmpty || !value.isEmpty
      match value, rule with
      | some value, .use | some value, .assign | some value, .fail => return ofValue value quoted
      | none, .replace => return []
      | none, .use | some _, .replace =>
          return (← parts output word).map fun p => if quoted then p else loosened p
      | none, .assign => do
          let value := String.ofList (textOf (← parts output word))
          ShellM.setVariable name value
          return ofValue value quoted
      | none, .fail => do
          let message := String.ofList (textOf (← parts output word))
          let usual := if orEmpty then "parameter not set or null" else "parameter not set"
          fail (name ++ ": " ++ if message.isEmpty then usual else message)
  | .strip name side longest pattern quoted => do
      let value := (← requiredValue name).toList
      let pattern := Pattern.ofField (fieldOf (← parts output pattern))
      let kept := match side with
        | .front => stripFront pattern longest value
        | .back => stripBack pattern longest value
      return ofValue (String.ofList kept) quoted
  | .output script quoted => do return ofValue (outputText (← output script)) quoted
  | .arithmetic expression quoted => do
      let text := textOf (← parts output expression)
      match Arithmetic.eval (numberOf (← ShellM.env).bindings) text with
      | .ok (n, assigned) => do
          for (name, value) in assigned.reverse do ShellM.setVariable name (Text.intText value)
          return ofValue (Text.intText n) quoted
      | .error fault =>
          fail ("arithmetic expression: " ++ fault.message ++ ": \"" ++ String.ofList text ++ "\"")
  | .bad => fail "Bad substitution"

end

private structure Fields where
  finished : List Field := []
  current : Option Field := none

private def Fields.close (f : Fields) : Fields :=
  match f.current with
  | some field => { finished := field :: f.finished, current := none }
  | none => f

private def Fields.add (f : Fields) (chars : Field) : Fields :=
  { f with current := some (f.current.getD [] ++ chars) }

private def Fields.split (separators : List Char) (f : Fields) : List Char → Fields
  | [] => f
  | c :: cs =>
      if separators.contains c then
        let f := if standardBlanks.toList.contains c then f.close else (f.add []).close
        Fields.split separators f cs
      else Fields.split separators (f.add [(c, false)]) cs

private def Fields.addPart (separators : List Char) (f : Fields) : Part → Fields
  | .text [] false => f
  | .text chars quoted => f.add (chars.map fun c => (c, quoted))
  | .loose chars => f.split separators chars
  | .boundary => f.close

def fieldsOf (separators : List Char) (parts : List Part) : List Field :=
  (parts.foldl (Fields.addPart separators) {}).close.finished.reverse

private def isActive (field : Field) : Bool :=
  field.any fun (c, quoted) => !quoted && (c == '*' || c == '?' || c == '[')

private def plain (field : Field) : String :=
  String.ofList (field.map (·.1))

private def slashParts : Field → List Field
  | [] => [[]]
  | (c, quoted) :: rest =>
      if c = '/' then [] :: slashParts rest
      else
        match slashParts rest with
        | [] => [[(c, quoted)]]
        | first :: others => ((c, quoted) :: first) :: others

-- Each place is known by its names from the root on and by the text that leads to it.
private def matchesBelow (disk : Disk) (places : List (List String × String)) :
    List Field → List (List String × String)
  | [] => places
  | part :: rest =>
      let next := places.flatMap fun (names, text) =>
        let reached (name : String) := (names ++ [name], text ++ name)
        if isActive part then
          let pattern := Pattern.ofField part
          let shown := (disk.namesIn names).filter fun name =>
            pattern.accepts name.toList &&
              (name.toList.head? != some '.' || part.head? == some ('.', false))
          shown.map reached
        else if part.isEmpty then [(names, text)]
        else [reached (plain part)].filter fun (names, _) => (disk.find? names).isSome
      let next := if rest.isEmpty then next else next.map fun (names, text) => (names, text ++ "/")
      matchesBelow disk next rest

def fileNames (disk : Disk) (field : Field) : List String :=
  if !isActive field then [plain field]
  else
    let found := match slashParts field with
      | [] :: rest => matchesBelow disk [([], "/")] rest
      | all => matchesBelow disk [(disk.workingDirectory, "")] all
    if found.isEmpty then [plain field] else found.map (·.2)

private def isArgumentList : Word → Bool
  | [.text [] true, .parameter "@" true] => true
  | _ => false

def fields (output : List Char → ShellM Bytes) (word : Word) : ShellM (List String) := do
  if isArgumentList word then return (← ShellM.env).arguments
  let found := fieldsOf (← blanks) (← parts output word)
  if (← ShellM.env).flags.contains 'f' then return found.map plain
  let disk ← ShellM.disk
  return found.flatMap (fileNames disk)

def text (output : List Char → ShellM Bytes) (word : Word) : ShellM String := do
  return String.ofList (textOf (← parts output word))

def pattern (output : List Char → ShellM Bytes) (word : Word) : ShellM Pattern := do
  return Pattern.ofField (fieldOf (← parts output word))

end Expansion

end PathEquiv.Shell
