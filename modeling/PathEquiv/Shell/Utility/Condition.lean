import PathEquiv.Shell.Regex
import PathEquiv.Shell.Utility
import PathEquiv.Text.Blank

set_option autoImplicit false

namespace PathEquiv.Shell.Utility

private inductive TestError where
  | notNumber (text : String)
  | unexpected (text : String)
  | missing

private abbrev Tested := Except TestError Bool

private def number (text : String) : Except TestError Int :=
  match Text.int64? (Text.trim text.toList) with
  | some n => .ok n
  | none => .error (.notNumber text)

private def fileTest? (disk : Disk) (path : String) : String → Option Bool
  | "-e" => some entry.isSome
  | "-f" => some (entry matches some (.file _))
  | "-d" => some (entry == some .directory)
  | "-s" => some (entry matches some (.file (_ :: _)) || entry == some .directory)
  | "-r" | "-w" => some entry.isSome
  | "-x" => some (entry == some .directory ||
      ((disk.resolve path).toOption.any fun names => disk.mayRun names))
  | _ => none
where
  entry : Option DiskEntry := (disk.resolve path).toOption.bind disk.find?

private def unary? (disk : Disk) (op argument : String) : Option Bool :=
  match op with
  | "-n" => some (!argument.isEmpty)
  | "-z" => some argument.isEmpty
  | "-t" => some false
  | _ => fileTest? disk argument op

private def binary? (left op right : String) : Option Tested :=
  let numbers (test : Int → Int → Bool) : Tested := do
    return test (← number left) (← number right)
  match op with
  | "=" | "==" => some (.ok (left == right))
  | "!=" => some (.ok (left != right))
  | "-eq" => some (numbers (· == ·))
  | "-ne" => some (numbers (· != ·))
  | "-lt" => some (numbers (decide <| · < ·))
  | "-le" => some (numbers (decide <| · ≤ ·))
  | "-gt" => some (numbers (decide <| · > ·))
  | "-ge" => some (numbers (decide <| · ≥ ·))
  | _ => none

mutual

private def anyOf (fuel : Nat) (disk : Disk) (args : List String) :
    Except TestError (Bool × List String) :=
  match fuel with
  | 0 => .error .missing
  | fuel + 1 => do
    let (left, rest) ← allOf fuel disk args
    match rest with
    | "-o" :: rest =>
        let (right, rest) ← anyOf fuel disk rest
        return (left || right, rest)
    | _ => return (left, rest)

private def allOf (fuel : Nat) (disk : Disk) (args : List String) :
    Except TestError (Bool × List String) :=
  match fuel with
  | 0 => .error .missing
  | fuel + 1 => do
    let (left, rest) ← oneOf fuel disk args
    match rest with
    | "-a" :: rest =>
        let (right, rest) ← allOf fuel disk rest
        return (left && right, rest)
    | _ => return (left, rest)

private def oneOf (fuel : Nat) (disk : Disk) (args : List String) :
    Except TestError (Bool × List String) :=
  match fuel with
  | 0 => .error .missing
  | fuel + 1 =>
    match args with
    | [] => .error .missing
    | left :: op :: right :: rest =>
        match binary? left op right with
        | some result => result.map fun b => (b, rest)
        | none => single fuel disk args
    | _ => single fuel disk args

private def single (fuel : Nat) (disk : Disk) (args : List String) :
    Except TestError (Bool × List String) :=
  match fuel with
  | 0 => .error .missing
  | fuel + 1 =>
    match args with
    | [] => .error .missing
    | [text] => .ok (!text.isEmpty, [])
    | "!" :: rest => (oneOf fuel disk rest).map fun (b, rest) => (!b, rest)
    | "(" :: rest => do
        let (b, rest) ← anyOf fuel disk rest
        match rest with
        | ")" :: rest => return (b, rest)
        | _ => .error .missing
    | op :: argument :: rest =>
        match unary? disk op argument with
        | some b => .ok (b, rest)
        | none => .ok (!op.isEmpty, argument :: rest)

end

private def evaluate (disk : Disk) (args : List String) : Tested :=
  if args.isEmpty then .ok false
  else do
    let (b, rest) ← anyOf (4 * args.length + 8) disk args
    match rest with
    | [] => return b
    | text :: _ => .error (.unexpected text)

private def TestError.message : TestError → String
  | .notNumber text => "Illegal number: " ++ text
  | .unexpected text => text ++ ": unexpected operator"
  | .missing => "argument expected"

private def testAs (name : String) (call : Call) (args : List String) : Done :=
  match evaluate call.disk args with
  | .ok true => {}
  | .ok false => { status := 1 }
  | .error e => Done.failing 2 (name ++ ": " ++ e.message)

def test : Utility := fun call => testAs "test" call call.arguments

def bracket : Utility := fun call =>
  match call.arguments.getLast? with
  | some "]" => testAs "[" call call.arguments.dropLast
  | _ => Done.failing 2 "[: missing ]"

private def isNull (text : String) : Bool := text.isEmpty || text == "0"

private def ofBool (b : Bool) : String := if b then "1" else "0"

private def exprLevels : List (List String) :=
  [["|"], ["&"], ["=", "!=", "<", "<=", ">", ">="], ["+", "-"], ["*", "/", "%"], [":"]]

private def compareTexts (op left right : String) : String :=
  let order : Ordering := match Text.int64? left.toList, Text.int64? right.toList with
    | some a, some b => compare a b
    | _, _ => compare left right
  ofBool (match op with
    | "=" => order == .eq
    | "!=" => order != .eq
    | "<" => order == .lt
    | "<=" => order != .gt
    | ">" => order == .gt
    | _ => order != .lt)

private def exprApply? (op left right : String) : Option String :=
  match op with
  | "|" => some (if !isNull left then left else if !isNull right then right else "0")
  | "&" => some (if !isNull left && !isNull right then left else "0")
  | ":" => do
      let r ← Regex.ofText? .basic right.toList
      let r : Regex := .seq .lineStart r
      match r.search false [] left.toList with
      | none => some (if right.toList.contains '(' then "" else "0")
      | some found =>
          if found.before.isEmpty then
            match found.groups.lookup 1 with
            | some group => some (String.ofList group)
            | none => some (Text.natText found.matched.length)
          else some "0"
  | "+" | "-" | "*" | "/" | "%" => do
      let a ← Text.int64? left.toList
      let b ← Text.int64? right.toList
      let n ← match op with
        | "+" => some (a + b)
        | "-" => some (a - b)
        | "*" => some (a * b)
        | "/" => if b = 0 then none else some (Int.tdiv a b)
        | _ => if b = 0 then none else some (Int.tmod a b)
      return Text.intText n
  | _ => some (compareTexts op left right)

mutual

private def exprAt (fuel : Nat) (levels : List (List String)) (args : List String) :
    Option (String × List String) :=
  match fuel with
  | 0 => none
  | fuel + 1 =>
    match levels with
    | [] =>
        match args with
        | "(" :: rest => do
            let (value, rest) ← exprAt fuel exprLevels rest
            match rest with
            | ")" :: rest => return (value, rest)
            | _ => none
        | "length" :: text :: rest => some (Text.natText text.length, rest)
        | text :: rest => some (text, rest)
        | [] => none
    | level :: others => do
        let (left, rest) ← exprAt fuel others args
        exprAfter fuel level others left rest

private def exprAfter (fuel : Nat) (level : List String) (others : List (List String))
    (left : String) (args : List String) : Option (String × List String) :=
  match fuel with
  | 0 => none
  | fuel + 1 =>
    match args with
    | op :: rest =>
        if level.contains op then do
          let (right, rest) ← exprAt fuel others rest
          exprAfter fuel level others (← exprApply? op left right) rest
        else some (left, args)
    | [] => some (left, [])

end

def expr : Utility := fun call =>
  match exprAt (16 * call.arguments.length + 16) exprLevels call.arguments with
  | some (value, []) =>
      { output := [(1, Text.encodeBytes (value ++ "\n"))], status := if isNull value then 1 else 0 }
  | _ => Done.failing 2 "expr: syntax error"

end PathEquiv.Shell.Utility
