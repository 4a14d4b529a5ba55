import PathEquiv.Shell.Token

set_option autoImplicit false

namespace PathEquiv.Shell

structure Unread where
  tokens : List Token
  bodies : List Word

abbrev ReadM := StateT Unread (Except ScriptError)

namespace Reading

private def peek : ReadM (Option Token) := do
  return (← get).tokens.head?

private def advance : ReadM Unit :=
  modify fun u => { u with tokens := u.tokens.tail }

private def reserved : List String :=
  ["if", "then", "elif", "else", "fi", "while", "until", "do", "done", "for", "in", "case", "esac",
    "!", "\x7b", "\x7d"]

private def plainWord? : Token → Option String
  | .word pieces _ => (plainText? pieces).map String.ofList
  | _ => none

private def keyword? (token : Token) : Option String :=
  match token with
  | .operator text _ => some text
  | _ => (plainWord? token).filter reserved.contains

private def peekKeyword? : ReadM (Option String) := do
  return (← peek).bind keyword?

private def redirectKind? : String → Option (RedirectKind × Nat)
  | "<" | "<>" => some (.input, 0)
  | ">" | ">|" => some (.output, 1)
  | ">>" => some (.append, 1)
  | "<&" => some (.share, 0)
  | ">&" => some (.share, 1)
  | "<<" | "<<-" => some (.here, 0)
  | _ => none

private def describe : Option Token → String
  | none => "end of file"
  | some token =>
      match token with
      | .operator "\n" _ => "newline"
      | .operator text _ =>
          if (redirectKind? text).isSome then "redirection" else "\"" ++ text ++ "\""
      | .descriptor .. => "redirection"
      | _ =>
          match keyword? token with
          | some text => "\"" ++ text ++ "\""
          | none => "word"

private def failAt {α : Type} (token : Option Token) (message : String) : ReadM α := do
  let line := match token with
    | some token => token.line
    | none => 1
  throw { line, message }

private def unexpected {α : Type} (wanted : Option String) : ReadM α := do
  let token ← peek
  match token with
  | some (.fault message _) => failAt token message
  | _ =>
      let wanted := match wanted with
        | some text => " (expecting \"" ++ text ++ "\")"
        | none => ""
      failAt token (describe token ++ " unexpected" ++ wanted)

private def accept (text : String) : ReadM Bool := do
  if (← peekKeyword?) = some text then
    advance
    return true
  else return false

private def expect (text : String) : ReadM Unit := do
  if !(← accept text) then unexpected (some text)

private def skipLines : (fuel : Nat) → ReadM Unit
  | 0 => return
  | fuel + 1 => do
      if ← accept "\n" then skipLines fuel

private def takeBody : ReadM Word := do
  let u ← get
  match u.bodies with
  | [] => return []
  | body :: bodies =>
      set { u with bodies }
      return body

private def takeWord (wanted : Option String) : ReadM Word := do
  match ← peek with
  | some (.word pieces _) =>
      advance
      return pieces
  | _ => unexpected wanted

private def redirect? : ReadM (Option Redirect) := do
  let token ← peek
  let (number, operator) ← match token with
    | some (.descriptor number _) => do
        advance
        pure (some number, ← peekKeyword?)
    | _ => pure (none, token.bind keyword?)
  match operator.bind redirectKind? with
  | none => if number.isSome then unexpected none else return none
  | some (kind, standard) =>
      advance
      let target ← takeWord none
      let target ← if kind = .here then takeBody else pure target
      return some { descriptor := number.getD standard, kind, target }

private def redirects : (fuel : Nat) → ReadM (List Redirect)
  | 0 => return []
  | fuel + 1 => do
      match ← redirect? with
      | none => return []
      | some r => return r :: (← redirects fuel)

private def assignment? : Word → Option (String × Word)
  | .text chars false :: pieces =>
      let name := chars.takeWhile Token.isNameChar
      match name, chars.drop name.length with
      | c :: _, '=' :: value =>
          if Token.isNameStart c then
            some (String.ofList name,
              if value.isEmpty then pieces else .text value false :: pieces)
          else none
      | _, _ => none
  | _ => none

private structure Parts where
  assignments : List (String × Word) := []
  words : List Word := []
  redirects : List Redirect := []

private def simpleParts : (fuel : Nat) → Parts → ReadM Parts
  | 0, parts => return parts
  | fuel + 1, parts => do
      match ← redirect? with
      | some r => simpleParts fuel { parts with redirects := r :: parts.redirects }
      | none =>
          match ← peek with
          | some (.word pieces _) => do
              advance
              match parts.words.isEmpty, assignment? pieces with
              | true, some a =>
                  simpleParts fuel { parts with assignments := a :: parts.assignments }
              | _, _ => simpleParts fuel { parts with words := pieces :: parts.words }
          | some (.fault ..) => unexpected none
          | _ => return parts

private def words : (fuel : Nat) → ReadM (List Word)
  | 0 => return []
  | fuel + 1 => do
      match ← peek with
      | some (.word pieces _) => do
          advance
          return pieces :: (← words fuel)
      | _ => return []

private def sequenceOf : List Command → Command
  | [command] => command
  | commands => .sequence commands

mutual

def commands (fuel : Nat) (lines : Bool) : ReadM (List Command) :=
  match fuel with
  | 0 => unexpected none
  | fuel + 1 => do
    if lines then skipLines (← get).tokens.length
    let next ← peekKeyword?
    let atEnd := (← peek).isNone ||
      (next.any fun text =>
        ["then", "elif", "else", "fi", "do", "done", "esac", "\x7d", ")", ";;", "\n"].contains text)
    if atEnd then return []
    let command ← chain fuel
    match ← peekKeyword? with
    | some ";" => do
        advance
        return command :: (← commands fuel lines)
    | some "&" => do
        advance
        return .background command :: (← commands fuel lines)
    | some "\n" => if lines then return command :: (← commands fuel lines) else return [command]
    | _ => return [command]

def body (fuel : Nat) : ReadM Command :=
  match fuel with
  | 0 => unexpected none
  | fuel + 1 => do
    match ← commands fuel true with
    | [] => unexpected none
    | found => return sequenceOf found

def chain (fuel : Nat) : ReadM Command :=
  match fuel with
  | 0 => unexpected none
  | fuel + 1 => do
    chainAfter fuel (← pipeline fuel)

def chainAfter (fuel : Nat) (left : Command) : ReadM Command :=
  match fuel with
  | 0 => unexpected none
  | fuel + 1 => do
    if ← accept "&&" then
      skipLines (← get).tokens.length
      chainAfter fuel (.both left (← pipeline fuel))
    else if ← accept "||" then
      skipLines (← get).tokens.length
      chainAfter fuel (.either left (← pipeline fuel))
    else return left

def pipeline (fuel : Nat) : ReadM Command :=
  match fuel with
  | 0 => unexpected none
  | fuel + 1 => do
    if ← accept "!" then return .negation (← pipeline fuel)
    let first ← command fuel
    match ← stages fuel with
    | [] => return first
    | others => return .pipeline (first :: others)

def stages (fuel : Nat) : ReadM (List Command) :=
  match fuel with
  | 0 => unexpected none
  | fuel + 1 => do
    if ← accept "|" then
      skipLines (← get).tokens.length
      let next ← command fuel
      return next :: (← stages fuel)
    else return []

def command (fuel : Nat) : ReadM Command :=
  match fuel with
  | 0 => unexpected none
  | fuel + 1 => do
    let compound (read : ReadM Command) : ReadM Command := do
      advance
      let found ← read
      match ← redirects (← get).tokens.length with
      | [] => return found
      | rs => return .redirected found rs
    match ← peekKeyword? with
    | some "if" => compound (conditional fuel)
    | some "while" => compound (loop fuel false)
    | some "until" => compound (loop fuel true)
    | some "for" => compound (each fuel)
    | some "case" => compound (choice fuel)
    | some "\x7b" => compound do
        let found ← body fuel
        expect "\x7d"
        return found
    | some "(" => compound do
        let found ← body fuel
        expect ")"
        return .subshell found
    | some text =>
        if (redirectKind? text).isSome then simple fuel else unexpected none
    | none => simple fuel

def simple (fuel : Nat) : ReadM Command :=
  match fuel with
  | 0 => unexpected none
  | fuel + 1 => do
    let start ← peek
    let line := match start with
      | some token => token.line
      | none => 1
    let parts ← simpleParts (← get).tokens.length {}
    let isEmpty := parts.assignments.isEmpty && parts.words.isEmpty && parts.redirects.isEmpty
    if isEmpty then unexpected none
    match parts.words, ← peekKeyword? with
    | [name], some "(" => do
        advance
        expect ")"
        skipLines (← get).tokens.length
        let found ← command fuel
        match plainText? name with
        | some name => return .function (String.ofList name) found
        | none => failAt start "Bad function name"
    | _, _ =>
        return .simple line parts.assignments.reverse parts.words.reverse parts.redirects.reverse

def conditional (fuel : Nat) : ReadM Command :=
  match fuel with
  | 0 => unexpected none
  | fuel + 1 => do
    let condition ← body fuel
    expect "then"
    let yes ← body fuel
    if ← accept "elif" then return .conditional condition yes (some (← conditional fuel))
    else if ← accept "else" then
      let no ← body fuel
      expect "fi"
      return .conditional condition yes (some no)
    else
      expect "fi"
      return .conditional condition yes none

def doGroup (fuel : Nat) : ReadM Command :=
  match fuel with
  | 0 => unexpected none
  | fuel + 1 => do
    expect "do"
    let found ← body fuel
    expect "done"
    return found

def loop (fuel : Nat) (untilDone : Bool) : ReadM Command :=
  match fuel with
  | 0 => unexpected none
  | fuel + 1 => do
    let condition ← body fuel
    return .loop untilDone condition (← doGroup fuel)

def each (fuel : Nat) : ReadM Command :=
  match fuel with
  | 0 => unexpected none
  | fuel + 1 => do
    let start ← peek
    let some name := plainText? (← takeWord none) | failAt start "Bad for loop variable"
    skipLines (← get).tokens.length
    if ← accept "in" then
      let items ← words (← get).tokens.length
      if !(← accept ";") && !(← accept "\n") then unexpected none
      skipLines (← get).tokens.length
      return .each (String.ofList name) (some items) (← doGroup fuel)
    else
      let _ ← accept ";"
      skipLines (← get).tokens.length
      return .each (String.ofList name) none (← doGroup fuel)

def choice (fuel : Nat) : ReadM Command :=
  match fuel with
  | 0 => unexpected none
  | fuel + 1 => do
    let subject ← takeWord none
    skipLines (← get).tokens.length
    expect "in"
    return .choice subject (← arms fuel)

def arms (fuel : Nat) : ReadM (List (List Word × Command)) :=
  match fuel with
  | 0 => unexpected none
  | fuel + 1 => do
    skipLines (← get).tokens.length
    if ← accept "esac" then return []
    let _ ← accept "("
    let patterns ← alternatives fuel
    expect ")"
    let found ← commands fuel true
    let arm := (patterns, sequenceOf found)
    if ← accept ";;" then return arm :: (← arms fuel)
    skipLines (← get).tokens.length
    expect "esac"
    return [arm]

def alternatives (fuel : Nat) : ReadM (List Word) :=
  match fuel with
  | 0 => unexpected none
  | fuel + 1 => do
    let pattern ← takeWord none
    if ← accept "|" then return pattern :: (← alternatives fuel)
    else return [pattern]

end

private def scriptFrom : (fuel : Nat) → Unread → Script
  | 0, _ => { commands := [], fault := none }
  | fuel + 1, u =>
      match u.tokens with
      | [] => { commands := [], fault := none }
      | .operator "\n" _ :: tokens => scriptFrom fuel { u with tokens }
      | _ =>
          let depth := 8 * u.tokens.length + 16
          let line : ReadM Command := do
            let found ← commands depth false
            match ← peek with
            | none => pure ()
            | some (.operator "\n" _) => pure ()
            | some _ => unexpected none
            return sequenceOf found
          match line.run u with
          | .error fault => { commands := [], fault := some fault }
          | .ok (command, u) =>
              let rest := scriptFrom fuel u
              { rest with commands := command :: rest.commands }

end Reading

def Script.ofText (text : List Char) : Script :=
  let (tokens, bodies) := Token.ofText text
  Reading.scriptFrom (tokens.length + 1) { tokens, bodies }

end PathEquiv.Shell
