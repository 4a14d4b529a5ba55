import PathEquiv.Shell.Script

set_option autoImplicit false

namespace PathEquiv.Shell

inductive Token where
  | word (pieces : Word) (line : Nat)
  | operator (text : String) (line : Nat)
  | descriptor (number : Nat) (line : Nat)
  | fault (message : String) (line : Nat)
  deriving Inhabited

def Token.line : Token → Nat
  | .word _ line | .operator _ line | .descriptor _ line | .fault _ line => line

def plainText? : Word → Option (List Char)
  | [] => some []
  | .text chars false :: pieces => (plainText? pieces).map (chars ++ ·)
  | _ => none

namespace Token

def isNameStart (c : Char) : Bool :=
  c.isAlpha || c == '_'

def isNameChar (c : Char) : Bool :=
  c.isAlphanum || c == '_'

private def isSeparator (c : Char) : Bool :=
  c == ' ' || c == '\t' || c == '\n' || c == ';' || c == '&' || c == '|' || c == '<' || c == '>' ||
    c == '(' || c == ')'

private def isSpecialParameter (c : Char) : Bool :=
  c.isDigit || c == '@' || c == '*' || c == '#' || c == '?' || c == '$' || c == '!' || c == '-'

inductive Ending where
  | separator
  | quote
  | brace (quoted : Bool)
  | parentheses
  | text
  deriving DecidableEq

def Ending.quoted : Ending → Bool
  | .separator => false
  | .brace quoted => quoted
  | .quote | .parentheses | .text => true

private def Ending.unfinished? : Ending → Option String
  | .separator | .text => none
  | .quote => some "Unterminated quoted string"
  | .brace _ => some "Missing '\x7d'"
  | .parentheses => some "Missing '))'"

private def consPiece : Piece → Word → Word
  | .text cs q, .text ds r :: pieces =>
      if q = r then .text (cs ++ ds) q :: pieces else .text cs q :: .text ds r :: pieces
  | piece, pieces => piece :: pieces

-- The text of a command substitution up to its closing parenthesis.
private def untilClosed : (depth : Nat) → (quote : Option Char) → List Char →
    Option (List Char × List Char)
  | _, _, [] => none
  | depth, none, '\\' :: c :: rest =>
      (untilClosed depth none rest).map fun (inside, rest) => ('\\' :: c :: inside, rest)
  | depth, some '"', '\\' :: c :: rest =>
      (untilClosed depth (some '"') rest).map fun (inside, rest) => ('\\' :: c :: inside, rest)
  | depth, quote, c :: rest =>
      let go (depth : Nat) (quote : Option Char) :=
        (untilClosed depth quote rest).map fun (inside, rest) => (c :: inside, rest)
      match quote with
      | some q => go depth (if c = q then none else quote)
      | none =>
          if c = '\'' || c = '"' then go depth (some c)
          else if c = '(' then go (depth + 1) none
          else if c = ')' then
            match depth with
            | 0 => some ([], rest)
            | depth + 1 => go depth none
          else go depth none

-- In backquotes, a backslash protects a backquote, a dollar sign and a backslash.
private def untilBackquote : List Char → Option (List Char × List Char)
  | [] => none
  | '`' :: rest => some ([], rest)
  | '\\' :: c :: rest =>
      (untilBackquote rest).map fun (inside, rest) =>
        (if c = '`' || c = '$' || c = '\\' then c :: inside else '\\' :: c :: inside, rest)
  | c :: rest => (untilBackquote rest).map fun (inside, rest) => (c :: inside, rest)

private def parameterName (cs : List Char) : List Char × List Char :=
  match cs with
  | c :: rest =>
      if isNameStart c then (cs.takeWhile isNameChar, cs.dropWhile isNameChar)
      else if c.isDigit then (cs.takeWhile Char.isDigit, cs.dropWhile Char.isDigit)
      else if isSpecialParameter c then ([c], rest)
      else ([], cs)
  | [] => ([], [])

private def fallbackRule? : Char → Option Fallback
  | '-' => some .use
  | '=' => some .assign
  | '?' => some .fail
  | '+' => some .replace
  | _ => none

mutual

def pieces (fuel : Nat) (ending : Ending) (depth : Nat) (cs : List Char) :
    Except String (Word × List Char) :=
  match fuel with
  | 0 => .error "Word too long"
  | fuel + 1 =>
    let quoted := ending.quoted
    let continueWith (piece : Piece) (rest : List Char) : Except String (Word × List Char) := do
      let (others, rest) ← pieces fuel ending depth rest
      return (consPiece piece others, rest)
    match cs with
    | [] =>
        match ending.unfinished? with
        | some message => .error message
        | none => .ok ([], [])
    | c :: rest =>
        if ending = .separator && isSeparator c then .ok ([], cs)
        else if ending = .quote && c = '"' then .ok ([], rest)
        else if ending matches .brace _ && c = '\x7d' then .ok ([], rest)
        else if ending = .parentheses && c = '(' then do
          let (others, rest) ← pieces fuel ending (depth + 1) rest
          return (consPiece (.text ['('] true) others, rest)
        else if ending = .parentheses && c = ')' then
          match depth, rest with
          | 0, ')' :: rest => .ok ([], rest)
          | 0, _ => .error "Missing '))'"
          | depth + 1, _ => do
              let (others, rest) ← pieces fuel ending depth rest
              return (consPiece (.text [')'] true) others, rest)
        else if c = '\\' then
          match rest with
          | [] => continueWith (.text ['\\'] true) []
          | '\n' :: rest => pieces fuel ending depth rest
          | d :: rest' =>
              let protects := d = '$' || d = '`' || d = '\\' || (d = '"' && ending ≠ .text)
              if quoted && !protects && !(ending matches .brace _ && d = '\x7d') then
                continueWith (.text ['\\'] true) rest
              else continueWith (.text [d] true) rest'
        else if c = '\'' && !quoted then
          match rest.dropWhile (· != '\'') with
          | [] => .error "Unterminated quoted string"
          | _ :: after => continueWith (.text (rest.takeWhile (· != '\'')) true) after
        else if c = '"' && (ending = .separator || ending matches .brace _) then do
          let (inside, rest) ← pieces fuel .quote 0 rest
          let (others, rest) ← pieces fuel ending depth rest
          return (.text [] true :: inside ++ others, rest)
        else if c = '`' then
          match untilBackquote rest with
          | none => .error "EOF in backquote substitution"
          | some (script, rest) => continueWith (.output script quoted) rest
        else if c = '$' then do
          let (piece, rest) ← expansion fuel quoted rest
          continueWith piece rest
        else continueWith (.text [c] quoted) rest

def expansion (fuel : Nat) (quoted : Bool) (cs : List Char) :
    Except String (Piece × List Char) :=
  match fuel with
  | 0 => .error "Word too long"
  | fuel + 1 =>
    match cs with
    | '(' :: '(' :: rest => do
        let (expression, rest) ← pieces fuel .parentheses 0 rest
        return (.arithmetic expression quoted, rest)
    | '(' :: rest =>
        match untilClosed 0 none rest with
        | none => .error "end of file unexpected (expecting \")\")"
        | some (script, rest) => .ok (.output script quoted, rest)
    | '\x7b' :: rest => braced fuel quoted rest
    | c :: rest =>
        if isNameStart c then
          let name := cs.takeWhile isNameChar
          .ok (.parameter (String.ofList name) quoted, cs.dropWhile isNameChar)
        else if isSpecialParameter c then .ok (.parameter (String.ofList [c]) quoted, rest)
        else .ok (.text ['$'] quoted, cs)
    | [] => .ok (.text ['$'] quoted, [])

def braced (fuel : Nat) (quoted : Bool) (cs : List Char) : Except String (Piece × List Char) :=
  match fuel with
  | 0 => .error "Word too long"
  | fuel + 1 => do
    let word (make : Word → Piece) (rest : List Char) : Except String (Piece × List Char) := do
      let (inside, rest) ← pieces fuel (.brace quoted) 0 rest
      return (make inside, rest)
    -- Quotes around the expansion do not quote its pattern.
    let strip (side : Side) (longest : Bool) (rest : List Char) :
        Except String (Piece × List Char) := do
      let (inside, rest) ← pieces fuel (.brace false) 0 rest
      return (.strip (String.ofList (parameterName cs).1) side longest inside quoted, rest)
    -- The fault shows only when the expansion is reached.
    let bad (rest : List Char) : Except String (Piece × List Char) := do
      let (_, rest) ← pieces fuel (.brace quoted) 0 rest
      return (.bad, rest)
    match cs with
    | '#' :: c :: rest =>
        if c ≠ '\x7d' then
          match parameterName (c :: rest) with
          | ([], rest) => bad rest
          | (name, '\x7d' :: rest) => .ok (.length (String.ofList name) quoted, rest)
          | (_, rest) => bad rest
        else .ok (.parameter "#" quoted, rest)
    | _ =>
        let (name, rest) := parameterName cs
        let name := String.ofList name
        if name.isEmpty then bad rest
        else
          match rest with
          | '\x7d' :: rest => .ok (.parameter name quoted, rest)
          | ':' :: c :: rest =>
              match fallbackRule? c with
              | some rule => word (fun inside => .fallback name rule true inside quoted) rest
              | none => bad rest
          | '#' :: '#' :: rest => strip .front true rest
          | '#' :: rest => strip .front false rest
          | '%' :: '%' :: rest => strip .back true rest
          | '%' :: rest => strip .back false rest
          | c :: rest =>
              match fallbackRule? c with
              | some rule => word (fun inside => .fallback name rule false inside quoted) rest
              | none => bad rest
          | [] => .error "Missing '\x7d'"

end

structure Pending where
  delimiter : List Char
  literal : Bool
  stripTabs : Bool

private def delimiterText : Word → List Char
  | [] => []
  | .text chars _ :: pieces => chars ++ delimiterText pieces
  | _ :: pieces => delimiterText pieces

private def isLiteral (word : Word) : Bool :=
  word.any fun
    | .text _ quoted => quoted
    | _ => false

-- The lines of a body up to its delimiter, and the text after it.
private def bodyLines (p : Pending) : (fuel : Nat) → List Char → List Char × List Char
  | 0, cs => ([], cs)
  | _, [] => ([], [])
  | fuel + 1, cs =>
      let line := cs.takeWhile (· != '\n')
      let after := cs.dropWhile (· != '\n')
      let line := if p.stripTabs then line.dropWhile (· == '\t') else line
      if line = p.delimiter then ([], after.drop 1)
      else
        match after with
        | [] => (line, [])
        | feed :: rest =>
            let (others, rest) := bodyLines p fuel rest
            (line ++ feed :: others, rest)

private def hereBodies : List Pending → List Char → List Word × List Char
  | [], cs => ([], cs)
  | p :: ps, cs =>
      let (body, rest) := bodyLines p cs.length cs
      let contents : Word :=
        if p.literal then [.text body true]
        else
          match pieces (2 * body.length + 2) .text 0 body with
          | .ok (contents, _) => contents
          | .error _ => [.text body true]
      let (others, rest) := hereBodies ps rest
      (contents :: others, rest)

private def operators : List String :=
  ["&&", "||", ";;", "<<-", "<<", "<&", "<>", ">>", ">&", ">|", "<", ">", "&", "|", ";", "(", ")"]

private def lineEnds (cs : List Char) : Nat :=
  cs.count '\n'

def scan (fuel line : Nat) (pending : List Pending) (hereTabs : Option Bool) (cs : List Char) :
    List Token × List Word :=
  match fuel with
  | 0 => ([], [])
  | fuel + 1 =>
    match cs with
    | [] => ([], [])
    | c :: rest =>
        if c = ' ' || c = '\t' then scan fuel line pending hereTabs rest
        else if c = '\n' then
          let (bodies, rest') := hereBodies pending rest
          let line' := line + 1 + (lineEnds rest - lineEnds rest')
          let (tokens, more) := scan fuel line' [] none rest'
          (.operator "\n" line :: tokens, bodies ++ more)
        else if c = '#' then scan fuel line pending none (rest.dropWhile (· != '\n'))
        else if c = '\\' && rest.head? = some '\n' then
          scan fuel (line + 1) pending hereTabs (rest.drop 1)
        else
          match operators.find? fun op => op.toList.isPrefixOf cs with
          | some op =>
              let hereTabs :=
                if op = "<<-" then some true else if op = "<<" then some false else none
              let (tokens, more) := scan fuel line pending hereTabs (cs.drop op.length)
              (.operator op line :: tokens, more)
          | none =>
              match pieces (2 * cs.length + 2) .separator 0 cs with
              | .error message => ([.fault message line], [])
              | .ok (found, rest') =>
                  let line' := line + (lineEnds cs - lineEnds rest')
                  let digits := (plainText? found).filter fun t => !t.isEmpty && t.all Char.isDigit
                  let redirects := rest'.head? = some '<' || rest'.head? = some '>'
                  match digits, redirects with
                  | some digits, true =>
                      let number := digits.foldl (fun n d => 10 * n + (d.toNat - '0'.toNat)) 0
                      let (tokens, more) := scan fuel line' pending none rest'
                      (.descriptor number line :: tokens, more)
                  | _, _ =>
                      let pending := match hereTabs with
                        | some stripTabs =>
                            let delimiter := delimiterText found
                            pending ++ [{ delimiter, literal := isLiteral found, stripTabs }]
                        | none => pending
                      let (tokens, more) := scan fuel line' pending none rest'
                      (.word found line :: tokens, more)

def ofText (cs : List Char) : List Token × List Word :=
  scan (cs.length + 1) 1 [] none cs

end Token

end PathEquiv.Shell
