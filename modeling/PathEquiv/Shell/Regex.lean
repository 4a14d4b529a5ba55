import PathEquiv.Shell.Pattern

set_option autoImplicit false

namespace PathEquiv.Shell

inductive Regex where
  | empty
  | atom (a : PatternAtom)
  | lineStart
  | lineEnd
  | wordEdge
  | group (number : Nat) (inside : Regex)
  | back (number : Nat)
  | seq (left right : Regex)
  | alt (left right : Regex)
  | repeated (inside : Regex) (least : Nat) (most : Option Nat)
  deriving Repr, Inhabited

inductive Dialect where
  | basic
  | extended
  deriving DecidableEq, Repr

namespace Regex

structure Reader where
  dialect : Dialect
  rest : List Char
  groups : Nat := 0

abbrev ReaderM := StateT Reader Option

private def number? (cs : List Char) : Option Nat :=
  if cs.isEmpty || !cs.all Char.isDigit then none
  else some (cs.foldl (fun n d => 10 * n + (d.toNat - '0'.toNat)) 0)

private def bounds? (cs : List Char) : Option (Nat × Option Nat) :=
  let low := cs.takeWhile (· != ',')
  match cs.drop low.length with
  | [] => (number? low).map fun n => (n, some n)
  | _ :: [] => (number? low).map fun n => (n, none)
  | _ :: high => do return (← number? low, some (← number? high))

private def operator? (dialect : Dialect) : List Char → Option (Char × List Char)
  | '\\' :: c :: rest =>
      if dialect = .basic && "()|+?\x7b\x7d".toList.contains c then some (c, rest) else none
  | c :: rest =>
      if c = '*' then some (c, rest)
      else if dialect = .extended && "()|+?\x7b\x7d".toList.contains c then some (c, rest)
      else none
  | [] => none

private def repeatWith (r : Regex) : (fuel : Nat) → ReaderM Regex
  | 0 => return r
  | fuel + 1 => do
      let s ← get
      match operator? s.dialect s.rest with
      | some ('*', rest) => set { s with rest }; repeatWith (.repeated r 0 none) fuel
      | some ('+', rest) => set { s with rest }; repeatWith (.repeated r 1 none) fuel
      | some ('?', rest) => set { s with rest }; repeatWith (.repeated r 0 (some 1)) fuel
      | some ('\x7b', rest) =>
          let inside := rest.takeWhile fun c => c != '\\' && c != '\x7d'
          match operator? s.dialect (rest.drop inside.length) with
          | some ('\x7d', after) =>
              let (least, most) ← bounds? inside
              set { s with rest := after }
              repeatWith (.repeated r least most) fuel
          | _ => failure
      | _ => return r

mutual

def alternatives (fuel : Nat) : ReaderM Regex :=
  match fuel with
  | 0 => failure
  | fuel + 1 => do
    let left ← branch fuel true
    let s ← get
    match operator? s.dialect s.rest with
    | some ('|', rest) =>
        set { s with rest }
        return .alt left (← alternatives fuel)
    | _ => return left

def branch (fuel : Nat) (atStart : Bool) : ReaderM Regex :=
  match fuel with
  | 0 => failure
  | fuel + 1 => do
    let s ← get
    match s.rest, operator? s.dialect s.rest with
    | [], _ | _, some ('|', _) | _, some (')', _) => return .empty
    | _, _ =>
        let first ← single fuel atStart
        let first ← repeatWith first s.rest.length
        return .seq first (← branch fuel false)

def single (fuel : Nat) (atStart : Bool) : ReaderM Regex :=
  match fuel with
  | 0 => failure
  | fuel + 1 => do
    let s ← get
    let take (r : Regex) (rest : List Char) : ReaderM Regex := do
      set { s with rest }
      return r
    match operator? s.dialect s.rest with
    | some ('(', rest) =>
        let number := s.groups + 1
        set { s with rest, groups := number }
        let inside ← alternatives fuel
        let s ← get
        match operator? s.dialect s.rest with
        | some (')', rest) =>
            set { s with rest }
            return .group number inside
        | _ => failure
    -- A star at the start of a basic expression stands for itself.
    | some ('*', rest) =>
        if s.dialect = .basic && atStart then take (.atom (.char '*')) rest else failure
    | some ('\x7b', rest) => take (.atom (.char '\x7b')) rest
    | some ('\x7d', rest) => take (.atom (.char '\x7d')) rest
    | some _ => failure
    | none =>
        match s.rest with
        | '.' :: rest => take (.atom .one) rest
        | '^' :: rest =>
            if s.dialect = .extended || atStart then take .lineStart rest
            else take (.atom (.char '^')) rest
        | '$' :: rest =>
            let atEnd := rest.isEmpty || (operator? s.dialect rest).any fun (c, _) =>
              c == ')' || c == '|'
            if s.dialect = .extended || atEnd then take .lineEnd rest
            else take (.atom (.char '$')) rest
        | '[' :: rest =>
            match Pattern.set? rest with
            | some (found, rest) => take (.atom found) rest
            | none => failure
        | '\\' :: c :: rest =>
            if c = 'b' then take .wordEdge rest
            else if c.isDigit && c ≠ '0' then take (.back (c.toNat - '0'.toNat)) rest
            else take (.atom (.char c)) rest
        | c :: rest => take (.atom (.char c)) rest
        | [] => failure

end

def ofText? (dialect : Dialect) (text : List Char) : Option Regex := do
  let (r, s) ← (alternatives (4 * text.length + 4)).run { dialect, rest := text }
  if s.rest.isEmpty then some r else none

structure Place where
  before : List Char
  after : List Char
  groups : List (Nat × List Char) := []

private def sameChar (ignoreCase : Bool) (a : PatternAtom) (c : Char) : Bool :=
  let accepts := Pattern.PatternAtom.accepts a
  accepts c || (ignoreCase && (accepts c.toLower || accepts c.toUpper))

private def isWordChar (c : Char) : Bool :=
  c.isAlphanum || c == '_'

private def atWordEdge (p : Place) : Bool :=
  p.before.head?.any isWordChar != p.after.head?.any isWordChar

private def advanceBy (p : Place) (n : Nat) : Place :=
  { p with before := (p.after.take n).reverse ++ p.before, after := p.after.drop n }

def matchFrom (ignoreCase : Bool) (fuel : Nat) (r : Regex) (p : Place)
    (rest : Place → Option Place) : Option Place :=
  match fuel with
  | 0 => none
  | fuel + 1 =>
    match r with
    | .empty => rest p
    | .atom a =>
        match p.after with
        | c :: _ => if sameChar ignoreCase a c then rest (advanceBy p 1) else none
        | [] => none
    | .lineStart => if p.before.isEmpty then rest p else none
    | .lineEnd => if p.after.isEmpty then rest p else none
    | .wordEdge => if atWordEdge p then rest p else none
    | .group number inside =>
        matchFrom ignoreCase fuel inside p fun q =>
          let text := (q.before.take (q.before.length - p.before.length)).reverse
          rest { q with groups := (number, text) :: q.groups.filter (·.1 != number) }
    | .back number =>
        match p.groups.lookup number with
        | some text => if text.isPrefixOf p.after then rest (advanceBy p text.length) else none
        | none => none
    | .seq left right =>
        matchFrom ignoreCase fuel left p fun q => matchFrom ignoreCase fuel right q rest
    | .alt left right =>
        match matchFrom ignoreCase fuel left p rest with
        | some q => some q
        | none => matchFrom ignoreCase fuel right p rest
    | .repeated inside least most =>
        let more := fun (q : Place) =>
          if least = 0 && q.after.length = p.after.length then none
          else matchFrom ignoreCase fuel (.repeated inside (least - 1) (most.map (· - 1))) q rest
        let further := if most = some 0 then none else matchFrom ignoreCase fuel inside p more
        match further with
        | some q => some q
        | none => if least = 0 then rest p else none

structure Found where
  before : List Char
  matched : List Char
  after : List Char
  groups : List (Nat × List Char)

private def foundAt (before : List Char) (q : Place) : Found :=
  { before := before.reverse
    matched := (q.before.take (q.before.length - before.length)).reverse
    after := q.after, groups := q.groups }

private def searchFrom (ignoreCase : Bool) (fuel : Nat) (r : Regex) :
    (before : List Char) → List Char → Option Found
  | before, [] => (matchFrom ignoreCase fuel r { before, after := [] } some).map (foundAt before)
  | before, c :: rest =>
      match matchFrom ignoreCase fuel r { before, after := c :: rest } some with
      | some q => some (foundAt before q)
      | none => searchFrom ignoreCase fuel r (c :: before) rest

private def size : Regex → Nat
  | .group _ r => size r + 1
  | .seq a b | .alt a b => size a + size b + 1
  | .repeated r least _ => size r + least + 1
  | _ => 1

def search (r : Regex) (ignoreCase : Bool) (before text : List Char) : Option Found :=
  searchFrom ignoreCase ((size r + 2) * (text.length + 2)) r before text

def literal (text : List Char) : Regex :=
  text.foldr (fun c r => .seq (.atom (.char c)) r) .empty

end Regex

end PathEquiv.Shell
