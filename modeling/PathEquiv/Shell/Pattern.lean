set_option autoImplicit false

namespace PathEquiv.Shell

structure CharRange where
  low : Char
  high : Char
  deriving DecidableEq, Repr

def CharRange.contains (r : CharRange) (c : Char) : Bool :=
  r.low ≤ c && c ≤ r.high

namespace CharRange

private def ascii (low high : Char) : List CharRange := [⟨low, high⟩]

def classOf? : String → Option (List CharRange)
  | "digit" => some (ascii '0' '9')
  | "lower" => some (ascii 'a' 'z')
  | "upper" => some (ascii 'A' 'Z')
  | "alpha" => some (ascii 'A' 'Z' ++ ascii 'a' 'z')
  | "alnum" => some (ascii '0' '9' ++ ascii 'A' 'Z' ++ ascii 'a' 'z')
  | "blank" => some (ascii '\t' '\t' ++ ascii ' ' ' ')
  | "space" => some (ascii '\t' '\r' ++ ascii ' ' ' ')
  | "punct" => some (ascii '!' '/' ++ ascii ':' '@' ++ ascii '[' '`' ++ ascii '\x7b' '~')
  | "xdigit" => some (ascii '0' '9' ++ ascii 'A' 'F' ++ ascii 'a' 'f')
  | "print" => some (ascii ' ' '~')
  | "graph" => some (ascii '!' '~')
  | "cntrl" => some (ascii '\x00' '\x1f' ++ ascii '\x7f' '\x7f')
  | _ => none

def class? (cs : List Char) : Option (List CharRange × List Char) :=
  match cs with
  | '[' :: ':' :: rest =>
      let name := rest.takeWhile Char.isAlpha
      match rest.drop name.length with
      | ':' :: ']' :: after => (classOf? (String.ofList name)).map fun ranges => (ranges, after)
      | _ => none
  | _ => none

end CharRange

inductive PatternAtom where
  | any
  | one
  | char (c : Char)
  | set (negated : Bool) (ranges : List CharRange)
  deriving DecidableEq, Repr

abbrev Pattern := List PatternAtom

namespace Pattern

-- The ranges of a set up to its closing bracket.
private def ranges : (fuel : Nat) → (first : Bool) → List Char →
    Option (List CharRange × List Char)
  | 0, _, _ => none
  | _, _, [] => none
  | fuel + 1, first, c :: rest =>
      if c = ']' && !first then some ([], rest)
      else
        match CharRange.class? (c :: rest) with
        | some (found, rest) =>
            (ranges fuel false rest).map fun (others, rest) => (found ++ others, rest)
        | none =>
            match rest with
            | '-' :: high :: after =>
                if high = ']' then
                  (ranges fuel false rest).map fun (others, rest) => (⟨c, c⟩ :: others, rest)
                else
                  (ranges fuel false after).map fun (others, rest) => (⟨c, high⟩ :: others, rest)
            | _ => (ranges fuel false rest).map fun (others, rest) => (⟨c, c⟩ :: others, rest)

def set? (cs : List Char) : Option (PatternAtom × List Char) :=
  let (negated, cs) := match cs with
    | '!' :: rest | '^' :: rest => (true, rest)
    | _ => (false, cs)
  (ranges (cs.length + 1) true cs).map fun (found, rest) => (.set negated found, rest)

def ofChars : (fuel : Nat) → List (Char × Bool) → Pattern
  | 0, _ => []
  | _, [] => []
  | fuel + 1, (c, true) :: rest => .char c :: ofChars fuel rest
  | fuel + 1, (c, false) :: rest =>
      if c = '*' then .any :: ofChars fuel rest
      else if c = '?' then .one :: ofChars fuel rest
      else if c = '[' then
        match set? (rest.map (·.1)) with
        | some (atom, after) => atom :: ofChars fuel (rest.drop (rest.length - after.length))
        | none => .char '[' :: ofChars fuel rest
      else .char c :: ofChars fuel rest

def ofField (field : List (Char × Bool)) : Pattern :=
  ofChars field.length field

def PatternAtom.accepts : PatternAtom → Char → Bool
  | .any, _ => true
  | .one, _ => true
  | .char d, c => c == d
  | .set negated ranges, c => ranges.any (·.contains c) != negated

def accepts : Pattern → List Char → Bool
  | [], cs => cs.isEmpty
  | .any :: atoms, cs => suffixes atoms cs
  | _ :: _, [] => false
  | atom :: atoms, c :: cs => PatternAtom.accepts atom c && accepts atoms cs
where
  suffixes (atoms : Pattern) : List Char → Bool
  | [] => accepts atoms []
  | c :: cs => accepts atoms (c :: cs) || suffixes atoms cs

end Pattern

end PathEquiv.Shell
