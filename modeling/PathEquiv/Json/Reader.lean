import PathEquiv.Json.Basic
import PathEquiv.Text.Decimal

set_option autoImplicit false

namespace PathEquiv.Json

def isGap (c : Char) : Bool :=
  c == ' ' || c == '\n' || c == '\t' || c == '\r'

def skipGaps (cs : List Char) : List Char :=
  cs.dropWhile isGap

def hexValue? (c : Char) : Option Nat :=
  if '0' ≤ c ∧ c ≤ '9' then some (c.toNat - '0'.toNat)
  else if 'a' ≤ c ∧ c ≤ 'f' then some (c.toNat - 'a'.toNat + 10)
  else if 'A' ≤ c ∧ c ≤ 'F' then some (c.toNat - 'A'.toNat + 10)
  else none

def unit? (a b c d : Char) : Option Nat := do
  let w ← hexValue? a
  let x ← hexValue? b
  let y ← hexValue? c
  let z ← hexValue? d
  return ((w * 16 + x) * 16 + y) * 16 + z

def escaped? : Char → Option Char
  | '"' => some '"'
  | '\\' => some '\\'
  | '/' => some '/'
  | 'b' => some (Char.ofNat 0x08)
  | 'f' => some (Char.ofNat 0x0C)
  | 'n' => some '\n'
  | 'r' => some '\r'
  | 't' => some '\t'
  | _ => none

def isHighSurrogate (unit : Nat) : Bool :=
  0xD800 ≤ unit && unit ≤ 0xDBFF

def isLowSurrogate (unit : Nat) : Bool :=
  0xDC00 ≤ unit && unit ≤ 0xDFFF

def startWith (c : Char) (rest : Option (List Char × List Char)) :
    Option (List Char × List Char) :=
  rest.map fun (s, cs) => (c :: s, cs)

/-- Reads a string after its opening quote. Surrogates have to come in pairs, and a character
below the space has to be escaped. -/
def stringBody : List Char → Option (List Char × List Char)
  | [] => none
  | '"' :: rest => some ([], rest)
  | '\\' :: 'u' :: a :: b :: c :: d :: '\\' :: 'u' :: e :: f :: g :: h :: rest =>
      match unit? a b c d with
      | none => none
      | some high =>
          if isHighSurrogate high then
            match unit? e f g h with
            | none => none
            | some low =>
                if isLowSurrogate low then
                  startWith (Char.ofNat (0x10000 + (high - 0xD800) * 0x400 + (low - 0xDC00)))
                    (stringBody rest)
                else none
          else if isLowSurrogate high then none
          else startWith (Char.ofNat high)
            (stringBody ('\\' :: 'u' :: e :: f :: g :: h :: rest))
  | '\\' :: 'u' :: a :: b :: c :: d :: rest =>
      match unit? a b c d with
      | none => none
      | some unit =>
          if isHighSurrogate unit || isLowSurrogate unit then none
          else startWith (Char.ofNat unit) (stringBody rest)
  | '\\' :: c :: rest =>
      match escaped? c with
      | none => none
      | some plain => startWith plain (stringBody rest)
  | c :: rest => if c.toNat < 0x20 then none else startWith c (stringBody rest)

structure Numeral where
  negative : Bool
  whole : List Char
  fraction : Option (List Char)
  exponent : Option (Bool × List Char)

def digitRun (cs : List Char) : Option (List Char × List Char) :=
  let digits := cs.takeWhile Text.isDecimalDigit
  if digits.isEmpty then none else some (digits, cs.dropWhile Text.isDecimalDigit)

def wholeDigits : List Char → Option (List Char × List Char)
  | '0' :: rest => some (['0'], rest)
  | cs => digitRun cs

def fractionPart : List Char → Option (Option (List Char) × List Char)
  | '.' :: rest => (digitRun rest).map fun (digits, cs) => (some digits, cs)
  | cs => some (none, cs)

def exponentDigits (negative : Bool) (cs : List Char) :
    Option (Option (Bool × List Char) × List Char) :=
  (digitRun cs).map fun (digits, rest) => (some (negative, digits), rest)

def exponentPart : List Char → Option (Option (Bool × List Char) × List Char)
  | 'e' :: '-' :: rest | 'E' :: '-' :: rest => exponentDigits true rest
  | 'e' :: '+' :: rest | 'E' :: '+' :: rest => exponentDigits false rest
  | 'e' :: rest | 'E' :: rest => exponentDigits false rest
  | cs => some (none, cs)

def numeral? (cs : List Char) : Option (Numeral × List Char) := do
  let (negative, cs) := match cs with
    | '-' :: rest => (true, rest)
    | _ => (false, cs)
  let (whole, cs) ← wholeDigits cs
  let (fraction, cs) ← fractionPart cs
  let (exponent, cs) ← exponentPart cs
  return ({ negative, whole, fraction, exponent }, cs)

def doubleLimit : Nat := Nat.pow 2 1024 - Nat.pow 2 970

-- The digit counts are compared first, so that no power is larger than a double needs.
def Numeral.fitsDouble (n : Numeral) : Bool :=
  let fraction := n.fraction.getD []
  let digits := (n.whole ++ fraction).dropWhile (· == '0')
  let scale : Int :=
    (match n.exponent with
      | none => 0
      | some (true, e) => -(Text.decimalValue e : Int)
      | some (false, e) => (Text.decimalValue e : Int)) - fraction.length
  if digits.isEmpty then true
  else if scale + digits.length > 310 then false
  else if scale + digits.length < 300 then true
  else if 0 ≤ scale then decide (Text.decimalValue digits * Nat.pow 10 scale.toNat < doubleLimit)
  else decide (Text.decimalValue digits < doubleLimit * Nat.pow 10 (-scale).toNat)

/-- An integer of 64 bits is read as one; a minus sign before zero makes a number that is not. -/
def Numeral.value? (n : Numeral) (spelling : List Char) : Option Json :=
  let magnitude := Text.decimalValue n.whole
  let whole := n.fraction.isNone && n.exponent.isNone
  if whole && !n.negative && magnitude < Nat.pow 2 64 then some (.int magnitude)
  else if whole && n.negative && 0 < magnitude && magnitude ≤ Nat.pow 2 63 then
    some (.int (-magnitude))
  else if n.fitsDouble then some (.decimal (String.ofList spelling))
  else none

def number? (cs : List Char) : Option (Json × List Char) := do
  let (numeral, rest) ← numeral? cs
  let value ← numeral.value? (cs.take (cs.length - rest.length))
  return (value, rest)

mutual

/-- Reads a value at the front of a text in which at most `depth` arrays and objects may nest.
A step needs `fuel`; twice the length of the text is enough. -/
def value? : (fuel depth : Nat) → List Char → Option (Json × List Char)
  | 0, _, _ => none
  | fuel + 1, depth, cs =>
      match cs with
      | 'n' :: 'u' :: 'l' :: 'l' :: rest => some (.null, rest)
      | 't' :: 'r' :: 'u' :: 'e' :: rest => some (.bool true, rest)
      | 'f' :: 'a' :: 'l' :: 's' :: 'e' :: rest => some (.bool false, rest)
      | '"' :: rest => (stringBody rest).map fun (s, cs) => (.str (String.ofList s), cs)
      | '[' :: rest =>
          match depth, skipGaps rest with
          | 0, _ => none
          | _ + 1, ']' :: rest => some (.arr [], rest)
          | depth + 1, rest => (items? fuel depth rest).map fun (xs, cs) => (.arr xs, cs)
      | '{' :: rest =>
          match depth, skipGaps rest with
          | 0, _ => none
          | _ + 1, '}' :: rest => some (.obj [], rest)
          | depth + 1, rest => (fields? fuel depth rest).map fun (xs, cs) => (.obj xs, cs)
      | _ => number? cs

def items? : (fuel depth : Nat) → List Char → Option (List Json × List Char)
  | 0, _, _ => none
  | fuel + 1, depth, cs =>
      match value? fuel depth (skipGaps cs) with
      | none => none
      | some (item, cs) =>
          match skipGaps cs with
          | ']' :: rest => some ([item], rest)
          | ',' :: rest => (items? fuel depth rest).map fun (items, cs) => (item :: items, cs)
          | _ => none

def fields? : (fuel depth : Nat) → List Char → Option (List (String × Json) × List Char)
  | 0, _, _ => none
  | fuel + 1, depth, cs =>
      match skipGaps cs with
      | '"' :: rest =>
          match stringBody rest with
          | none => none
          | some (name, cs) =>
              match skipGaps cs with
              | ':' :: rest =>
                  match value? fuel depth (skipGaps rest) with
                  | none => none
                  | some (value, cs) =>
                      let field := (String.ofList name, value)
                      match skipGaps cs with
                      | '}' :: rest => some ([field], rest)
                      | ',' :: rest =>
                          (fields? fuel depth rest).map fun (fields, cs) => (field :: fields, cs)
                      | _ => none
              | _ => none
      | _ => none

end

def read? (depth : Nat) (text : String) : Option Json :=
  let cs := skipGaps text.toList
  match value? (2 * cs.length + 2) depth cs with
  | none => none
  | some (value, rest) => if (skipGaps rest).isEmpty then some value else none

def documentDepth : Nat := 127

def document? (text : String) : Option Json :=
  read? documentDepth text

end PathEquiv.Json
