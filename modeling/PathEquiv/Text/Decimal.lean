set_option autoImplicit false

namespace PathEquiv.Text

def isDecimalDigit (c : Char) : Bool :=
  '0' ≤ c && c ≤ '9'

def digitValue (c : Char) : Nat :=
  c.toNat - '0'.toNat

def decimalValue (digits : List Char) : Nat :=
  digits.foldl (fun n c => 10 * n + digitValue c) 0

def isDigits (cs : List Char) : Bool :=
  !cs.isEmpty && cs.all isDecimalDigit

def natural? (cs : List Char) : Option Nat :=
  if isDigits cs then some (decimalValue cs) else none

def unsignedBelow? (limit : Nat) (cs : List Char) : Option Nat := do
  let n ← natural? (match cs with | '+' :: rest => rest | _ => cs)
  if n < limit then some n else none

def int64? (cs : List Char) : Option Int :=
  match cs with
  | '-' :: rest => do
      let n ← natural? rest
      if n ≤ Nat.pow 2 63 then some (-(n : Int)) else none
  | '+' :: rest => do
      let n ← natural? rest
      if n < Nat.pow 2 63 then some (n : Int) else none
  | _ => do
      let n ← natural? cs
      if n < Nat.pow 2 63 then some (n : Int) else none

def natText (n : Nat) : String :=
  String.ofList (Nat.toDigits 10 n)

def intText : Int → String
  | .ofNat n => natText n
  | .negSucc n => "-" ++ natText (n + 1)

end PathEquiv.Text
