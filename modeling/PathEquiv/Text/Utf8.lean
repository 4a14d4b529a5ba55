set_option autoImplicit false

namespace PathEquiv.Text

def replacement : Char := Char.ofNat 0xFFFD

structure PartialChar where
  value : Nat
  missing : Nat
  low : UInt8 := 0x80
  high : UInt8 := 0xBF

/-- What a byte starts: a whole character, the start of one, or nothing. The bounds of the second
byte exclude overlong forms, surrogates and values that are too large. -/
def firstByte (b : UInt8) : Option Char × Option PartialChar :=
  if b < 0x80 then (some (Char.ofNat b.toNat), none)
  else if b < 0xC2 then (some replacement, none)
  else if b < 0xE0 then (none, some { value := b.toNat % 32, missing := 1 })
  else if b < 0xF0 then
    (none, some {
      value := b.toNat % 16, missing := 2
      low := if b = 0xE0 then 0xA0 else 0x80
      high := if b = 0xED then 0x9F else 0xBF })
  else if b < 0xF5 then
    (none, some {
      value := b.toNat % 8, missing := 3
      low := if b = 0xF0 then 0x90 else 0x80
      high := if b = 0xF4 then 0x8F else 0xBF })
  else (some replacement, none)

private def ofBytesAfter : Option PartialChar → List UInt8 → List Char
  | none, [] => []
  | some _, [] => [replacement]
  | none, b :: rest =>
      let (char, next) := firstByte b
      char.toList ++ ofBytesAfter next rest
  | some p, b :: rest =>
      if p.low ≤ b && b ≤ p.high then
        let value := p.value * 64 + b.toNat % 64
        if p.missing ≤ 1 then Char.ofNat value :: ofBytesAfter none rest
        else ofBytesAfter (some { value, missing := p.missing - 1 }) rest
      else
        let (char, next) := firstByte b
        replacement :: char.toList ++ ofBytesAfter next rest

def ofBytes (bytes : List UInt8) : List Char :=
  ofBytesAfter none bytes

def decodeBytes (bytes : List UInt8) : String :=
  String.ofList (ofBytes bytes)

def encodeBytes (text : String) : List UInt8 :=
  text.toUTF8.toList

end PathEquiv.Text
