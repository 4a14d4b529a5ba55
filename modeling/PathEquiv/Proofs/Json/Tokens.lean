import Mathlib.Data.List.TakeWhile
import PathEquiv.Json.Reader
import PathEquiv.Json.Writer
import PathEquiv.Proofs.Text.Decimal

set_option autoImplicit false

namespace PathEquiv

namespace Json

theorem stringBody_unit {a b c d : Char} {unit : Nat} (found : unit? a b c d = some unit)
    (high : isHighSurrogate unit = false) (low : isLowSurrogate unit = false) (rest : List Char) :
    stringBody ('\\' :: 'u' :: a :: b :: c :: d :: rest) =
      startWith (Char.ofNat unit) (stringBody rest) := by
  rw [stringBody.eq_def]
  split <;> grind

theorem stringBody_plain {c : Char} (noQuote : c ≠ '"') (noBackslash : c ≠ '\\')
    (visible : 0x20 ≤ c.toNat) (rest : List Char) :
    stringBody (c :: rest) = startWith c (stringBody rest) := by
  rw [stringBody.eq_def]
  split <;> grind

theorem hexValue_hexDigit : ∀ n, n < 16 → hexValue? (hexDigit n) = some n := by
  decide

theorem stringBody_control {c : Char} (control : c.toNat < 0x20) (rest : List Char) :
    stringBody ('\\' :: 'u' :: '0' :: '0' :: hexDigit (c.toNat / 16) ::
      hexDigit (c.toNat % 16) :: rest) = startWith c (stringBody rest) := by
  have zero : hexValue? '0' = some 0 := by decide
  have unit : unit? '0' '0' (hexDigit (c.toNat / 16)) (hexDigit (c.toNat % 16)) =
      some c.toNat := by
    rw [unit?, zero, hexValue_hexDigit _ (by omega), hexValue_hexDigit _ (by omega)]
    simp
    omega
  have high : isHighSurrogate c.toNat = false := by
    simp [isHighSurrogate]
    omega
  have low : isLowSurrogate c.toNat = false := by
    simp [isLowSurrogate]
    omega
  rw [stringBody_unit unit high low, Char.ofNat_toNat]

theorem stringBody_escapeChar (c : Char) (rest : List Char) :
    stringBody (escapeChar c ++ rest) = startWith c (stringBody rest) := by
  have character : c = Char.ofNat c.toNat := c.ofNat_toNat.symm
  unfold escapeChar
  split
  next => simp [stringBody, escaped?]
  next => simp [stringBody, escaped?]
  next => simp [stringBody, escaped?]
  next => simp [stringBody, escaped?]
  next => simp [stringBody, escaped?]
  next noQuote noBackslash _ _ _ =>
    -- The other control characters are told by their codes.
    by_cases backspace : c.toNat = 0x08
    next =>
      rw [if_pos backspace, character, backspace]
      simp [stringBody, escaped?]
    next =>
      rw [if_neg backspace]
      by_cases formFeed : c.toNat = 0x0C
      next =>
        rw [if_pos formFeed, character, formFeed]
        simp [stringBody, escaped?]
      next =>
        rw [if_neg formFeed]
        by_cases control : c.toNat < 0x20
        next =>
          rw [if_pos control]
          exact stringBody_control control rest
        next =>
          rw [if_neg control]
          exact stringBody_plain noQuote noBackslash (by omega) rest

theorem stringBody_escaped (cs rest : List Char) :
    stringBody (cs.flatMap escapeChar ++ '"' :: rest) = some (cs, rest) := by
  induction cs with
  | nil => simp [stringBody]
  | cons c cs ih =>
    rw [List.flatMap_cons, List.append_assoc, stringBody_escapeChar, ih]
    rfl

def endsNumber : List Char → Bool
  | [] => true
  | c :: _ => !Text.isDecimalDigit c && c != '.' && c != 'e' && c != 'E'

section Number

variable {rest : List Char} (ends : endsNumber rest = true)

include ends

theorem digitRun_append {digits : List Char} (nonempty : digits ≠ [])
    (each : ∀ c ∈ digits, Text.isDecimalDigit c = true) :
    digitRun (digits ++ rest) = some (digits, rest) := by
  have stops : rest.takeWhile Text.isDecimalDigit = [] ∧
      rest.dropWhile Text.isDecimalDigit = rest := by
    cases rest with
    | nil => simp
    | cons c more =>
      simp only [endsNumber, Bool.and_eq_true, Bool.not_eq_true'] at ends
      simp [ends.1.1.1]
  simp [digitRun, List.takeWhile_append_of_pos each, List.dropWhile_append_of_pos each, stops,
    nonempty]

theorem fractionPart_ends : fractionPart rest = some (none, rest) := by
  cases rest with
  | nil => rfl
  | cons c more =>
    unfold fractionPart
    split
    next shape =>
      cases shape
      simp [endsNumber] at ends
    next => rfl

theorem exponentPart_ends : exponentPart rest = some (none, rest) := by
  cases rest with
  | nil => rfl
  | cons c more =>
    unfold exponentPart
    split <;> simp_all [endsNumber]

theorem wholeDigits_natText (n : Nat) :
    wholeDigits ((Text.natText n).toList ++ rest) = some ((Text.natText n).toList, rest) := by
  rw [Text.toList_natText]
  rcases Nat.eq_zero_or_pos n with rfl | positive
  · rfl
  · have run := digitRun_append ends Nat.toDigits_ne_nil fun c member =>
      Text.isDecimalDigit_of_mem_toDigits (n := n) member
    cases shape : Nat.toDigits 10 n with
    | nil => exact absurd shape Nat.toDigits_ne_nil
    | cons c cs =>
      have first : c ≠ '0' := by
        intro zero
        exact Text.toDigits_ne_zero_cons positive cs (zero ▸ shape)
      rw [shape] at run
      rw [List.cons_append, wholeDigits.eq_2]
      · exact run
      · intro more same
        cases same
        exact first rfl

theorem number_natText {n : Nat} (small : n < Nat.pow 2 64) :
    number? ((Text.natText n).toList ++ rest) = some (.int n, rest) := by
  have whole := wholeDigits_natText ends n
  have numeral : numeral? ((Text.natText n).toList ++ rest) = some
      ({ negative := false, whole := (Text.natText n).toList, fraction := none, exponent := none },
        rest) := by
    obtain ⟨c, cs, shape, digit⟩ := Text.natText_cons n
    have unsigned : c ≠ '-' := by
      rintro rfl
      revert digit
      decide
    rw [shape, List.cons_append] at whole ⊢
    simp [numeral?, unsigned, whole, fractionPart_ends ends, exponentPart_ends ends]
  have read (spelling : List Char) : Numeral.value?
      { negative := false, whole := (Text.natText n).toList, fraction := none, exponent := none }
      spelling = some (.int n) := by
    simp only [Numeral.value?, Text.decimalValue_natText, small, decide_true]
    rfl
  simp [number?, numeral, read]

end Number

end Json

end PathEquiv
