import Mathlib.Data.String.Basic
import PathEquiv.Text.Order
import PathEquiv.Text.Utf8

set_option autoImplicit false

namespace PathEquiv.Text

theorem toList_loop (bytes : ByteArray) (i : Nat) (read : List UInt8) :
    ByteArray.toList.loop bytes i read = read.reverse ++ bytes.data.toList.drop i := by
  induction i, read using ByteArray.toList.loop.induct bytes with
  | case1 i read inside ih =>
    have within : i < bytes.data.toList.length := by simpa using inside
    have first : bytes.get! i = bytes.data.toList[i] := by
      rw [Array.getElem_toList]
      exact getElem!_pos bytes.data i (by simpa using inside)
    rw [ByteArray.toList.loop, if_pos inside, ih, List.drop_eq_getElem_cons within, first]
    simp
  | case2 i read outside =>
    have past : bytes.data.toList.length ≤ i := by simpa using outside
    rw [ByteArray.toList.loop, if_neg outside, List.drop_eq_nil_of_le past, List.append_nil]

theorem toList_bytes (bytes : ByteArray) : bytes.toList = bytes.data.toList := by
  rw [ByteArray.toList, toList_loop, List.reverse_nil, List.nil_append, List.drop_zero]

theorem encodeBytes_eq (text : String) :
    encodeBytes text = text.toList.flatMap String.utf8EncodeChar := by
  rw [encodeBytes, String.toUTF8_eq_toByteArray, toList_bytes, ← String.utf8Encode_toList,
    List.utf8Encode, List.toList_data_toByteArray]

theorem length_encodeBytes (text : String) : (encodeBytes text).length = text.utf8ByteSize := by
  rw [encodeBytes, String.toUTF8_eq_toByteArray, toList_bytes, Array.length_toList]
  rfl

theorem byte_cons_lt {n m : Nat} {rest others : List UInt8} (first : n < 256) (second : m < 256) :
    UInt8.ofNat n :: rest < UInt8.ofNat m :: others ↔ n < m ∨ n = m ∧ rest < others := by
  rw [List.cons_lt_cons_iff, UInt8.lt_iff_toNat_lt, ← UInt8.toNat_inj,
    UInt8.toNat_ofNat_of_lt' first, UInt8.toNat_ofNat_of_lt' second]

theorem code_lt (c : Char) : c.val.toNat < 0x110000 := by
  have valid := c.valid
  rcases valid with low | high
  · exact Nat.lt_trans low (by decide)
  · exact high.2

theorem encoded_lt {c d : Char} (less : c < d) (rest others : List UInt8) :
    String.utf8EncodeChar c ++ rest < String.utf8EncodeChar d ++ others := by
  have codes : c.val.toNat < d.val.toNat := UInt32.lt_iff_toNat_lt.mp less
  have bounded := code_lt d
  rw [String.utf8EncodeChar, String.utf8EncodeChar]
  generalize c.val.toNat = n at codes ⊢
  generalize d.val.toNat = m at codes bounded ⊢
  by_cases short : n ≤ 65535
  next =>
    split_ifs
    all_goals simp (disch := omega) only [List.cons_append, List.nil_append, byte_cons_lt]
    all_goals omega
  next =>
    -- Four bytes for each, so the first digit to the base 64 that differs decides.
    have leading (base : Nat) : n / base < m / base ∨ n / base = m / base :=
      Nat.lt_or_eq_of_le (Nat.div_le_div_right (Nat.le_of_lt codes))
    repeat rw [if_neg (by omega)]
    simp (disch := omega) only [List.cons_append, List.nil_append, byte_cons_lt]
    rcases leading 262144 with less | upper
    · omega
    · rcases leading 4096 with less | middle
      · omega
      · rcases leading 64 with less | lower
        · omega
        · omega

theorem flatMap_encoded_lt {cs ds : List Char} (less : cs < ds) :
    cs.flatMap String.utf8EncodeChar < ds.flatMap String.utf8EncodeChar := by
  induction cs generalizing ds with
  | nil =>
    cases ds with
    | nil => cases less
    | cons d ds =>
      obtain ⟨byte, bytes, shape⟩ := List.exists_cons_of_ne_nil (@String.utf8EncodeChar_ne_nil d)
      rw [List.flatMap_cons, shape]
      exact List.nil_lt_cons _ _
  | cons c cs ih =>
    cases ds with
    | nil => cases less
    | cons d ds =>
      rw [List.flatMap_cons, List.flatMap_cons]
      rcases List.cons_lt_cons_iff.mp less with before | ⟨rfl, later⟩
      · exact encoded_lt before _ _
      · exact List.append_left_lt (ih later)

theorem encodeBytes_lt_iff {a b : String} : encodeBytes a < encodeBytes b ↔ a ≤ b ∧ a ≠ b := by
  have ordered : a ≤ b ↔ ¬b.toList < a.toList := Iff.rfl
  rw [encodeBytes_eq, encodeBytes_eq, ordered]
  constructor
  next =>
    intro less
    constructor
    next => exact fun after => List.lt_asymm less (flatMap_encoded_lt after)
    next =>
      intro same
      rw [same] at less
      exact List.lt_irrefl _ less
  next =>
    intro both
    rcases lt_trichotomy a.toList b.toList with before | same | after
    · exact flatMap_encoded_lt before
    · exact absurd (String.toList_inj.mp same) both.2
    · exact absurd after both.1

end PathEquiv.Text
