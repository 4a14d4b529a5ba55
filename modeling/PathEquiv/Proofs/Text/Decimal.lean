import PathEquiv.Text.Decimal

set_option autoImplicit false

namespace PathEquiv.Text

variable {cs : List Char}

theorem isDigits_iff :
    isDigits cs = true ↔ cs ≠ [] ∧ ∀ c ∈ cs, isDecimalDigit c = true := by
  simp [isDigits]

theorem not_mem_of_isDigits {c : Char} (other : isDecimalDigit c = false)
    (digits : isDigits cs = true) : c ∉ cs := by
  intro member
  have digit := (isDigits_iff.mp digits).2 c member
  rw [other] at digit
  cases digit

theorem head_of_isDigits (digits : isDigits cs = true) :
    cs.head?.any isDecimalDigit = true := by
  obtain ⟨given, each⟩ := isDigits_iff.mp digits
  cases cs with
  | nil => exact absurd rfl given
  | cons c cs => simpa using each c (by simp)

-- A positive number has no leading zero.
theorem toDigits_ne_zero_cons {n : Nat} (positive : 0 < n) (more : List Char) :
    Nat.toDigits 10 n ≠ '0' :: more := by
  induction n using Nat.strongRecOn generalizing more with
  | ind n ih =>
    by_cases small : n < 10
    next =>
      rw [Nat.toDigits_of_lt_base small]
      have digits : ∀ digit, digit < 10 → 0 < digit → digit.digitChar ≠ '0' := by decide
      simp [digits n small positive]
    next =>
      -- The first digit of the number is that of its tenth.
      have split : Nat.toDigits 10 n = Nat.toDigits 10 (n / 10) ++ Nat.toDigits 10 (n % 10) := by
        rw [Nat.toDigits_append_toDigits (by decide) (by omega) (by omega), Nat.div_add_mod]
      have start := ih (n / 10) (by omega) (by omega)
      cases shape : Nat.toDigits 10 (n / 10) with
      | nil => exact absurd shape Nat.toDigits_ne_nil
      | cons c cs =>
        rw [split, shape]
        intro zero
        cases zero
        exact start cs shape

theorem isDecimalDigit_of_mem_toDigits {n : Nat} {c : Char} (member : c ∈ Nat.toDigits 10 n) :
    isDecimalDigit c = true := by
  have digit := Nat.isDigit_of_mem_toDigits (by decide) (by decide) member
  simpa [Char.isDigit, isDecimalDigit, Char.le_def] using digit

theorem decimalValue_toDigits (n : Nat) : decimalValue (Nat.toDigits 10 n) = n :=
  Nat.ofDigitChars_ten_toDigits

theorem toList_natText (n : Nat) : (natText n).toList = Nat.toDigits 10 n := by
  simp [natText]

theorem isDigits_natText (n : Nat) : isDigits (natText n).toList = true := by
  rw [isDigits_iff, toList_natText]
  exact ⟨Nat.toDigits_ne_nil, fun c member => isDecimalDigit_of_mem_toDigits member⟩

theorem not_mem_natText {c : Char} (other : isDecimalDigit c = false) (n : Nat) :
    c ∉ (natText n).toList :=
  not_mem_of_isDigits other (isDigits_natText n)

theorem natText_cons (n : Nat) :
    ∃ c cs, (natText n).toList = c :: cs ∧ isDecimalDigit c = true := by
  obtain ⟨given, each⟩ := isDigits_iff.mp (isDigits_natText n)
  obtain ⟨c, cs, shape⟩ := List.exists_cons_of_ne_nil given
  exact ⟨c, cs, shape, each c (by simp [shape])⟩

theorem decimalValue_natText (n : Nat) : decimalValue (natText n).toList = n := by
  rw [toList_natText, decimalValue_toDigits]

theorem natText_injective {n m : Nat} (same : natText n = natText m) : n = m := by
  rw [← decimalValue_natText n, same, decimalValue_natText]

theorem natText_ne_cons {sign : Char} (mark : isDecimalDigit sign = false) (n : Nat)
    (rest : List Char) : (natText n).toList ≠ sign :: rest := by
  intro signed
  exact not_mem_natText mark n (by simp [signed])

theorem intText_negSucc (n : Nat) :
    (intText (.negSucc n)).toList = '-' :: (natText (n + 1)).toList := by
  simp [intText]

theorem int64_natText (n : Nat) :
    int64? (natText n).toList = if n < 9223372036854775808 then some (n : Int) else none := by
  have number : natural? (natText n).toList = some n := by
    rw [natural?, if_pos (isDigits_natText n), decimalValue_natText]
  unfold int64?
  split
  next rest signed => exact absurd signed (natText_ne_cons (by decide) n rest)
  next rest signed => exact absurd signed (natText_ne_cons (by decide) n rest)
  next =>
    rw [number]
    rfl

theorem int64_bounds {n : Int} (read : int64? cs = some n) :
    -9223372036854775808 ≤ n ∧ n < 9223372036854775808 := by
  have power : Nat.pow 2 63 = 9223372036854775808 := by decide
  unfold int64? at read
  rw [power] at read
  split at read <;> simp only [Option.bind_eq_bind, Option.bind_eq_some_iff,
    Option.ite_none_right_eq_some, Option.some.injEq] at read
  all_goals
    obtain ⟨m, -, bound, rfl⟩ := read
    omega

theorem unsignedBelow_lt {limit n : Nat} (read : unsignedBelow? limit cs = some n) :
    n < limit := by
  simp only [unsignedBelow?, Option.bind_eq_bind, Option.bind_eq_some_iff,
    Option.ite_none_right_eq_some, Option.some.injEq] at read
  obtain ⟨m, -, below, rfl⟩ := read
  exact below

end PathEquiv.Text
