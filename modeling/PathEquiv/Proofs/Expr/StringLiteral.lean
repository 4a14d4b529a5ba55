import PathEquiv.Json.Reader
import PathEquiv.Proofs.Expr.Sorting

set_option autoImplicit false

namespace PathEquiv

def hexCode? (digits : List Char) : Option Nat :=
  digits.foldlM (fun n c => (Json.hexValue? c).map (16 * n + ·)) 0

/-- The code that an escape names: a backslash, `u` and four hexadecimal digits, or one to five of
them in braces. There are no codes from `0x30000` on. -/
def escapeCode? : List Char → Option Nat
  | '\\' :: 'u' :: '{' :: rest =>
      if rest.getLast? = some '}' && 2 ≤ rest.length && rest.length ≤ 6 then
        (hexCode? rest.dropLast).filter (· < 0x30000)
      else none
  | '\\' :: 'u' :: digits => if digits.length = 4 then hexCode? digits else none
  | _ => none

-- Gives the length of the escape besides its code.
def escapeHere? (cs : List Char) : Option (Nat × Nat) :=
  [5, 6, 7, 8, 9, 10].findSome? fun length =>
    (escapeCode? (cs.take length)).map fun code => (code, length)

-- `skip` counts the characters of the current escape still to be passed over.
def unescapeFrom : (skip : Nat) → List Char → List Nat
  | _, [] => []
  | skip + 1, _ :: rest => unescapeFrom skip rest
  | 0, c :: rest =>
      match escapeHere? (c :: rest) with
      | some (code, length) => code :: unescapeFrom (length - 1) rest
      | none => c.toNat :: unescapeFrom 0 rest

/-- The codes of the characters that a string constant denotes. -/
def stringCodes? : List Char → Option (List Nat)
  | '"' :: rest => if closesQuote rest then some (unescapeFrom 0 (undouble rest)) else none
  | _ => none

def characterCodes (value : String) : List Nat :=
  value.toList.map Char.toNat

def HoldsEscape (cs : List Char) : Prop :=
  ∃ escape code, escapeCode? escape = some code ∧ escape <:+: cs

theorem length_of_escapeCode {cs : List Char} {code : Nat} (escape : escapeCode? cs = some code) :
    cs.length ∈ [5, 6, 7, 8, 9, 10] := by
  have bounds : 5 ≤ cs.length ∧ cs.length ≤ 10 := by
    unfold escapeCode? at escape
    split at escape
    next rest =>
      split at escape
      next braced =>
        simp only [Bool.and_eq_true, decide_eq_true_eq] at braced
        simp only [List.length_cons]
        omega
      next => cases escape
    next digits _ =>
      split at escape
      next four =>
        simp only [List.length_cons]
        omega
      next => cases escape
    next => cases escape
  simp only [List.mem_cons, List.not_mem_nil, or_false]
  omega

theorem escapeHere_eq_none_iff {cs : List Char} :
    escapeHere? cs = none ↔ ∀ escape code, escapeCode? escape = some code → ¬escape <+: cs := by
  simp only [escapeHere?, List.findSome?_eq_none_iff, Option.map_eq_none_iff]
  constructor
  next =>
    intro none escape code found first
    have taken := none escape.length (length_of_escapeCode found)
    rw [← List.prefix_iff_eq_take.mp first, found] at taken
    cases taken
  next =>
    intro free length _
    cases found : escapeCode? (cs.take length) with
    | none => rfl
    | some code => exact absurd (List.take_prefix length cs) (free _ code found)

theorem length_of_escapeHere {cs : List Char} {code length : Nat}
    (found : escapeHere? cs = some (code, length)) : 5 ≤ length ∧ 5 ≤ cs.length := by
  obtain ⟨tried, listed, here⟩ := List.exists_of_findSome?_eq_some found
  obtain ⟨own, escape, same⟩ := Option.map_eq_some_iff.mp here
  cases same
  have taken := length_of_escapeCode escape
  simp only [List.length_take, List.mem_cons, List.not_mem_nil, or_false] at taken listed
  omega

theorem length_unescapeFrom_le (skip : Nat) (cs : List Char) :
    (unescapeFrom skip cs).length ≤ cs.length - skip := by
  induction cs generalizing skip with
  | nil => simp [unescapeFrom]
  | cons c cs ih =>
    cases skip with
    | succ skip =>
      have rest := ih skip
      rw [unescapeFrom, List.length_cons]
      omega
    | zero =>
      rw [unescapeFrom]
      split
      next code length found =>
        have rest := ih (length - 1)
        simp only [List.length_cons]
        omega
      next =>
        have rest := ih 0
        simp only [List.length_cons]
        omega

theorem holdsEscape_cons {c : Char} {cs : List Char} :
    HoldsEscape (c :: cs) ↔ escapeHere? (c :: cs) ≠ none ∨ HoldsEscape cs := by
  rw [ne_eq, escapeHere_eq_none_iff]
  unfold HoldsEscape
  simp only [List.infix_cons_iff]
  grind

theorem unescape_eq_codes_iff (cs : List Char) :
    unescapeFrom 0 cs = cs.map Char.toNat ↔ ¬HoldsEscape cs := by
  induction cs with
  | nil =>
    refine iff_of_true rfl ?_
    rintro ⟨escape, code, found, inside⟩
    rw [List.infix_nil.mp inside] at found
    cases found
  | cons c cs ih =>
    rw [holdsEscape_cons, unescapeFrom]
    split
    next code length found =>
      obtain ⟨long, enough⟩ := length_of_escapeHere found
      have shorter := length_unescapeFrom_le (length - 1) cs
      refine iff_of_false ?_ (by simp [found])
      intro same
      have lengths := congrArg List.length same
      simp only [List.length_cons, List.length_map] at lengths enough
      omega
    next none =>
      rw [List.map_cons, List.cons.injEq, and_iff_right rfl, ih]
      simp [none]

theorem stringCodes_print (value : String) :
    stringCodes? (Expr.string value).print.toList = some (unescapeFrom 0 value.toList) := by
  have text : (Expr.string value).print.toList = '"' :: (doubleQuotes value.toList ++ ['"']) := by
    simp [Expr.string, Expr.print, SmtSort.printLiteral]
  rw [text, stringCodes?, if_pos (closesQuote_doubleQuotes value.toList), undouble_doubleQuotes]

/-- The literal of a string denotes the string exactly where the string holds no escape, so no two
strings without escapes have literals that denote the same. -/
theorem string_literal_denotes_itself_iff (first second : String) :
    (∃ text denoted, (Expr.string first).smtlib = .ok text ∧
      stringCodes? text.toList = some denoted ∧
      (denoted = characterCodes first ↔ ¬HoldsEscape first.toList)) ∧
    (¬HoldsEscape first.toList → ¬HoldsEscape second.toList →
      stringCodes? (Expr.string first).print.toList =
        stringCodes? (Expr.string second).print.toList → first = second) := by
  constructor
  next =>
    refine ⟨(Expr.string first).print, unescapeFrom 0 first.toList, rfl, stringCodes_print first,
      ?_⟩
    exact unescape_eq_codes_iff first.toList
  next =>
    intro firstFree secondFree same
    rw [stringCodes_print, stringCodes_print, Option.some.injEq,
      (unescape_eq_codes_iff _).mpr firstFree, (unescape_eq_codes_iff _).mpr secondFree] at same
    have injective : Function.Injective Char.toNat := fun a b => Char.toNat_inj.mp
    exact String.toList_inj.mp (injective.list_map same)

theorem string_literal_denotes_itself_unfinished :
    let first := "\"\\u12\" \\u\x7b\x7d \\u\x7b30000\x7d"
    let second := "\"\"\\u12\" \\u\x7b\x7d \\u\x7b30000\x7d"
    ¬HoldsEscape first.toList ∧ ¬HoldsEscape second.toList ∧
      stringCodes? (Expr.string first).print.toList ≠
        stringCodes? (Expr.string second).print.toList := by
  intro first second
  have firstFree := (unescape_eq_codes_iff first.toList).mp (by decide +kernel)
  have secondFree := (unescape_eq_codes_iff second.toList).mp (by decide +kernel)
  refine ⟨firstFree, secondFree, fun same => ?_⟩
  have equal := (string_literal_denotes_itself_iff first second).2 firstFree secondFree same
  revert equal
  decide

theorem escape_literal_denotes_other :
    let escape := "\\u\x7b41\x7d"
    (Expr.string escape).Valid ∧ (Expr.string "A").Valid ∧ escape ≠ "A" ∧
      stringCodes? (Expr.string escape).print.toList = some (characterCodes "A") ∧
      stringCodes? (Expr.string "A").print.toList = some (characterCodes "A") := by
  intro escape
  exact ⟨rfl, rfl, by decide, by decide +kernel, by decide +kernel⟩

end PathEquiv
