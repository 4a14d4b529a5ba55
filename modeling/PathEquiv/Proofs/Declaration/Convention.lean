import PathEquiv.Declaration.Convention
import PathEquiv.Proofs.Declaration.Introduced
import PathEquiv.Proofs.Expr.Canonical

set_option autoImplicit false

namespace PathEquiv

def Text.splitsWords (c : Char) : Bool :=
  !Text.isWord c && !Text.isDigit c

section Scan

variable {stem : List Char}

theorem nameHere_append {c : Char} (absent : c ∉ stem) (splits : Text.splitsWords c = true)
    (cs more : List Char) : nameHere? stem (cs ++ c :: more) = nameHere? stem cs := by
  simp only [Text.splitsWords, Bool.and_eq_true, Bool.not_eq_true'] at splits
  obtain ⟨noWord, noDigit⟩ := splits
  unfold nameHere?
  rw [after_append_of_not_mem absent]
  cases Text.after? stem cs with
  | none => rfl
  | some rest =>
    have digits := takeWhile_append_stop noDigit rest more
    simp only [Option.map_some, digits, List.dropWhile_append]
    by_cases ended : rest.dropWhile Text.isDigit = []
    next => simp [ended, noDigit, noWord]
    next =>
      obtain ⟨d, others, shape⟩ := List.exists_cons_of_ne_nil ended
      simp [shape]

theorem nameHere_nil (nonempty : stem ≠ []) : nameHere? stem [] = none := by
  cases stem with
  | nil => exact absurd rfl nonempty
  | cons => rfl

theorem namesIn_append {c : Char} (nonempty : stem ≠ []) (absent : c ∉ stem)
    (splits : Text.splitsWords c = true) (cs more : List Char) (inWord : Bool) :
    namesIn stem inWord (cs ++ c :: more) = namesIn stem inWord cs ++ namesIn stem false more := by
  have noWord : Text.isWord c = false := by
    simp only [Text.splitsWords, Bool.and_eq_true, Bool.not_eq_true'] at splits
    exact splits.1
  induction cs generalizing inWord with
  | nil =>
    have none : nameHere? stem (c :: more) = none := by
      rw [← List.nil_append (c :: more), nameHere_append absent splits, nameHere_nil nonempty]
    simp [namesIn, none, noWord]
  | cons d cs ih =>
    have here := nameHere_append absent splits (d :: cs) more
    rw [List.cons_append] at here ⊢
    simp only [namesIn, here, ih]
    split <;> rfl

theorem namesIn_of_not_mem {first : Char} {rest cs : List Char} (absent : first ∉ cs)
    (inWord : Bool) : namesIn (first :: rest) inWord cs = [] := by
  induction cs generalizing inWord with
  | nil => rfl
  | cons c cs ih =>
    rw [List.mem_cons, not_or] at absent
    have none : nameHere? (first :: rest) (c :: cs) = none := by
      simp [nameHere?, Text.after?, absent.1]
    simp [namesIn, none, ih absent.2]

theorem namesIn_of_words {cs : List Char} (words : ∀ c ∈ cs, Text.isWord c = true) :
    namesIn stem true cs = [] := by
  induction cs with
  | nil => rfl
  | cons c cs ih =>
    have rest := ih fun d member => words d (by simp [member])
    simp [namesIn, words c (by simp), rest]

theorem namesIn_doubleQuotes (nonempty : stem ≠ []) (absent : '"' ∉ stem) (cs before : List Char)
    (inWord : Bool) :
    namesIn stem inWord (before ++ doubleQuotes cs) = namesIn stem inWord (before ++ cs) := by
  have splits : Text.splitsWords '"' = true := by decide
  induction cs generalizing before inWord with
  | nil => rfl
  | cons c cs ih =>
    by_cases quote : c = '"'
    next =>
      have twice : doubleQuotes (c :: cs) = '"' :: '"' :: doubleQuotes cs := by
        simp [doubleQuotes, quote]
      have second : namesIn stem false ('"' :: doubleQuotes cs) =
          namesIn stem false (doubleQuotes cs) :=
        namesIn_append nonempty absent splits [] (doubleQuotes cs) false
      have rest : namesIn stem false (doubleQuotes cs) = namesIn stem false cs := ih [] false
      rw [twice, quote, namesIn_append nonempty absent splits,
        namesIn_append nonempty absent splits, second, rest]
    next =>
      have once : doubleQuotes (c :: cs) = c :: doubleQuotes cs := by simp [doubleQuotes, quote]
      rw [once, List.append_cons, List.append_cons before c cs]
      exact ih (before ++ [c]) inWord

theorem eq_of_nameHere {cs name : List Char} (found : nameHere? stem cs = some name) :
    ∃ digits, name = stem ++ digits ∧ ∀ c ∈ digits, Text.isDigit c = true := by
  unfold nameHere? at found
  cases after : Text.after? stem cs with
  | none => simp [after] at found
  | some rest =>
    simp only [after, Option.ite_none_right_eq_some, Option.some.injEq] at found
    exact ⟨_, found.2.symm, fun c member => List.mem_takeWhile_imp member⟩

theorem eq_of_mem_namesIn {cs name : List Char} {inWord : Bool}
    (member : name ∈ namesIn stem inWord cs) :
    ∃ digits, name = stem ++ digits ∧ ∀ c ∈ digits, Text.isDigit c = true := by
  induction cs generalizing inWord with
  | nil => cases member
  | cons c cs ih =>
    rw [namesIn] at member
    split at member
    next found here =>
      rcases List.mem_cons.mp member with rfl | later
      · split at here
        next => cases here
        next => exact eq_of_nameHere here
      · exact ih later
    next => exact ih member

end Scan

theorem Text.word_of_digit {c : Char} (digit : Text.isDigit c = true) : Text.isWord c = true := by
  -- `Nat.ble` is evaluated faster than the decision of `≤`.
  have covered : digitRanges.all (fun digits => wordRanges.any fun words =>
      Nat.ble words.1 digits.1 && Nat.ble digits.2 words.2) = true := by
    decide +kernel
  unfold Text.isDigit at digit
  unfold Text.isWord
  split at digit
  next low => simp [low, Char.isAlphanum, digit]
  next high =>
    rw [inRanges, List.any_eq_true] at digit
    obtain ⟨digits, listed, within⟩ := digit
    have found := List.all_eq_true.mp covered digits listed
    rw [List.any_eq_true] at found
    obtain ⟨words, wordsListed, includes⟩ := found
    rw [if_neg high, inRanges, List.any_eq_true]
    simp only [Bool.and_eq_true, decide_eq_true_eq, Nat.ble_eq] at within includes
    refine ⟨words, wordsListed, ?_⟩
    simp only [Bool.and_eq_true, decide_eq_true_eq]
    omega

section Names

variable {sort : SmtSort} {stem : List Char}

theorem stem_cases (found : sort.stem? = some stem) :
    sort = .integer ∧ stem = ['I', 'N', 'T'] ∨
      sort = .real ∧ stem = ['R', 'E', 'A', 'L', '_'] := by
  cases sort <;> simp_all [SmtSort.stem?]

theorem stem_ne_nil (found : sort.stem? = some stem) : stem ≠ [] := by
  rcases stem_cases found with ⟨-, rfl⟩ | ⟨-, rfl⟩ <;> simp

theorem stem_words (found : sort.stem? = some stem) : ∀ c ∈ stem, Text.isWord c = true := by
  have words : ['I', 'N', 'T'].all Text.isWord = true ∧
      ['R', 'E', 'A', 'L', '_'].all Text.isWord = true := by
    decide
  rcases stem_cases found with ⟨-, rfl⟩ | ⟨-, rfl⟩
  · exact List.all_eq_true.mp words.1
  · exact List.all_eq_true.mp words.2

theorem not_mem_stem (found : sort.stem? = some stem) {c : Char}
    (splits : Text.splitsWords c = true) : c ∉ stem := by
  intro member
  simp [Text.splitsWords, stem_words found c member] at splits

theorem conventionalNames_of_stem (found : sort.stem? = some stem) (text : String) :
    conventionalNames sort text = (namesIn stem false text.toList).map String.ofList := by
  rw [conventionalNames, found]

theorem conventionalNames_of_none (none : sort.stem? = none) (text : String) :
    conventionalNames sort text = [] := by
  rw [conventionalNames, none]

theorem conventionalNames_append {c : Char} (splits : Text.splitsWords c = true)
    (first second : String) :
    conventionalNames sort (first ++ String.singleton c ++ second) =
      conventionalNames sort first ++ conventionalNames sort second := by
  cases found : sort.stem? with
  | none => simp [conventionalNames_of_none found]
  | some stem =>
    have scanned := namesIn_append (stem_ne_nil found) (not_mem_stem found splits) splits
      first.toList second.toList false
    simp [conventionalNames_of_stem found, scanned]

theorem conventionalNames_of_not_mem {text : String} (integer : 'I' ∉ text.toList)
    (real : 'R' ∉ text.toList) : conventionalNames sort text = [] := by
  cases found : sort.stem? with
  | none => exact conventionalNames_of_none found text
  | some stem =>
    rw [conventionalNames_of_stem found]
    rcases stem_cases found with ⟨-, rfl⟩ | ⟨-, rfl⟩
    · rw [namesIn_of_not_mem integer, List.map_nil]
    · rw [namesIn_of_not_mem real, List.map_nil]

theorem conventionalNames_quoted (value : String) :
    conventionalNames sort (SmtSort.string.printLiteral value) = conventionalNames sort value := by
  have splits : Text.splitsWords '"' = true := by decide
  have empty : conventionalNames sort "" = [] := conventionalNames_of_not_mem (by simp) (by simp)
  have text : SmtSort.string.printLiteral value = "" ++ String.singleton '"' ++
      (String.ofList (doubleQuotes value.toList) ++ String.singleton '"' ++ "") := by
    simp [SmtSort.printLiteral]
    rfl
  have doubled : conventionalNames sort (String.ofList (doubleQuotes value.toList)) =
      conventionalNames sort value := by
    cases found : sort.stem? with
    | none => simp [conventionalNames_of_none found]
    | some stem =>
      have unquoted := namesIn_doubleQuotes (stem_ne_nil found) (not_mem_stem found splits)
        value.toList [] false
      simpa [conventionalNames_of_stem found] using congrArg (List.map String.ofList) unquoted
  rw [text, conventionalNames_append splits, conventionalNames_append splits, empty, doubled]
  simp

theorem eq_of_conventionSort {name : String} (conventional : conventionSort? name = some sort) :
    ∃ stem digits, sort.stem? = some stem ∧ nameHere? stem name.toList = some name.toList ∧
      name.toList = stem ++ digits ∧ ∀ c ∈ digits, Text.isDigit c = true := by
  have matched : isConventional name sort = true := List.find?_some conventional
  unfold isConventional at matched
  cases found : sort.stem? with
  | none => simp [found] at matched
  | some stem =>
    simp only [found, beq_iff_eq] at matched
    obtain ⟨digits, shape, each⟩ := eq_of_nameHere matched
    exact ⟨stem, digits, rfl, matched, shape, each⟩

theorem eq_of_mem_conventionalNames {name text : String}
    (member : name ∈ conventionalNames sort text) :
    ∃ stem digits, sort.stem? = some stem ∧ name.toList = stem ++ digits := by
  cases found : sort.stem? with
  | none =>
    rw [conventionalNames_of_none found] at member
    cases member
  | some stem =>
    rw [conventionalNames_of_stem found, List.mem_map] at member
    obtain ⟨chars, inside, rfl⟩ := member
    obtain ⟨digits, shape, -⟩ := eq_of_mem_namesIn inside
    exact ⟨stem, digits, rfl, by simpa using shape⟩

theorem sort_of_mem_conventionalNames {own : SmtSort} {name text : String}
    (member : name ∈ conventionalNames sort text)
    (conventional : conventionSort? name = some own) : own = sort := by
  obtain ⟨stem, digits, found, shape⟩ := eq_of_mem_conventionalNames member
  obtain ⟨ownStem, ownDigits, ownFound, -, ownShape, -⟩ := eq_of_conventionSort conventional
  rw [shape] at ownShape
  rcases stem_cases found with ⟨rfl, rfl⟩ | ⟨rfl, rfl⟩ <;>
    rcases stem_cases ownFound with ⟨rfl, rfl⟩ | ⟨rfl, rfl⟩ <;> simp_all

theorem conventionalNames_name {own : SmtSort} {name : String}
    (conventional : conventionSort? name = some own) :
    conventionalNames sort name = if own = sort then [name] else [] := by
  obtain ⟨stem, digits, found, whole, shape, each⟩ := eq_of_conventionSort conventional
  split
  next same =>
    subst same
    have words : ∀ c ∈ name.toList, Text.isWord c = true := by
      intro c member
      rw [shape] at member
      rcases List.mem_append.mp member with inStem | inDigits
      · exact stem_words found c inStem
      · exact Text.word_of_digit (each c inDigits)
    have scanned : namesIn stem false name.toList = [name.toList] := by
      cases chars : name.toList with
      | nil =>
        rw [chars, nameHere_nil (stem_ne_nil found)] at whole
        cases whole
      | cons c rest =>
        rw [chars] at whole words
        have later : namesIn stem true rest = [] :=
          namesIn_of_words fun d member => words d (by simp [member])
        simp [namesIn, whole, words c (by simp), later]
    rw [conventionalNames_of_stem found, scanned]
    simp
  next other =>
    -- The first letter of each stem stands neither in the other stem nor among digits.
    have letters : Text.isDigit 'I' = false ∧ Text.isDigit 'R' = false := by decide
    have absent (letter : Char) (noDigit : Text.isDigit letter = false) (outside : letter ∉ stem) :
        letter ∉ name.toList := by
      rw [shape, List.mem_append, not_or]
      refine ⟨outside, fun member => ?_⟩
      rw [each letter member] at noDigit
      cases noDigit
    cases sought : sort.stem? with
    | none => exact conventionalNames_of_none sought name
    | some soughtStem =>
      rw [conventionalNames_of_stem sought]
      rcases stem_cases sought with ⟨rfl, rfl⟩ | ⟨rfl, rfl⟩
      · rcases stem_cases found with ⟨rfl, rfl⟩ | ⟨rfl, rfl⟩
        · exact absurd rfl other
        · rw [namesIn_of_not_mem (absent 'I' letters.1 (by simp)), List.map_nil]
      · rcases stem_cases found with ⟨rfl, rfl⟩ | ⟨rfl, rfl⟩
        · rw [namesIn_of_not_mem (absent 'R' letters.2 (by simp)), List.map_nil]
        · exact absurd rfl other

theorem conventionalNames_join (texts : List String) :
    conventionalNames sort (String.intercalate " " texts) =
      texts.flatMap (conventionalNames sort) := by
  induction texts with
  | nil => exact conventionalNames_of_not_mem (by simp) (by simp)
  | cons text others ih =>
    cases others with
    | nil => simp
    | cons second others =>
      have split : String.intercalate " " (text :: second :: others) =
          text ++ String.singleton ' ' ++ String.intercalate " " (second :: others) := by
        rw [String.intercalate_cons_cons]
        rfl
      rw [split, conventionalNames_append (by decide), ih]
      rfl

theorem conventionalNames_application (symbol : String) (texts : List String) :
    conventionalNames sort (application symbol texts) =
      conventionalNames sort symbol ++ texts.flatMap (conventionalNames sort) := by
  have empty : conventionalNames sort "" = [] := conventionalNames_of_not_mem (by simp) (by simp)
  have split : application symbol texts = "" ++ String.singleton '(' ++ (symbol ++
      String.singleton ' ' ++ (String.intercalate " " texts ++ String.singleton ')' ++ "")) := by
    apply String.toList_inj.mp
    simp [application]
  rw [split, conventionalNames_append (by decide), conventionalNames_append (by decide),
    conventionalNames_append (by decide), empty, conventionalNames_join]
  simp

theorem conventionalNames_call (function : String) (texts : List String) :
    conventionalNames sort (printCall function texts) =
      conventionalNames sort (callSymbol function) ++ texts.flatMap (conventionalNames sort) := by
  cases texts with
  | nil => simp [printCall]
  | cons text texts => exact conventionalNames_application (callSymbol function) (text :: texts)

theorem conventionalNames_operator (opcode : Opcode) (texts : List String) :
    conventionalNames sort (printOperator opcode texts) =
      texts.flatMap (conventionalNames sort) := by
  rcases printOperator_cases opcode texts with applied | ⟨rfl, constant⟩ | single
  · have none : conventionalNames sort opcode.symbol = [] := by
      apply conventionalNames_of_not_mem
      · cases opcode <;> decide
      · cases opcode <;> decide
    rw [applied, conventionalNames_application, none, List.nil_append]
  · simp only [List.mem_cons, List.not_mem_nil, or_false] at constant
    rcases constant with same | same
    · rw [same]
      exact conventionalNames_of_not_mem (by decide) (by decide)
    · rw [same]
      exact conventionalNames_of_not_mem (by decide) (by decide)
  · generalize printOperator opcode texts = text at single ⊢
    simp [single]

theorem mem_signed {value : String} {written : List Char → List Char} {c : Char}
    (member : c ∈ (signed value written).toList) :
    c ∈ ['(', '-', ' ', ')'] ∨ c ∈ written (magnitude value.toList) := by
  unfold signed at member
  split at member
  next digits shape =>
    rw [shape, magnitude]
    simp at member ⊢
    grind
  next positive =>
    rw [magnitude_of_positive positive]
    exact .inr (by simpa using member)

theorem conventionalNames_signed {value : String} {written : List Char → List Char}
    (number : ∀ c ∈ written (magnitude value.toList), Text.isDecimalDigit c = true ∨ c = '.') :
    conventionalNames sort (signed value written) = [] := by
  have absent (letter : Char) (other : letter ∉ ['(', '-', ' ', ')', '.'])
      (noDigit : Text.isDecimalDigit letter = false) : letter ∉ (signed value written).toList := by
    intro member
    rcases mem_signed member with mark | inside
    · simp at mark other
      grind
    · rcases number letter inside with digit | rfl
      · rw [noDigit] at digit
        cases digit
      · simp at other
  exact conventionalNames_of_not_mem (absent 'I' (by decide) (by decide))
    (absent 'R' (by decide) (by decide))

theorem conventionalNames_literal {own : SmtSort} {value : String} (other : own ≠ .string)
    (spelled : own.spells value = true) :
    conventionalNames sort (own.printLiteral value) = [] := by
  cases own with
  | integer =>
    simp only [SmtSort.spells, Text.isDigits, Bool.and_eq_true, List.all_eq_true] at spelled
    exact conventionalNames_signed fun c member => .inl (spelled.2 c member)
  | real =>
    obtain ⟨-, digits⟩ := digit_or_point_of_spells_real spelled
    apply conventionalNames_signed
    intro c member
    unfold withPoint at member
    split at member
    next => exact digits c member
    next =>
      simp only [List.mem_append, List.mem_cons, List.not_mem_nil, or_false] at member
      rcases member with inside | rfl | rfl
      · exact digits c inside
      · exact .inr rfl
      · exact .inl (by decide)
  | boolean =>
    simp only [SmtSort.spells, Bool.or_eq_true, beq_iff_eq] at spelled
    rcases spelled with rfl | rfl
    · exact conventionalNames_of_not_mem (by decide) (by decide)
    · exact conventionalNames_of_not_mem (by decide) (by decide)
  | string => exact absurd rfl other

end Names

namespace Expr

mutual

def stringValues : Expr → List String
  | .literal value sort => if sort = .string then [value] else []
  | .var _ _ => []
  | .op _ operands | .call _ _ operands => stringValuesAll operands

def stringValuesAll : List Expr → List String
  | [] => []
  | e :: es => stringValues e ++ stringValuesAll es

end

theorem stringValuesAll_eq (es : List Expr) : stringValuesAll es = es.flatMap stringValues := by
  induction es with
  | nil => rfl
  | cons e es ih => simp [stringValuesAll, ih]

end Expr

theorem mem_conventionalNames_operands {operands : List Expr} {sort : SmtSort} {name : String}
    (each : ∀ e ∈ operands, (name ∈ conventionalNames sort e.print ↔
      (∃ d ∈ e.uses, name ∈ conventionalNames sort d.name) ∨
        ∃ value ∈ e.stringValues, name ∈ conventionalNames sort value)) :
    name ∈ (operands.map Expr.print).flatMap (conventionalNames sort) ↔
      (∃ d ∈ operands.flatMap Expr.uses, name ∈ conventionalNames sort d.name) ∨
        ∃ value ∈ operands.flatMap Expr.stringValues, name ∈ conventionalNames sort value := by
  simp only [List.mem_flatMap, List.mem_map]
  constructor
  next =>
    rintro ⟨text, ⟨e, member, rfl⟩, inText⟩
    rcases (each e member).mp inText with ⟨d, used, inName⟩ | ⟨value, inValues, inValue⟩
    · exact .inl ⟨d, ⟨e, member, used⟩, inName⟩
    · exact .inr ⟨value, ⟨e, member, inValues⟩, inValue⟩
  next =>
    rintro (⟨d, ⟨e, member, used⟩, inName⟩ | ⟨value, ⟨e, member, inValues⟩, inValue⟩)
    · exact ⟨e.print, ⟨e, member, rfl⟩, (each e member).mpr (.inl ⟨d, used, inName⟩)⟩
    · exact ⟨e.print, ⟨e, member, rfl⟩, (each e member).mpr (.inr ⟨value, inValues, inValue⟩)⟩

/-- The conventional names in the text of an expression are those inside of its symbols and of its
string literals. -/
theorem mem_conventionalNames_print {e : Expr} (valid : e.Valid) {sort : SmtSort} {name : String} :
    name ∈ conventionalNames sort e.print ↔
      (∃ d ∈ e.uses, name ∈ conventionalNames sort d.name) ∨
        ∃ value ∈ e.stringValues, name ∈ conventionalNames sort value := by
  induction e using Expr.operandInduction with
  | literal value own =>
    rw [Expr.print]
    by_cases string : own = .string
    next =>
      -- The scan does not know quotes: it finds in the literal what stands in its value.
      subst string
      simp [Expr.uses, Expr.stringValues, conventionalNames_quoted]
    next =>
      simp [Expr.uses, Expr.stringValues, string,
        conventionalNames_literal string (Expr.valid_literal.mp valid)]
  | var own ownSort => simp [Expr.print, Expr.uses, Expr.stringValues, Declaration.constant]
  | op opcode operands ih =>
    obtain ⟨-, operandsValid⟩ := Expr.valid_op.mp valid
    have each := fun e member => ih e member (operandsValid e member)
    rw [Expr.print, Expr.printAll_eq, conventionalNames_operator, Expr.uses, Expr.usesAll_eq,
      Expr.stringValues, Expr.stringValuesAll_eq]
    exact mem_conventionalNames_operands each
  | call function own operands ih =>
    obtain ⟨-, operandsValid⟩ := Expr.valid_call.mp valid
    have each := fun e member => ih e member (operandsValid e member)
    rw [Expr.print, Expr.printAll_eq, conventionalNames_call, List.mem_append,
      mem_conventionalNames_operands each, Expr.uses, Expr.usesAll_eq, Expr.stringValues,
      Expr.stringValuesAll_eq]
    simp [Expr.callDeclaration, or_assoc]

end PathEquiv
