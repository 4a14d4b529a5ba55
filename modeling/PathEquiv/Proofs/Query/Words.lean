import PathEquiv.Proofs.Query.Textual

set_option autoImplicit false

namespace PathEquiv

theorem nameHere_eq_some_iff {stem cs name : List Char} :
    nameHere? stem cs = some name ↔
      ∃ digits after, digits ≠ [] ∧ (∀ c ∈ digits, Text.isDigit c = true) ∧
        (∀ c ∈ after.head?, Text.isWord c = false) ∧ name = stem ++ digits ∧
        cs = stem ++ digits ++ after := by
  constructor
  next =>
    intro found
    unfold nameHere? at found
    split at found
    next => cases found
    next rest matched =>
      simp only [Option.ite_none_right_eq_some, Bool.and_eq_true, Bool.not_eq_true',
        List.isEmpty_eq_false_iff, Option.some.injEq] at found
      obtain ⟨⟨nonempty, ends⟩, same⟩ := found
      refine ⟨rest.takeWhile Text.isDigit, rest.dropWhile Text.isDigit, nonempty, ?_, ?_, same.symm,
        ?_⟩
      · exact fun c member => List.mem_takeWhile_imp member
      · intro c first
        cases shape : rest.dropWhile Text.isDigit with
        | nil => simp [shape] at first
        | cons d others => simp_all
      · rw [List.append_assoc, List.takeWhile_append_dropWhile]
        exact Text.eq_append_of_after matched
  next =>
    rintro ⟨digits, after, nonempty, each, ends, rfl, rfl⟩
    have stops : after.takeWhile Text.isDigit = [] ∧ after.dropWhile Text.isDigit = after := by
      cases after with
      | nil => exact ⟨rfl, rfl⟩
      | cons c after =>
        have noDigit : Text.isDigit c = false := by
          rw [← Bool.not_eq_true]
          intro digit
          have noWord := ends c rfl
          rw [Text.word_of_digit digit] at noWord
          cases noWord
        simp [noDigit]
    rw [nameHere?, List.append_assoc, Text.after_append]
    simp only [List.takeWhile_append_of_pos each, List.dropWhile_append_of_pos each, stops.1,
      stops.2, List.append_nil]
    cases after with
    | nil => simp [nonempty]
    | cons c after => simp [nonempty, ends c rfl]

theorem mem_namesIn_iff {stem cs name : List Char} {inWord : Bool} :
    name ∈ namesIn stem inWord cs ↔
      ∃ before rest, cs = before ++ rest ∧ nameHere? stem rest = some name ∧
        before.getLast?.elim inWord Text.isWord = false := by
  induction cs generalizing inWord with
  | nil =>
    refine iff_of_false (by simp [namesIn]) ?_
    rintro ⟨before, rest, whole, here, -⟩
    obtain ⟨digits, after, nonempty, -, -, -, shape⟩ := nameHere_eq_some_iff.mp here
    have empty : rest = [] := (List.append_eq_nil_iff.mp whole.symm).2
    rw [empty] at shape
    simp [nonempty] at shape
  | cons c cs ih =>
    have step : name ∈ namesIn stem inWord (c :: cs) ↔
        inWord = false ∧ nameHere? stem (c :: cs) = some name ∨
          name ∈ namesIn stem (Text.isWord c) cs := by
      rw [namesIn]
      cases inWord with
      | true => simp
      | false =>
        cases here : nameHere? stem (c :: cs) with
        | none => simp
        | some found => simp [eq_comm]
    rw [step, ih]
    constructor
    next =>
      rintro (⟨outside, here⟩ | ⟨before, rest, rfl, here, boundary⟩)
      · exact ⟨[], c :: cs, rfl, here, outside⟩
      · refine ⟨c :: before, rest, rfl, here, ?_⟩
        rw [List.getLast?_cons]
        cases last : before.getLast? <;> simpa [last] using boundary
    next =>
      rintro ⟨before, rest, whole, here, boundary⟩
      cases before with
      | nil =>
        left
        rw [List.nil_append] at whole
        exact ⟨boundary, whole ▸ here⟩
      | cons d before =>
        right
        obtain ⟨rfl, rfl⟩ := List.cons.inj whole
        refine ⟨before, rest, rfl, here, ?_⟩
        rw [List.getLast?_cons] at boundary
        cases last : before.getLast? <;> simpa [last] using boundary

/-- A part of a text with no word character just before it and none just after it. -/
def IsWordOf (word text : String) : Prop :=
  ∃ before after, text.toList = before ++ word.toList ++ after ∧
    (∀ c ∈ before.getLast?, Text.isWord c = false) ∧
    ∀ c ∈ after.head?, Text.isWord c = false

theorem IsWordOf.self (text : String) : IsWordOf text text :=
  ⟨[], [], by simp, by simp, by simp⟩

theorem conventionSort_eq_some_iff {name : String} {sort : SmtSort} :
    conventionSort? name = some sort ↔
      ∃ stem digits, sort.stem? = some stem ∧ digits ≠ [] ∧
        (∀ c ∈ digits, Text.isDigit c = true) ∧ name.toList = stem ++ digits := by
  constructor
  next =>
    intro conventional
    obtain ⟨stem, -, found, whole, -, -⟩ := eq_of_conventionSort conventional
    obtain ⟨digits, -, nonempty, each, -, shape, -⟩ := nameHere_eq_some_iff.mp whole
    exact ⟨stem, digits, found, nonempty, each, shape⟩
  next =>
    rintro ⟨stem, digits, found, nonempty, each, shape⟩
    have whole : nameHere? stem name.toList = some name.toList := by
      rw [nameHere_eq_some_iff]
      exact ⟨digits, [], nonempty, each, by simp, shape, by simp [shape]⟩
    have named : isConventional name sort = true := by
      simp [isConventional, found, whole]
    have listed : sort ∈ SmtSort.all := by cases sort <;> decide
    cases first : conventionSort? name with
    | none => exact absurd named (List.find?_eq_none.mp first sort listed)
    | some own =>
      -- The first letters of the stems differ, so a name has at most one sort.
      obtain ⟨ownStem, ownDigits, ownFound, -, ownShape, -⟩ := eq_of_conventionSort first
      rw [shape] at ownShape
      rcases stem_cases found with ⟨rfl, rfl⟩ | ⟨rfl, rfl⟩ <;>
        rcases stem_cases ownFound with ⟨rfl, rfl⟩ | ⟨rfl, rfl⟩ <;> simp_all

theorem mem_conventionalNames_iff {sort : SmtSort} {name text : String} :
    name ∈ conventionalNames sort text ↔
      conventionSort? name = some sort ∧ IsWordOf name text := by
  rw [conventionSort_eq_some_iff]
  cases found : sort.stem? with
  | none => simp [conventionalNames_of_none found]
  | some stem =>
    rw [conventionalNames_of_stem found]
    constructor
    next =>
      intro member
      obtain ⟨chars, inside, rfl⟩ := List.mem_map.mp member
      obtain ⟨before, rest, whole, here, boundary⟩ := mem_namesIn_iff.mp inside
      obtain ⟨digits, after, nonempty, each, ends, rfl, rfl⟩ := nameHere_eq_some_iff.mp here
      refine ⟨⟨stem, digits, rfl, nonempty, each, by simp⟩, before, after, ?_, ?_, ends⟩
      · simpa using whole
      · intro c last
        simpa [Option.mem_def.mp last] using boundary
    next =>
      rintro ⟨⟨_, digits, ⟨⟩, nonempty, each, shape⟩, before, after, whole, boundary, ends⟩
      refine List.mem_map.mpr ⟨name.toList, mem_namesIn_iff.mpr ?_, by simp⟩
      refine ⟨before, name.toList ++ after, by simpa using whole, ?_, ?_⟩
      · exact nameHere_eq_some_iff.mpr ⟨digits, after, nonempty, each, ends, shape, by rw [shape]⟩
      · cases last : before.getLast? with
        | none => rfl
        | some c => exact boundary c last

/-- A constant with the sort that its name tells, which is not known yet. -/
structure Declaration.NamesSort (d : Declaration) (known : KnownDeclarations) : Prop where
  arguments : d.arguments = []
  sort : conventionSort? d.name = some d.sort
  unknown : known.contains d.name = false

theorem mem_inferFromText_iff {known : KnownDeclarations} {text : String} {d : Declaration} :
    d ∈ inferFromText known text ↔ d.NamesSort known ∧ IsWordOf d.name text := by
  rw [mem_inferFromText, mem_conventionalNames_iff]
  constructor
  next =>
    rintro ⟨arguments, ⟨sort, word⟩, unknown⟩
    exact ⟨⟨arguments, sort, unknown⟩, word⟩
  next =>
    rintro ⟨⟨arguments, sort, unknown⟩, word⟩
    exact ⟨arguments, ⟨sort, word⟩, unknown⟩

theorem nodup_names_inferFromText (known : KnownDeclarations) (text : String) :
    ((inferFromText known text).map Declaration.name).Nodup := by
  refine (nodup_inferFromText known text).map_on ?_
  intro first firstDeclared second secondDeclared same
  obtain ⟨firstNamed, -⟩ := mem_inferFromText_iff.mp firstDeclared
  obtain ⟨secondNamed, -⟩ := mem_inferFromText_iff.mp secondDeclared
  have sorts : first.sort = second.sort := by
    have told := firstNamed.sort
    rw [same, secondNamed.sort, Option.some.injEq] at told
    exact told.symm
  rw [← Declaration.constant_eq firstNamed.arguments, same, sorts,
    Declaration.constant_eq secondNamed.arguments]

theorem mem_inferFromText_print {known : KnownDeclarations} {e : Expr} (valid : e.Valid)
    (plain : e.stringValues = []) {d : Declaration} :
    d ∈ inferFromText known e.print ↔
      d.NamesSort known ∧ ∃ symbol ∈ e.uses.map Declaration.name, IsWordOf d.name symbol := by
  rw [mem_inferFromText, mem_conventionalNames_print valid, plain]
  simp only [mem_conventionalNames_iff, List.mem_map, List.not_mem_nil, false_and, exists_false,
    or_false]
  constructor
  next =>
    rintro ⟨arguments, ⟨use, used, sort, word⟩, unknown⟩
    exact ⟨⟨arguments, sort, unknown⟩, use.name, ⟨use, used, rfl⟩, word⟩
  next =>
    rintro ⟨⟨arguments, sort, unknown⟩, _, ⟨use, used, rfl⟩, word⟩
    exact ⟨arguments, ⟨use, used, sort, word⟩, unknown⟩

/-- The text of an expression declares the conventional words of its symbols. These are conventional
symbols of the expression themselves exactly where no symbol holds such a word that is not. -/
theorem textual_declares_whole_symbols_iff (known : KnownDeclarations) {e : Expr} (valid : e.Valid)
    (plain : e.stringValues = []) :
    let declared := inferFromText known e.print
    let symbols := e.uses.map Declaration.name
    (declared.map Declaration.name).Nodup ∧
      (∀ d, d ∈ declared ↔
        d.NamesSort known ∧ ∃ symbol ∈ symbols, IsWordOf d.name symbol) ∧
      ((∀ d, d ∈ declared ↔ d.NamesSort known ∧ d.name ∈ symbols) ↔
        ∀ symbol ∈ symbols, ∀ word sort, IsWordOf word symbol →
          conventionSort? word = some sort → known.contains word = false → word ∈ symbols) := by
  intro declared symbols
  have words (d : Declaration) : d ∈ declared ↔
      d.NamesSort known ∧ ∃ symbol ∈ symbols, IsWordOf d.name symbol :=
    mem_inferFromText_print valid plain
  refine ⟨nodup_names_inferFromText known e.print, words, ?_⟩
  constructor
  next =>
    intro exactly symbol member word sort inside conventional unknown
    have named : (Declaration.constant word sort).NamesSort known := ⟨rfl, conventional, unknown⟩
    have declaredWord := (words (.constant word sort)).mpr ⟨named, symbol, member, inside⟩
    exact ((exactly (.constant word sort)).mp declaredWord).2
  next =>
    intro whole d
    rw [words]
    constructor
    next =>
      rintro ⟨named, symbol, member, inside⟩
      exact ⟨named, whole symbol member d.name d.sort inside named.sort named.unknown⟩
    next =>
      rintro ⟨named, member⟩
      exact ⟨named, d.name, member, IsWordOf.self d.name⟩

theorem textual_declares_whole_symbols_shared :
    let e := (Expr.intVar "x.INT1").add ((Expr.intVar "INT1").add
      (.call "round-up" .integer [.realVar "REAL_7"]))
    let known := KnownDeclarations.parse "(declare-fun REAL_7 () Real)"
    e.Valid ∧ e.stringValues = [] ∧ .constant "INT1" .integer ∈ inferFromText known e.print ∧
      ((inferFromText known e.print).map Declaration.name).Nodup := by
  intro e known
  have valid : e.Valid := rfl
  have plain : e.stringValues = [] := rfl
  obtain ⟨distinct, words, -⟩ := textual_declares_whole_symbols_iff known valid plain
  refine ⟨valid, plain, (words _).mpr ⟨⟨rfl, by decide +kernel, by decide +kernel⟩, ?_⟩, distinct⟩
  exact ⟨"INT1", by decide +kernel, IsWordOf.self "INT1"⟩

theorem word_of_symbol_declared :
    let e := Expr.intVar "x.INT1"
    e.Valid ∧ e.stringValues = [] ∧ "INT1" ∉ e.uses.map Declaration.name ∧
      .constant "INT1" .integer ∈ inferFromText .empty e.print := by
  intro e
  refine ⟨rfl, rfl, by decide +kernel, mem_inferFromText.mpr ⟨rfl, by decide +kernel, rfl⟩⟩

end PathEquiv
