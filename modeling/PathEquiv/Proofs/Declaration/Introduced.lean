import Mathlib.Data.List.TakeWhile
import PathEquiv.Proofs.Containers
import PathEquiv.Proofs.Declaration.Line

set_option autoImplicit false

namespace PathEquiv

structure Separates (rest : List Char) : Prop where
  blank : ∃ c more, rest = c :: more ∧ Text.isBlank c = true
  next : Text.trimStart rest = [] ∨ ∃ more, Text.trimStart rest = '(' :: more

theorem nameAfter_append {rest : List Char} (separates : Separates rest) (cs : List Char) :
    nameAfter? (cs ++ rest) = nameAfter? cs := by
  obtain ⟨⟨c, more, rfl, blank⟩, next⟩ := separates
  have noName : isNameChar c = false := by simp [isNameChar, blank]
  have opening : isNameChar '(' = false := by decide
  by_cases empty : cs.dropWhile Text.isBlank = []
  next =>
    -- Nothing but white space, and what comes after it is no name either.
    have own : (Text.trimStart cs).takeWhile isNameChar = [] := by simp [Text.trimStart, empty]
    have none : (Text.trimStart (cs ++ c :: more)).takeWhile isNameChar = [] := by
      have skipped : Text.trimStart (cs ++ c :: more) = Text.trimStart (c :: more) := by
        simp [Text.trimStart, List.dropWhile_append, empty]
      rcases next with ended | ⟨others, shape⟩
      · simp [skipped, ended]
      · simp [skipped, shape, opening]
    simp [nameAfter?, own, none]
  next =>
    have shape : Text.trimStart (cs ++ c :: more) = Text.trimStart cs ++ c :: more := by
      simp [Text.trimStart, List.dropWhile_append, empty]
    simp only [nameAfter?, shape, takeWhile_append_stop noName, takeWhile_append_stopped empty]

theorem after_append_of_not_mem {command : List Char} {c : Char} (absent : c ∉ command)
    (cs more : List Char) :
    Text.after? command (cs ++ c :: more) = (Text.after? command cs).map (· ++ c :: more) := by
  induction command generalizing cs with
  | nil => rfl
  | cons d command ih =>
    rw [List.mem_cons, not_or] at absent
    cases cs with
    | nil => simp [Text.after?, Ne.symm absent.1]
    | cons e cs => by_cases same : d = e <;> simp [Text.after?, same, ih absent.2]

theorem introducedHere_append {rest : List Char} (separates : Separates rest) (cs : List Char) :
    introducedHere? (cs ++ rest) = introducedHere? cs := by
  have each : ∀ command ∈ introducers,
      (Text.after? command (cs ++ rest)).bind nameAfter? =
        (Text.after? command cs).bind nameAfter? := by
    intro command member
    have solid : introducers.all (fun command => command.all fun c => !Text.isBlank c) = true := by
      decide
    obtain ⟨c, more, rfl, blank⟩ := separates.blank
    have absent : c ∉ command := by
      intro occurs
      have other := List.all_eq_true.mp (List.all_eq_true.mp solid command member) c occurs
      simp [blank] at other
    rw [after_append_of_not_mem absent]
    cases Text.after? command cs with
    | none => rfl
    | some after => exact nameAfter_append separates after
  simp only [introducers, List.forall_mem_cons] at each
  simp only [introducedHere?, introducers, List.findSome?_cons, List.findSome?_nil, each]

theorem introducedIn_append {rest : List Char} (separates : Separates rest) (cs : List Char) :
    introducedIn (cs ++ rest) = introducedIn cs ++ introducedIn rest := by
  induction cs with
  | nil => rfl
  | cons c cs ih =>
    simp only [List.cons_append, introducedIn, introducedHere_append separates, ih]
    split <;> rfl

theorem introducedIn_blank {cs : List Char} (blank : ∀ c ∈ cs, Text.isBlank c = true) :
    introducedIn cs = [] := by
  have closed : '(' ∉ cs := by
    intro member
    have opening := blank '(' member
    revert opening
    decide
  have skipped := introducedIn_skip cs [] closed
  simpa [introducedIn] using skipped

theorem introducedIn_append_blank {rest : List Char} (blank : ∀ c ∈ rest, Text.isBlank c = true)
    (cs : List Char) : introducedIn (cs ++ rest) = introducedIn cs := by
  cases rest with
  | nil => simp
  | cons c more =>
    have separates : Separates (c :: more) :=
      ⟨⟨c, more, rfl, blank c (by simp)⟩, .inl (List.dropWhile_eq_nil_iff.mpr blank)⟩
    rw [introducedIn_append separates, introducedIn_blank blank, List.append_nil]

theorem introducedIn_trim (cs : List Char) : introducedIn (Text.trim cs) = introducedIn cs := by
  have leading : introducedIn (Text.trimStart cs) = introducedIn cs := by
    have whole := List.takeWhile_append_dropWhile (p := Text.isBlank) (l := cs)
    have closed : '(' ∉ cs.takeWhile Text.isBlank := by
      intro member
      have opening := List.mem_takeWhile_imp member
      revert opening
      decide
    rw [← introducedIn_skip _ (Text.trimStart cs) closed]
    exact congrArg introducedIn whole
  have trailing (cs : List Char) : introducedIn (Text.trimEnd cs) = introducedIn cs := by
    have whole := congrArg List.reverse
      (List.takeWhile_append_dropWhile (p := Text.isBlank) (l := cs.reverse))
    rw [List.reverse_append, List.reverse_reverse] at whole
    have blank : ∀ c ∈ (cs.reverse.takeWhile Text.isBlank).reverse, Text.isBlank c = true :=
      fun c member => List.mem_takeWhile_imp (List.mem_reverse.mp member)
    rw [← introducedIn_append_blank blank (Text.trimEnd cs)]
    exact congrArg introducedIn whole
  rw [Text.trim, trailing, leading]

theorem introducedSymbols_parse (text : String) :
    introducedSymbols (KnownDeclarations.parse text).text = introducedSymbols text := by
  simp [KnownDeclarations.parse, introducedSymbols, Text.trimmed, introducedIn_trim]

def Opens (block : String) : Prop :=
  ∃ cs, block.toList = '(' :: cs

theorem separates_list (cs : List Char) : Separates ('\n' :: '(' :: cs) where
  blank := ⟨'\n', '(' :: cs, rfl, by decide⟩
  next := by
    have newline : Text.isBlank '\n' = true := by decide
    have opening : Text.isBlank '(' = false := by decide
    exact .inr ⟨cs, by simp [Text.trimStart, newline, opening]⟩

theorem opens_block (declarations : List Declaration) :
    Declaration.block declarations = "" ∨ Opens (Declaration.block declarations) := by
  cases declarations with
  | nil => exact .inl rfl
  | cons d others =>
    obtain ⟨cs, enclosed⟩ := block_enclosed d others
    exact .inr ⟨cs ++ [')'], enclosed⟩

theorem introducedSymbols_append_block (text : String) {declarations : List Declaration}
    (simple : ∀ d ∈ declarations, isSimpleSymbol d.name.toList = true) :
    introducedSymbols (text ++ "\n" ++ Declaration.block declarations) =
      introducedSymbols text ++ declarations.map Declaration.name := by
  have parts : introducedIn (text ++ "\n" ++ Declaration.block declarations).toList =
      introducedIn text.toList ++ introducedIn (Declaration.block declarations).toList := by
    rcases opens_block declarations with empty | ⟨cs, opening⟩
    · have blank : ['\n'].all Text.isBlank = true := by decide
      have ended := introducedIn_append_blank (List.all_eq_true.mp blank) text.toList
      simpa [empty, introducedIn] using ended
    · -- An unfinished command at the end of the text does not reach into the first line.
      have separated := introducedIn_append (separates_list cs) text.toList
      have skipped : introducedIn ('\n' :: '(' :: cs) = introducedIn ('(' :: cs) :=
        introducedIn_skip ['\n'] _ (by decide)
      rw [skipped] at separated
      simpa [opening] using separated
  rw [← introducedSymbols_block declarations simple]
  simp only [introducedSymbols, parts, List.map_append]

theorem mem_symbols_parse (text symbol : String) :
    symbol ∈ (KnownDeclarations.parse text).symbols ↔ symbol ∈ introducedSymbols text := by
  rw [← contains_parse, KnownDeclarations.contains, List.contains_iff_mem]

/-- The inferred declarations can be written after the known ones and read back with them. Then the
known symbols are the earlier ones and the declared ones, and nothing is left to infer. -/
theorem inferred_become_known (text : String) (es : List Expr) (valid : ∀ e ∈ es, e.Valid)
    (declarations : List Declaration)
    (inferred : inferFromExprs (.parse text) es = .ok declarations) :
    let known := KnownDeclarations.parse text
    let lines := String.intercalate "\n" (declarations.map Declaration.line)
    let extended := KnownDeclarations.parse (known.text ++ "\n" ++ lines)
    (∀ symbol, symbol ∈ extended.symbols ↔
      symbol ∈ known.symbols ∨ symbol ∈ declarations.map Declaration.name) ∧
    inferFromExprs extended es = .ok [] := by
  intro known lines extended
  have symbols (symbol : String) : symbol ∈ extended.symbols ↔
      symbol ∈ known.symbols ∨ symbol ∈ declarations.map Declaration.name := by
    have both := introducedSymbols_append_block known.text (simple_of_inferred valid inferred)
    rw [introducedSymbols_parse] at both
    rw [mem_symbols_parse, mem_symbols_parse, ← List.mem_append, ← both]
    rfl
  refine ⟨symbols, ?_⟩
  -- Whether anything can be inferred does not depend on what is known.
  obtain ⟨others, again⟩ := (inferFromExprs_eq_ok_iff extended es).mpr
    ((inferFromExprs_eq_ok_iff known es).mp ⟨declarations, inferred⟩)
  have none : others = [] := by
    rw [List.eq_nil_iff_forall_not_mem]
    intro d member
    obtain ⟨used, unknown⟩ := (mem_inferFromExprs again d).mp member
    have absent : d.name ∉ extended.symbols := by
      rwa [← List.contains_iff_mem, Bool.not_eq_true]
    rw [symbols, not_or] at absent
    have free : known.contains d.name = false := by
      rw [KnownDeclarations.contains, ← Bool.not_eq_true, List.contains_iff_mem]
      exact absent.1
    exact absent.2 (List.mem_map_of_mem ((mem_inferFromExprs inferred d).mpr ⟨used, free⟩))
  rw [again, none]

theorem inferred_become_known_unfinished :
    let text := "(declare-const x Int) ; (define-fun  "
    let sum := Expr.add (.intVar "x") (.call "f" .integer [.intVar "y"])
    let declarations : List Declaration := [⟨"y", [], .integer⟩, ⟨"UF_f", [.integer], .integer⟩]
    let extended := KnownDeclarations.parse
      "(declare-const x Int) ; (define-fun\n(declare-fun y () Int)\n(declare-fun UF_f (Int) Int)"
    inferFromExprs (.parse text) [sum] = .ok declarations ∧
      (∀ symbol, symbol ∈ extended.symbols ↔ symbol ∈ ["x", "y", "UF_f"]) ∧
      inferFromExprs extended [sum] = .ok [] := by
  intro text sum declarations extended
  have symbols : (KnownDeclarations.parse text).symbols = ["x"] := by decide +kernel
  have collected : Expr.collectAll [] [sum] =
      .ok [⟨"y", [], .integer⟩, ⟨"UF_f", [.integer], .integer⟩, ⟨"x", [], .integer⟩] := by
    decide +kernel
  have inferred : inferFromExprs (.parse text) [sum] = .ok declarations := by
    rw [inferFromExprs, collected]
    simp only [KnownDeclarations.contains, symbols]
    rw [List.mergeSort_of_pairwise (by decide +kernel),
      List.mergeSort_of_pairwise (by decide +kernel)]
    decide +kernel
  have valid : ∀ e ∈ [sum], e.Valid := by
    intro e member
    rw [List.mem_singleton.mp member]
    exact rfl
  have written : (KnownDeclarations.parse text).text ++ "\n" ++
      String.intercalate "\n" (declarations.map Declaration.line) =
      "(declare-const x Int) ; (define-fun\n(declare-fun y () Int)\n(declare-fun UF_f (Int) Int)" := by
    decide +kernel
  obtain ⟨known, none⟩ := inferred_become_known text [sum] valid declarations inferred
  rw [written] at known none
  rw [symbols] at known
  refine ⟨inferred, fun symbol => (known symbol).trans ?_, none⟩
  simp [declarations]

end PathEquiv
