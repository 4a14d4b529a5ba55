import PathEquiv.Proofs.Declaration.Uses
import PathEquiv.Proofs.Text.Search

set_option autoImplicit false

namespace PathEquiv

open Sexp

namespace Declaration

def tree (d : Declaration) : Sexp :=
  .list [.atom "declare-fun", .atom d.name, .list (d.arguments.map fun sort => .atom sort.smtlib),
    .atom d.sort.smtlib]

def block (declarations : List Declaration) : String :=
  String.intercalate "\n" (declarations.map line)

end Declaration

theorem reads_sort (sort : SmtSort) : Reads sort.smtlib.toList [.atom sort.smtlib] := by
  apply reads_word
  cases sort <;> decide

def Declaration.argumentChars (d : Declaration) : List Char :=
  (String.intercalate (String.singleton ' ') (d.arguments.map SmtSort.smtlib)).toList

theorem line_toList (d : Declaration) :
    d.line.toList = '(' :: ("declare-fun".toList ++ ' ' :: (d.name.toList ++ ' ' ::
      '(' :: (d.argumentChars ++ ')' :: ' ' :: (d.sort.smtlib.toList ++ [')'])))) := by
  unfold Declaration.line Declaration.argumentChars
  simp

theorem reads_signature (d : Declaration) :
    Reads ('(' :: (d.argumentChars ++ ')' :: ' ' :: d.sort.smtlib.toList))
      [.list (d.arguments.map fun sort => .atom sort.smtlib), .atom d.sort.smtlib] := by
  have arguments := (Reads.join ' ' (by decide) SmtSort.smtlib (fun sort => [.atom sort.smtlib])
    d.arguments fun sort _ => reads_sort sort).list.reads.blank ' ' (by decide)
  have signature := arguments.append_reads (reads_sort d.sort)
  simpa [Declaration.argumentChars, ← List.map_eq_flatMap] using signature

theorem reads_line (d : Declaration) (simple : isSimpleSymbol d.name.toList = true) :
    Reads d.line.toList [d.tree] := by
  have command := (reads_word "declare-fun" (by decide)).blank ' ' (by decide)
  have name := (reads_symbol d.name simple).blank ' ' (by decide)
  have inside := (command.append name).append_reads (reads_signature d)
  rw [line_toList, Declaration.tree]
  simpa using inside.list.reads

theorem SmtSort.smtlib_injective : Function.Injective SmtSort.smtlib := by
  intro first second same
  revert same
  cases first <;> cases second <;> decide

theorem eq_of_line {first second : Declaration} (name : first.name = second.name)
    (same : first.line = second.line) : first = second := by
  have chars := congrArg String.toList same
  rw [line_toList, line_toList, name] at chars
  have signature : '(' :: (first.argumentChars ++ ')' :: ' ' :: first.sort.smtlib.toList) =
      '(' :: (second.argumentChars ++ ')' :: ' ' :: second.sort.smtlib.toList) := by
    refine (List.append_left_inj [')']).mp ?_
    simpa using chars
  have trees := (reads_signature first).readChars.symm.trans
    ((congrArg readChars signature).trans (reads_signature second).readChars)
  simp only [List.cons.injEq, Sexp.list.injEq, Sexp.atom.injEq, and_true] at trees
  have arguments : first.arguments = second.arguments := by
    refine List.map_injective_iff.mpr (fun a b atoms => ?_) trees.1
    exact SmtSort.smtlib_injective (Sexp.atom.inj atoms)
  have sort := SmtSort.smtlib_injective trees.2
  cases first
  cases second
  simp_all

theorem block_cons_cons (d second : Declaration) (others : List Declaration) :
    (Declaration.block (d :: second :: others)).toList =
      d.line.toList ++ '\n' :: (Declaration.block (second :: others)).toList := by
  simp [Declaration.block]

theorem reads_block (declarations : List Declaration)
    (simple : ∀ d ∈ declarations, isSimpleSymbol d.name.toList = true) :
    Reads (Declaration.block declarations).toList (declarations.map Declaration.tree) := by
  have joined := Reads.join '\n' (by decide) Declaration.line (fun d => [d.tree]) declarations
    fun d member => reads_line d (simple d member)
  rw [List.map_eq_flatMap]
  exact joined

theorem introducedIn_skip (cs rest : List Char) (closed : '(' ∉ cs) :
    introducedIn (cs ++ rest) = introducedIn rest := by
  induction cs with
  | nil => rfl
  | cons c cs ih =>
    simp only [List.mem_cons, not_or] at closed
    have other : c ≠ '(' := fun same => closed.1 same.symm
    simp [introducedIn, other, ih closed.2]

theorem introducedHere_none (c : Char) (cs : List Char) (other : c ≠ 'd') :
    introducedHere? (c :: cs) = none := by
  have differs : 'd' ≠ c := fun same => other same.symm
  simp [introducedHere?, introducers, Text.after?, differs]

theorem isNameChar_of_simple {name : List Char} (simple : isSimpleSymbol name = true) :
    ∀ c ∈ name, isNameChar c = true ∧ Text.isBlank c = false := by
  intro c member
  have plain := isPlain_of_symbolChar c (isSymbolChar_of_simple simple c member)
  simp only [isPlain, Bool.and_eq_true, Bool.not_eq_true', decide_eq_true_eq] at plain
  obtain ⟨⟨⟨blank, opening⟩, closing⟩, -⟩ := plain
  exact ⟨by simp [isNameChar, blank, opening, closing], blank⟩

theorem nameAfter_simple (name rest : List Char) (simple : isSimpleSymbol name = true) :
    nameAfter? (' ' :: (name ++ ' ' :: rest)) = some name := by
  have chars := isNameChar_of_simple simple
  have blank : Text.isBlank ' ' = true := by decide
  have space : isNameChar ' ' = false := by decide
  have nonempty : name ≠ [] := by
    rintro rfl
    cases simple
  have trimmed : Text.trimStart (' ' :: (name ++ ' ' :: rest)) = name ++ ' ' :: rest := by
    cases name with
    | nil => exact absurd rfl nonempty
    | cons c cs => simp [Text.trimStart, blank, (chars c (by simp)).2]
  have taken : (name ++ ' ' :: rest).takeWhile isNameChar = name := by
    rw [List.takeWhile_append_of_pos fun c member => (chars c member).1]
    simp [space]
  simp [nameAfter?, trimmed, taken, blank, nonempty]

theorem opening_not_mem_argumentChars (d : Declaration) : '(' ∉ d.argumentChars := by
  have sorts : ∀ sort : SmtSort, '(' ∉ sort.smtlib.toList := by
    intro sort
    cases sort <;> decide
  unfold Declaration.argumentChars
  generalize d.arguments = arguments
  induction arguments with
  | nil => simp
  | cons sort rest ih =>
    cases rest with
    | nil => simpa using sorts sort
    | cons => simpa [sorts sort] using ih

theorem introducedHere_arguments (d : Declaration) (rest : List Char) :
    introducedHere? (d.argumentChars ++ ')' :: rest) = none := by
  unfold Declaration.argumentChars
  cases d.arguments with
  | nil => exact introducedHere_none ')' rest (by decide)
  | cons sort others =>
    have start : ∃ c cs, c ≠ 'd' ∧ sort.smtlib.toList = c :: cs := by
      cases sort <;> exact ⟨_, _, by decide, rfl⟩
    obtain ⟨c, cs, other, shape⟩ := start
    cases others with
    | nil => simpa [shape] using introducedHere_none c (cs ++ ')' :: rest) other
    | cons => simpa [shape] using introducedHere_none c _ other

theorem introducedHere_declared (name rest : List Char) (simple : isSimpleSymbol name = true) :
    introducedHere? ("declare-fun".toList ++ ' ' :: (name ++ ' ' :: rest)) = some name := by
  rw [introducedHere?, introducers, List.findSome?_cons, Text.after_append, Option.bind_some,
    nameAfter_simple name rest simple]

theorem introducedIn_line (d : Declaration) (simple : isSimpleSymbol d.name.toList = true)
    (rest : List Char) :
    introducedIn (d.line.toList ++ rest) = d.name.toList :: introducedIn rest := by
  have sort : '(' ∉ d.sort.smtlib.toList := by
    cases d.sort <;> decide
  have name : '(' ∉ d.name.toList := by
    intro member
    have char := (isNameChar_of_simple simple _ member).1
    revert char
    decide
  -- The line opens two lists: the command and its arguments.
  let ending := d.argumentChars ++ ')' :: (' ' :: d.sort.smtlib.toList ++ [')'] ++ rest)
  let start := "declare-fun".toList ++ ' ' :: (d.name.toList ++ [' '])
  have text : d.line.toList ++ rest = '(' :: (start ++ '(' :: ending) := by
    rw [line_toList]
    simp [start, ending]
  have declared : introducedHere? (start ++ '(' :: ending) = some d.name.toList := by
    have here := introducedHere_declared d.name.toList ('(' :: ending) simple
    simpa [start] using here
  have arguments : introducedHere? ending = none := introducedHere_arguments d _
  have startClosed : '(' ∉ start := by simp [start, name]
  have endingClosed : '(' ∉ d.argumentChars ++ ')' :: ' ' :: d.sort.smtlib.toList ++ [')'] := by
    simp [opening_not_mem_argumentChars d, sort]
  calc introducedIn (d.line.toList ++ rest)
      = d.name.toList :: introducedIn (start ++ '(' :: ending) := by
        rw [text, introducedIn, if_pos rfl, declared]
    _ = d.name.toList :: introducedIn ('(' :: ending) := by
        rw [introducedIn_skip start _ startClosed]
    _ = d.name.toList :: introducedIn ending := by
        rw [introducedIn, if_pos rfl, arguments]
    _ = d.name.toList :: introducedIn rest := by
        have skipped := introducedIn_skip _ rest endingClosed
        simpa [ending] using skipped

theorem introducedSymbols_block (declarations : List Declaration)
    (simple : ∀ d ∈ declarations, isSimpleSymbol d.name.toList = true) :
    introducedSymbols (Declaration.block declarations) = declarations.map Declaration.name := by
  have chars : introducedIn (Declaration.block declarations).toList =
      declarations.map fun d => d.name.toList := by
    induction declarations with
    | nil => rfl
    | cons d others ih =>
      have first := introducedIn_line d (simple d (by simp))
      have rest := ih fun other member => simple other (by simp [member])
      cases others with
      | nil => simpa [Declaration.block, introducedIn] using first []
      | cons second more =>
        rw [block_cons_cons, first, introducedIn, if_neg (by decide), rest]
        rfl
  rw [introducedSymbols, chars]
  simp

theorem trim_enclosed (cs : List Char) : Text.trim ('(' :: cs ++ [')']) = '(' :: cs ++ [')'] := by
  have opening : Text.isBlank '(' = false := by decide
  have closing : Text.isBlank ')' = false := by decide
  simp [Text.trim, Text.trimStart, Text.trimEnd, opening, closing]

theorem line_enclosed (d : Declaration) : ∃ cs, d.line.toList = '(' :: cs ++ [')'] := by
  refine ⟨"declare-fun".toList ++ ' ' :: (d.name.toList ++ ' ' :: '(' ::
    (d.argumentChars ++ ')' :: ' ' :: d.sort.smtlib.toList)), ?_⟩
  rw [line_toList]
  simp

theorem block_enclosed (d : Declaration) (others : List Declaration) :
    ∃ cs, (Declaration.block (d :: others)).toList = '(' :: cs ++ [')'] := by
  induction others generalizing d with
  | nil => simpa [Declaration.block] using line_enclosed d
  | cons second more ih =>
    obtain ⟨first, line⟩ := line_enclosed d
    obtain ⟨rest, block⟩ := ih second
    refine ⟨first ++ ')' :: '\n' :: '(' :: rest, ?_⟩
    rw [block_cons_cons, line, block]
    simp

theorem parse_block_text (declarations : List Declaration) :
    (KnownDeclarations.parse (Declaration.block declarations)).text =
      Declaration.block declarations := by
  cases declarations with
  | nil => decide
  | cons d others =>
    obtain ⟨cs, enclosed⟩ := block_enclosed d others
    rw [KnownDeclarations.parse, Text.trimmed, enclosed, trim_enclosed, ← enclosed,
      String.ofList_toList]

theorem contains_parse (text name : String) :
    (KnownDeclarations.parse text).contains name = true ↔ name ∈ introducedSymbols text := by
  simp only [KnownDeclarations.contains, KnownDeclarations.parse, Text.distinctSorted,
    List.contains_iff_mem, List.mem_mergeSort, List.mem_eraseDups]

theorem contains_parse_block (declarations : List Declaration)
    (simple : ∀ d ∈ declarations, isSimpleSymbol d.name.toList = true) (name : String) :
    (KnownDeclarations.parse (Declaration.block declarations)).contains name = true ↔
      name ∈ declarations.map Declaration.name := by
  rw [contains_parse, introducedSymbols_block declarations simple]

end PathEquiv
