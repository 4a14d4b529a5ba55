import PathEquiv.Proofs.Expr.Structure
import PathEquiv.Proofs.Sexp.Reading
import PathEquiv.Proofs.Text.Decimal

set_option autoImplicit false

namespace PathEquiv

open Sexp

def isPlain (c : Char) : Bool :=
  !Text.isBlank c && c ≠ '(' && c ≠ ')' && c ≠ '"'

theorem isPlain_of_code (c : Char) (above : 42 ≤ c.toNat) (below : c.toNat ≤ 126) :
    isPlain c = true := by
  have opening : c ≠ '(' := by rintro rfl; revert above; decide
  have closing : c ≠ ')' := by rintro rfl; revert above; decide
  have quote : c ≠ '"' := by rintro rfl; revert above; decide
  have blank : Text.isBlank c = false := by
    simp [Text.isBlank]
    omega
  simp [isPlain, opening, closing, quote, blank]

theorem isPlain_of_digit (c : Char) (digit : Text.isDecimalDigit c = true) : isPlain c = true := by
  simp only [Text.isDecimalDigit, Bool.and_eq_true, decide_eq_true_eq, Char.le_def,
    UInt32.le_iff_toNat_le] at digit
  change 48 ≤ c.toNat ∧ c.toNat ≤ 57 at digit
  exact isPlain_of_code c (by omega) (by omega)

theorem isPlain_of_symbolChar (c : Char) (symbol : isSymbolChar c = true) : isPlain c = true := by
  simp only [isSymbolChar, Bool.or_eq_true] at symbol
  rcases symbol with letter | mark
  · change ((decide (65 ≤ c.val ∧ c.val ≤ 90) || (97 ≤ c.val && c.val ≤ 122)) ||
      (48 ≤ c.val && c.val ≤ 57)) = true at letter
    simp only [Bool.or_eq_true, Bool.and_eq_true, decide_eq_true_eq,
      UInt32.le_iff_toNat_le] at letter
    change ((65 ≤ c.toNat ∧ c.toNat ≤ 90) ∨ (97 ≤ c.toNat ∧ c.toNat ≤ 122)) ∨
      (48 ≤ c.toNat ∧ c.toNat ≤ 57) at letter
    exact isPlain_of_code c (by omega) (by omega)
  · have marks : "~!@$%^&*_-+=<>.?/".toList.all isPlain = true := by decide
    exact List.all_eq_true.mp marks c (by simpa using mark)

theorem unbroken_of_plain (cs : List Char) (plain : ∀ c ∈ cs, isPlain c = true) :
    unbroken false cs = true := by
  induction cs with
  | nil => rfl
  | cons c cs ih =>
    have first := plain c (by simp)
    simp only [isPlain, Bool.and_eq_true, Bool.not_eq_true', decide_eq_true_eq] at first
    obtain ⟨⟨⟨blank, opening⟩, closing⟩, quote⟩ := first
    have rest := ih fun d member => plain d (by simp [member])
    simp [unbroken, quote, blank, opening, closing, rest]

theorem reads_plain (text : String) (nonempty : text.toList ≠ [])
    (plain : ∀ c ∈ text.toList, isPlain c = true) : Reads text.toList [.atom text] :=
  Reads.atom text nonempty (unbroken_of_plain _ plain)

-- For fixed words: one truth value to compute, no quantifier over characters.
theorem reads_word (text : String)
    (plain : (!text.toList.isEmpty && text.toList.all isPlain) = true) :
    Reads text.toList [.atom text] := by
  simp only [Bool.and_eq_true, Bool.not_eq_true', List.isEmpty_eq_false_iff,
    List.all_eq_true] at plain
  exact reads_plain text plain.1 plain.2

theorem isSymbolChar_of_simple {name : List Char} (simple : isSimpleSymbol name = true) :
    ∀ c ∈ name, isSymbolChar c = true := by
  cases name with
  | nil => simp
  | cons first rest =>
    simp only [isSimpleSymbol, Bool.and_eq_true] at simple
    exact List.all_eq_true.mp simple.1

theorem reads_symbol (name : String) (simple : isSimpleSymbol name.toList = true) :
    Reads name.toList [.atom name] := by
  apply reads_plain name
  · intro empty
    simp [empty, isSimpleSymbol] at simple
  · intro c member
    exact isPlain_of_symbolChar c (isSymbolChar_of_simple simple c member)

theorem isSimpleSymbol_callSymbol (function : String)
    (simple : isSimpleSymbol function.toList = true) :
    isSimpleSymbol (callSymbol function).toList = true := by
  by_cases marked : Text.hasStart callMarker function = true
  · simpa [callSymbol, marked] using simple
  · have marker : ['U', 'F', '_'].all isSymbolChar = true := by decide
    have rest := List.all_eq_true.mpr (isSymbolChar_of_simple simple)
    have start : (callSymbol function).toList = 'U' :: 'F' :: '_' :: function.toList := by
      rw [callSymbol, if_neg marked, String.toList_append]
      rfl
    rw [start]
    simp only [isSimpleSymbol, List.all_cons, List.all_nil, Bool.and_true,
      Bool.and_eq_true] at marker ⊢
    exact ⟨⟨marker.1, marker.2.1, marker.2.2, rest⟩, rfl⟩

theorem reads_application (symbol : String) (head : Reads symbol.toList [.atom symbol])
    (operands : List Expr) (tree : Expr → Sexp)
    (reads : ∀ e ∈ operands, Reads e.print.toList [tree e]) :
    Reads (application symbol (operands.map Expr.print)).toList
      [.list (.atom symbol :: operands.map tree)] := by
  have joined := Reads.join ' ' (by decide) Expr.print (fun e => [tree e]) operands reads
  have inside := ((head.blank ' ' (by decide)).append_reads joined).list.reads
  have text : (application symbol (operands.map Expr.print)).toList =
      '(' :: (symbol.toList ++ [' '] ++
        (String.intercalate (String.singleton ' ') (operands.map Expr.print)).toList) ++ [')'] := by
    simp [application]
  rw [text]
  simpa [← List.map_eq_flatMap] using inside

def signedTree (value : String) (magnitude : List Char → List Char) : Sexp :=
  match value.toList with
  | '-' :: digits => .list [.atom "-", .atom (String.ofList (magnitude digits))]
  | digits => .atom (String.ofList (magnitude digits))

theorem magnitude_of_positive {cs : List Char} (positive : ∀ digits, cs = '-' :: digits → False) :
    magnitude cs = cs := by
  unfold magnitude
  split
  next digits => exact (positive digits rfl).elim
  next => rfl

theorem signedTree_eq (value : String) (written : List Char → List Char) :
    let number := String.ofList (written (magnitude value.toList))
    signedTree value written = .atom number ∨
      signedTree value written = .list [.atom "-", .atom number] := by
  intro number
  by_cases negative : ∃ digits, value.toList = '-' :: digits
  next =>
    obtain ⟨digits, shape⟩ := negative
    exact .inr (by simp only [number, signedTree, shape, magnitude])
  next =>
    rw [not_exists] at negative
    have same := magnitude_of_positive negative
    left
    simp only [number, same]
    unfold signedTree
    split
    next digits shape => exact absurd shape (negative digits)
    next => rfl

def SmtSort.literalTree (sort : SmtSort) (value : String) : Sexp :=
  match sort with
  | .integer => signedTree value id
  | .real => signedTree value withPoint
  | .boolean => .atom value
  | .string => .atom (SmtSort.string.printLiteral value)

theorem reads_signed (value : String) (written : List Char → List Char)
    (nonempty : written (magnitude value.toList) ≠ [])
    (plain : ∀ c ∈ written (magnitude value.toList), isPlain c = true) :
    Reads (signed value written).toList [signedTree value written] := by
  unfold signed
  split
  next digits shape =>
    have tree : signedTree value written =
        .list [.atom "-", .atom (String.ofList (written digits))] := by
      simp only [signedTree, shape]
    have same : magnitude value.toList = digits := by
      rw [shape]
      rfl
    rw [same] at nonempty plain
    have number := reads_plain (String.ofList (written digits)) (by simpa using nonempty)
      (by simpa using plain)
    have sign := reads_word "-" (by decide)
    have inside := ((sign.blank ' ' (by decide)).append_reads number).list.reads
    rw [tree]
    simpa using inside
  next positive =>
    have tree : signedTree value written = .atom (String.ofList (written value.toList)) := by
      unfold signedTree
      split
      next digits shape => exact (positive digits shape).elim
      next => rfl
    rw [magnitude_of_positive positive] at nonempty plain
    rw [tree]
    exact reads_plain (String.ofList (written value.toList)) (by simpa using nonempty)
      (by simpa using plain)

theorem plain_of_isDigits {cs : List Char} (digits : Text.isDigits cs = true) :
    cs ≠ [] ∧ ∀ c ∈ cs, isPlain c = true := by
  obtain ⟨given, each⟩ := Text.isDigits_iff.mp digits
  exact ⟨given, fun c member => isPlain_of_digit c (each c member)⟩

theorem splitFirst_append (sep : Char) (text : List Char) :
    text = (Text.splitFirst sep text).1 ++
      (Text.splitFirst sep text).2.elim [] (fun rest => sep :: rest) := by
  have whole := List.takeWhile_append_dropWhile (p := (· ≠ sep)) (l := text)
  unfold Text.splitFirst
  split
  next => simp
  next c rest found =>
    have stops : c = sep := by
      have head := List.head?_dropWhile_not (· ≠ sep) text
      rw [found] at head
      simpa using head
    rw [found, stops] at whole
    exact whole.symm

theorem plain_withPoint {cs : List Char} (nonempty : cs ≠ [])
    (plain : ∀ c ∈ cs, isPlain c = true) :
    withPoint cs ≠ [] ∧ ∀ c ∈ withPoint cs, isPlain c = true := by
  unfold withPoint
  split
  next => exact ⟨nonempty, plain⟩
  next =>
    have ending : ['.', '0'].all isPlain = true := by decide
    refine ⟨by simp, fun c member => ?_⟩
    rcases List.mem_append.mp member with inside | added
    · exact plain c inside
    · exact List.all_eq_true.mp ending c added

theorem digit_or_point_of_spells_real {value : String}
    (spelled : SmtSort.real.spells value = true) :
    magnitude value.toList ≠ [] ∧
      ∀ c ∈ magnitude value.toList, Text.isDecimalDigit c = true ∨ c = '.' := by
  have parts := splitFirst_append '.' (magnitude value.toList)
  simp only [SmtSort.spells, Bool.and_eq_true, Text.isDigits, Bool.not_eq_true',
    List.isEmpty_eq_false_iff, List.all_eq_true] at spelled
  obtain ⟨⟨nonempty, wholeDigits⟩, -, fractionDigits⟩ := spelled
  generalize magnitude value.toList = cs at *
  cases fraction : (Text.splitFirst '.' cs).2 with
  | none =>
    simp only [fraction, Option.elim_none, List.append_nil] at parts
    rw [parts]
    exact ⟨nonempty, fun c member => .inl (wholeDigits c member)⟩
  | some rest =>
    simp only [fraction, Option.elim_some] at parts
    simp only [fraction, Option.getD_some] at fractionDigits
    rw [parts]
    refine ⟨by simp, fun c member => ?_⟩
    rcases List.mem_append.mp member with inside | after
    · exact .inl (wholeDigits c inside)
    · rcases List.mem_cons.mp after with point | later
      · exact .inr point
      · exact .inl (fractionDigits c later)

theorem plain_of_spells_real {value : String} (spelled : SmtSort.real.spells value = true) :
    magnitude value.toList ≠ [] ∧ ∀ c ∈ magnitude value.toList, isPlain c = true := by
  obtain ⟨nonempty, chars⟩ := digit_or_point_of_spells_real spelled
  refine ⟨nonempty, fun c member => ?_⟩
  rcases chars c member with digit | rfl
  · exact isPlain_of_digit c digit
  · decide

theorem unbroken_doubleQuotes (cs : List Char) :
    unbroken true (doubleQuotes cs ++ ['"']) = true := by
  induction cs with
  | nil => rfl
  | cons c cs ih =>
    -- A doubled quote leaves the string and enters it again.
    by_cases quote : c = '"'
    · simpa [doubleQuotes, quote, unbroken] using ih
    · simpa [doubleQuotes, quote, unbroken] using ih

theorem reads_literal (sort : SmtSort) (value : String) (spelled : sort.spells value = true) :
    Reads (sort.printLiteral value).toList [sort.literalTree value] := by
  cases sort with
  | integer =>
    obtain ⟨nonempty, plain⟩ := plain_of_isDigits spelled
    exact reads_signed value id nonempty plain
  | real =>
    obtain ⟨nonempty, plain⟩ := plain_of_spells_real spelled
    obtain ⟨pointNonempty, pointPlain⟩ := plain_withPoint nonempty plain
    exact reads_signed value withPoint pointNonempty pointPlain
  | boolean =>
    simp only [SmtSort.spells, Bool.or_eq_true, beq_iff_eq] at spelled
    rcases spelled with rfl | rfl
    · exact reads_word "true" (by decide)
    · exact reads_word "false" (by decide)
  | string =>
    apply Reads.atom
    · simp [SmtSort.printLiteral]
    · simpa [SmtSort.printLiteral, unbroken] using unbroken_doubleQuotes value.toList

def operatorTree : Opcode → List Sexp → Sexp
  | .and, [] => .atom "true"
  | .or, [] => .atom "false"
  | .and, [operand] | .or, [operand] => operand
  | op, operands => .list (.atom op.symbol :: operands)

def callTree (function : String) : List Sexp → Sexp
  | [] => .atom (callSymbol function)
  | operands => .list (.atom (callSymbol function) :: operands)

namespace Expr

mutual

def tree : Expr → Sexp
  | .literal value sort => sort.literalTree value
  | .var name _ => .atom name
  | .op opcode operands => operatorTree opcode (treeAll operands)
  | .call function _ operands => callTree function (treeAll operands)

def treeAll : List Expr → List Sexp
  | [] => []
  | e :: es => tree e :: treeAll es

end

theorem treeAll_eq (es : List Expr) : treeAll es = es.map tree := by
  induction es with
  | nil => rfl
  | cons e es ih => simp [treeAll, ih]

end Expr

theorem reads_opcode (opcode : Opcode) : Reads opcode.symbol.toList [.atom opcode.symbol] := by
  apply reads_word
  cases opcode <;> decide

def Opcode.applies (opcode : Opcode) (count : Nat) : Prop :=
  opcode = .and ∨ opcode = .or → 2 ≤ count

theorem printOperator_applies (opcode : Opcode) (operands : List String)
    (applies : opcode.applies operands.length) :
    printOperator opcode operands = application opcode.symbol operands := by
  unfold printOperator
  split <;> simp_all [Opcode.applies]

theorem printOperator_cases (opcode : Opcode) (operands : List String) :
    printOperator opcode operands = application opcode.symbol operands ∨
      (operands = [] ∧ printOperator opcode operands ∈ ["true", "false"]) ∨
      operands = [printOperator opcode operands] := by
  by_cases applies : opcode.applies operands.length
  next => exact .inl (printOperator_applies opcode operands applies)
  next =>
    simp only [Opcode.applies, Classical.not_imp, Nat.not_le] at applies
    obtain ⟨connective, few⟩ := applies
    right
    cases operands with
    | nil =>
      left
      rcases connective with rfl | rfl
      · exact ⟨rfl, by simp [printOperator]⟩
      · exact ⟨rfl, by simp [printOperator]⟩
    | cons operand others =>
      right
      rw [List.length_cons] at few
      have single : others = [] := List.length_eq_zero_iff.mp (by omega)
      subst single
      rcases connective with rfl | rfl
      · rfl
      · rfl

theorem operatorTree_applies (opcode : Opcode) (operands : List Sexp)
    (applies : opcode.applies operands.length) :
    operatorTree opcode operands = .list (.atom opcode.symbol :: operands) := by
  unfold operatorTree
  split <;> simp_all [Opcode.applies]

theorem reads_operator (opcode : Opcode) (operands : List Expr)
    (reads : ∀ e ∈ operands, Reads e.print.toList [e.tree]) :
    Reads (printOperator opcode (operands.map Expr.print)).toList
      [operatorTree opcode (operands.map Expr.tree)] := by
  by_cases applies : opcode.applies operands.length
  · rw [printOperator_applies _ _ (by simpa using applies),
      operatorTree_applies _ _ (by simpa using applies)]
    exact reads_application opcode.symbol (reads_opcode opcode) operands Expr.tree reads
  · -- A connective of fewer than two operands is not written as an application.
    simp only [Opcode.applies, Classical.not_imp, Nat.not_le] at applies
    obtain ⟨connective, few⟩ := applies
    match operands, few with
    | [], _ =>
      rcases connective with rfl | rfl
      · exact reads_word "true" (by decide)
      · exact reads_word "false" (by decide)
    | [operand], _ =>
      have single := reads operand (by simp)
      rcases connective with rfl | rfl
      · exact single
      · exact single

theorem reads_call (function : String) (simple : isSimpleSymbol function.toList = true)
    (operands : List Expr) (reads : ∀ e ∈ operands, Reads e.print.toList [e.tree]) :
    Reads (printCall function (operands.map Expr.print)).toList
      [callTree function (operands.map Expr.tree)] := by
  have symbol := reads_symbol _ (isSimpleSymbol_callSymbol function simple)
  cases operands with
  | nil => exact symbol
  | cons first others =>
    exact reads_application (callSymbol function) symbol (first :: others) Expr.tree reads

theorem reads_print (e : Expr) (valid : e.Valid) : Reads e.print.toList [e.tree] := by
  induction e using Expr.operandInduction with
  | literal value sort =>
    rw [Expr.print, Expr.tree]
    exact reads_literal sort value (Expr.valid_literal.mp valid)
  | var name sort =>
    rw [Expr.print, Expr.tree]
    exact reads_symbol name (Expr.valid_var.mp valid)
  | op opcode operands ih =>
    obtain ⟨-, operandsValid⟩ := Expr.valid_op.mp valid
    rw [Expr.print, Expr.tree, Expr.printAll_eq, Expr.treeAll_eq]
    exact reads_operator opcode operands fun e member => ih e member (operandsValid e member)
  | call function sort operands ih =>
    obtain ⟨simple, operandsValid⟩ := Expr.valid_call.mp valid
    rw [Expr.print, Expr.tree, Expr.printAll_eq, Expr.treeAll_eq]
    exact reads_call function simple operands fun e member =>
      ih e member (operandsValid e member)

def conditionTree : Option Expr → Sexp
  | none => .atom "true"
  | some e => e.tree

theorem reads_condition (condition : Option Expr) (valid : checkCondition condition = .ok ()) :
    Reads (printCondition condition).toList [conditionTree condition] := by
  cases condition with
  | none => exact reads_word "true" (by decide)
  | some e => exact reads_print e valid

end PathEquiv
