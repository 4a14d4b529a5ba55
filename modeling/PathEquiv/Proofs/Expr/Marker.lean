import PathEquiv.Expr.CallFlags
import PathEquiv.Proofs.Expr.Canonical

set_option autoImplicit false

namespace PathEquiv

def Marked (text : String) : Prop :=
  callMarker.toList <:+: text.toList

theorem textHasCall_iff {text : String} : textHasCall text = true ↔ Marked text :=
  Text.hasPart_iff

theorem not_marked_empty : ¬Marked "" := by
  simp [Marked, callMarker]

theorem marked_separated {sep : Char} (free : sep ∉ callMarker.toList) (a b : String) :
    Marked (a ++ String.singleton sep ++ b) ↔ Marked a ∨ Marked b := by
  have parts := Text.infix_separated free a.toList b.toList
  simpa [Marked] using parts

theorem marked_enclosed (text : String) : Marked ("(" ++ text ++ ")") ↔ Marked text := by
  have split : "(" ++ text ++ ")" =
      "" ++ String.singleton '(' ++ (text ++ String.singleton ')' ++ "") := by
    apply String.toList_inj.mp
    simp
  rw [split, marked_separated (by decide), marked_separated (by decide)]
  simp [not_marked_empty]

theorem marked_join (texts : List String) :
    Marked (String.intercalate " " texts) ↔ ∃ text ∈ texts, Marked text := by
  induction texts with
  | nil => simpa using not_marked_empty
  | cons text others ih =>
    cases others with
    | nil => simp
    | cons second others =>
      have split : String.intercalate " " (text :: second :: others) =
          text ++ String.singleton ' ' ++ String.intercalate " " (second :: others) := by
        apply String.toList_inj.mp
        simp
      rw [split, marked_separated (by decide), ih]
      simp

theorem marked_application (symbol : String) (texts : List String) :
    Marked (application symbol texts) ↔ Marked symbol ∨ ∃ text ∈ texts, Marked text := by
  have split : application symbol texts =
      "(" ++ (symbol ++ String.singleton ' ' ++ String.intercalate " " texts) ++ ")" := by
    apply String.toList_inj.mp
    simp [application]
  rw [split, marked_enclosed, marked_separated (by decide), marked_join]

theorem not_marked_symbol (opcode : Opcode) : ¬Marked opcode.symbol := by
  rw [← textHasCall_iff, Bool.not_eq_true]
  cases opcode <;> decide

theorem marked_operator (opcode : Opcode) (texts : List String) :
    Marked (printOperator opcode texts) ↔ ∃ text ∈ texts, Marked text := by
  rcases printOperator_cases opcode texts with applied | ⟨rfl, constant⟩ | single
  · rw [applied, marked_application]
    simp [not_marked_symbol opcode]
  · have unmarked : ["true", "false"].all (fun text => !textHasCall text) = true := by decide
    have own := List.all_eq_true.mp unmarked _ constant
    rw [← textHasCall_iff]
    simpa using own
  · generalize printOperator opcode texts = text at single ⊢
    simp [single]

theorem marked_call (function : String) (texts : List String) :
    Marked (printCall function texts) := by
  have symbol : Marked (callSymbol function) :=
    (Text.hasStart_iff.mp (marked_callSymbol function)).isInfix
  cases texts with
  | nil => exact symbol
  | cons text others => exact (marked_application _ _).mpr (.inl symbol)

theorem prefix_doubleQuotes {part : List Char} (free : '"' ∉ part) (cs : List Char) :
    part <+: doubleQuotes cs ↔ part <+: cs := by
  induction part generalizing cs with
  | nil => simp
  | cons p part ih =>
    rw [List.mem_cons, not_or] at free
    cases cs with
    | nil => simp [doubleQuotes]
    | cons c cs =>
      have rest := ih free.2 cs
      by_cases quote : c = '"'
      next => simp [doubleQuotes, quote, Ne.symm free.1]
      next => simpa [doubleQuotes, quote] using fun _ => rest

theorem infix_doubleQuotes {part : List Char} (free : '"' ∉ part) (given : part ≠ [])
    (cs : List Char) : part <:+: doubleQuotes cs ↔ part <:+: cs := by
  have skip (rest : List Char) : part <:+: '"' :: rest ↔ part <:+: rest := by
    have parts := Text.infix_separated free [] rest
    simpa [given] using parts
  induction cs with
  | nil => rfl
  | cons c cs ih =>
    by_cases quote : c = '"'
    next =>
      have shape : doubleQuotes (c :: cs) = '"' :: '"' :: doubleQuotes cs := by
        simp [doubleQuotes, quote]
      rw [shape, skip, skip, quote, skip]
      exact ih
    next =>
      have shape : doubleQuotes (c :: cs) = c :: doubleQuotes cs := by simp [doubleQuotes, quote]
      have here := prefix_doubleQuotes free (c :: cs)
      rw [shape] at here ⊢
      rw [List.infix_cons_iff, List.infix_cons_iff, here]
      exact or_congr_right ih

theorem marked_quoted (value : String) :
    Marked (SmtSort.string.printLiteral value) ↔ Marked value := by
  have split : SmtSort.string.printLiteral value = "" ++ String.singleton '"' ++
      (String.ofList (doubleQuotes value.toList) ++ String.singleton '"' ++ "") := by
    apply String.toList_inj.mp
    simp [SmtSort.printLiteral]
  have inside : Marked (String.ofList (doubleQuotes value.toList)) ↔ Marked value := by
    have doubled := @infix_doubleQuotes callMarker.toList (by decide) (by decide) value.toList
    simpa [Marked] using doubled
  rw [split, marked_separated (by decide), marked_separated (by decide), inside]
  simp [not_marked_empty]

theorem marked_signed {value : String} {written : List Char → List Char}
    (keeps : ∀ cs, callMarker.toList <:+: written cs ↔ callMarker.toList <:+: cs) :
    Marked (signed value written) ↔ Marked value := by
  unfold signed
  split
  next digits shape =>
    have split : "(- " ++ String.ofList (written digits) ++ ")" =
        "(" ++ ("-" ++ String.singleton ' ' ++ String.ofList (written digits)) ++ ")" := by
      apply String.toList_inj.mp
      simp
    have minus : ¬Marked "-" := by
      rw [← textHasCall_iff]
      decide
    have inside : Marked value ↔ callMarker.toList <:+: digits := by
      have parts := @Text.infix_separated callMarker.toList '-' (by decide) [] digits
      simpa [Marked, shape, callMarker] using parts
    rw [split, marked_enclosed, marked_separated (by decide), inside, or_iff_right minus]
    simpa [Marked] using keeps digits
  next => simpa [Marked] using keeps value.toList

theorem infix_withPoint {part : List Char} (free : '.' ∉ part) (short : ¬part <:+: ['0'])
    (cs : List Char) : part <:+: withPoint cs ↔ part <:+: cs := by
  unfold withPoint
  split
  next => rfl
  next =>
    rw [Text.infix_separated free]
    simp [short]

theorem marked_literal (sort : SmtSort) (value : String) :
    Marked (sort.printLiteral value) ↔ Marked value := by
  cases sort with
  | integer => exact marked_signed fun cs => Iff.rfl
  | real => exact marked_signed fun cs => infix_withPoint (by decide) (by decide) cs
  | boolean => exact Iff.rfl
  | string => exact marked_quoted value

namespace Expr

mutual

def subterms : Expr → List Expr
  | .literal value sort => [.literal value sort]
  | .var name sort => [.var name sort]
  | .op opcode operands => .op opcode operands :: subtermsAll operands
  | .call function sort operands => .call function sort operands :: subtermsAll operands

def subtermsAll : List Expr → List Expr
  | [] => []
  | e :: es => subterms e ++ subtermsAll es

end

theorem subtermsAll_eq (es : List Expr) : subtermsAll es = es.flatMap subterms := by
  induction es with
  | nil => rfl
  | cons e es ih => simp [subtermsAll, ih]

theorem exists_subterm_op {opcode : Opcode} {operands : List Expr} {property : Expr → Prop}
    (other : ¬property (.op opcode operands)) :
    (∃ sub ∈ (op opcode operands).subterms, property sub) ↔
      ∃ e ∈ operands, ∃ sub ∈ e.subterms, property sub := by
  rw [subterms, subtermsAll_eq]
  simp only [List.mem_cons, List.mem_flatMap, exists_eq_or_imp, other, false_or]
  constructor
  next =>
    intro found
    obtain ⟨sub, ⟨e, member, inside⟩, holds⟩ := found
    exact ⟨e, member, sub, inside, holds⟩
  next =>
    intro found
    obtain ⟨e, member, sub, inside, holds⟩ := found
    exact ⟨sub, ⟨e, member, inside⟩, holds⟩

def IsCall : Expr → Prop
  | .call _ _ _ => True
  | .literal _ _ | .var _ _ | .op _ _ => False

def MarkedLeaf : Expr → Prop
  | .literal text _ | .var text _ => Marked text
  | .op _ _ | .call _ _ _ => False

theorem hasCall_iff (e : Expr) : e.hasCall = true ↔ ∃ sub ∈ e.subterms, sub.IsCall := by
  induction e using operandInduction with
  | literal value sort => simp [hasCall, subterms, IsCall]
  | var name sort => simp [hasCall, subterms, IsCall]
  | op opcode operands ih =>
    rw [hasCall, anyHasCall_eq, List.any_eq_true, exists_subterm_op id]
    exact exists_congr fun e => and_congr_right (ih e)
  | call function sort operands => exact iff_of_true rfl ⟨_, List.mem_cons_self, trivial⟩

theorem marked_print (e : Expr) :
    Marked e.print ↔ e.hasCall = true ∨ ∃ leaf ∈ e.subterms, leaf.MarkedLeaf := by
  induction e using operandInduction with
  | literal value sort => simp [print, hasCall, subterms, MarkedLeaf, marked_literal]
  | var name sort => simp [print, hasCall, subterms, MarkedLeaf]
  | op opcode operands ih =>
    rw [print, printAll_eq, marked_operator, hasCall, anyHasCall_eq, List.any_eq_true,
      exists_subterm_op id, ← exists_or]
    simp only [List.mem_map, exists_exists_and_eq_and, ← and_or_left]
    exact exists_congr fun e => and_congr_right (ih e)
  | call function sort operands =>
    rw [print, printAll_eq]
    exact iff_of_true (marked_call function _) (.inl rfl)

end Expr

/-- The search for the mark in the text of an expression finds its calls, and besides them the
names of variables and the values of literals that hold the mark. No call is missed. -/
theorem text_detection_exact (e : Expr) :
    (textHasCall e.print = true ↔ e.hasCall = true ∨
      (∃ name sort, .var name sort ∈ e.subterms ∧ "UF_".toList <:+: name.toList) ∨
      ∃ value sort, .literal value sort ∈ e.subterms ∧ "UF_".toList <:+: value.toList) ∧
    ∀ function sort operands, .call function sort operands ∈ e.subterms →
      textHasCall e.print = true := by
  rw [textHasCall_iff, e.marked_print]
  constructor
  next =>
    refine or_congr_right ?_
    constructor
    next =>
      intro found
      obtain ⟨leaf, inside, marked⟩ := found
      cases leaf with
      | literal value sort => exact .inr ⟨value, sort, inside, marked⟩
      | var name sort => exact .inl ⟨name, sort, inside, marked⟩
      | op => cases marked
      | call => cases marked
    next =>
      intro found
      rcases found with ⟨name, sort, inside, marked⟩ | ⟨value, sort, inside, marked⟩
      · exact ⟨_, inside, marked⟩
      · exact ⟨_, inside, marked⟩
  next =>
    intro function sort operands inside
    exact .inl (e.hasCall_iff.mpr ⟨_, inside, trivial⟩)

/-- A conjunction of one operand is printed as that operand, here a call without arguments whose
name has the mark already; a comparison beside a variable that only spells the mark has no call
and is still reported. -/
theorem text_detection_exact_collapsed :
    textHasCall (Expr.op .and [.call "UF_tick" .boolean []]).print = true ∧
    (Expr.op .lt [.var "BUF_1" .integer, .literal "3" .integer]).hasCall = false ∧
    textHasCall (Expr.op .lt [.var "BUF_1" .integer, .literal "3" .integer]).print = true :=
  ⟨(text_detection_exact _).2 "UF_tick" .boolean [] (by simp [Expr.subterms, Expr.subtermsAll]),
    rfl,
    (text_detection_exact _).1.mpr (.inr (.inl ⟨"BUF_1", .integer,
      by simp [Expr.subterms, Expr.subtermsAll], ⟨['B'], ['1'], by decide⟩⟩))⟩

end PathEquiv
