import Mathlib.Data.List.Forall2
import Mathlib.Data.List.TakeWhile
import PathEquiv.Proofs.Expr.Canonical

set_option autoImplicit false

namespace PathEquiv

open Sexp

def SmtSort.isNumeric : SmtSort → Bool
  | .integer | .real => true
  | .boolean | .string => false

def Opcode.Types (opcode : Opcode) (sorts : List SmtSort) (sort : SmtSort) : Prop :=
  match opcode with
  | .add | .sub | .mul | .neg => sort.isNumeric = true ∧ ∀ other ∈ sorts, other = sort
  | .lt | .le | .gt | .ge =>
      sort = .boolean ∧ ∃ operand : SmtSort, operand.isNumeric = true ∧
        ∀ other ∈ sorts, other = operand
  | .div | .pow => sort = .real ∧ ∀ other ∈ sorts, other = .real
  | .intDiv | .mod => sort = .integer ∧ ∀ other ∈ sorts, other = .integer
  | .eq | .distinct => sort = .boolean ∧ ∃ operand, ∀ other ∈ sorts, other = operand
  | .and | .or | .not | .implies => sort = .boolean ∧ ∀ other ∈ sorts, other = .boolean
  | .ite => sorts = [.boolean, sort, sort]
  | .concat => sort = .string ∧ ∀ other ∈ sorts, other = .string
  | .strLen => sort = .integer ∧ ∀ other ∈ sorts, other = .string

/-- An expression keeps to the rules. Variables and calls have the sorts they are given. -/
inductive Expr.HasSort : Expr → SmtSort → Prop where
  | literal (value : String) (sort : SmtSort) : HasSort (.literal value sort) sort
  | var (name : String) (sort : SmtSort) : HasSort (.var name sort) sort
  | op {opcode : Opcode} {operands : List Expr} {sorts : List SmtSort} {sort : SmtSort} :
      List.Forall₂ HasSort operands sorts → opcode.Types sorts sort →
      HasSort (.op opcode operands) sort
  | call {function : String} {operands : List Expr} {sorts : List SmtSort} {sort : SmtSort} :
      List.Forall₂ HasSort operands sorts → HasSort (.call function sort operands) sort

namespace Expr

theorem sort_of_types {opcode : Opcode} {operands : List Expr} {sort : SmtSort}
    (accepted : opcode.arity.accepts operands.length = true)
    (types : opcode.Types (operands.map Expr.sort) sort) : (op opcode operands).sort = sort := by
  cases opcode with
  | add | sub | mul | neg =>
    -- The sort is taken from the first operand.
    cases operands with
    | nil => simp [Opcode.arity, Arity.accepts] at accepted
    | cons first others => simpa [Expr.sort] using types.2 first.sort (by simp)
  | ite =>
    simp only [Opcode.Types, List.map_eq_cons_iff] at types
    obtain ⟨condition, _, rfl, -, yes, _, rfl, same, -⟩ := types
    simpa [Expr.sort] using same
  | _ => simpa [Expr.sort] using types.1.symm

theorem map_sort_of_forall₂ {operands : List Expr} {sorts : List SmtSort}
    (typed : List.Forall₂ HasSort operands sorts)
    (each : ∀ e ∈ operands, ∀ sort, e.HasSort sort → e.sort = sort) :
    operands.map Expr.sort = sorts := by
  induction typed with
  | nil => rfl
  | cons first others ih =>
    have rest := ih fun e member => each e (by simp [member])
    rw [List.map_cons, each _ (by simp) _ first, rest]

theorem HasSort.sort_eq {e : Expr} {sort : SmtSort} (typed : e.HasSort sort) (valid : e.Valid) :
    e.sort = sort := by
  induction e using operandInduction generalizing sort with
  | literal value own =>
    cases typed
    rfl
  | var name own =>
    cases typed
    rfl
  | op opcode operands ih =>
    obtain ⟨accepted, operandsValid⟩ := valid_op.mp valid
    cases typed with
    | op each types =>
      have sorts := map_sort_of_forall₂ each fun e member sort typed =>
        ih e member typed (operandsValid e member)
      exact sort_of_types accepted (sorts ▸ types)
  | call function own operands ih =>
    cases typed
    rfl

end Expr

/-- The rule of a symbol whose operands have one sort, on which the sort of the value depends. -/
def uniformSort? (arity : Arity) (operand : SmtSort → Bool) (value : SmtSort → SmtSort) :
    List SmtSort → Option SmtSort
  | [] => none
  | first :: others =>
      if arity.accepts (others.length + 1) && operand first && others.all (· == first) then
        some (value first)
      else none

def choiceSort? : List SmtSort → Option SmtSort
  | [.boolean, first, second] => if first == second then some first else none
  | _ => none

/-- The rule of a symbol that the logic gives a meaning, or of the helper. A minus sign before one
operand negates it. -/
def builtIn? : String → Option (List SmtSort → Option SmtSort)
  | "+" | "*" => some (uniformSort? (.atLeast 2) SmtSort.isNumeric id)
  | "-" => some (uniformSort? (.atLeast 1) SmtSort.isNumeric id)
  | "/" => some (uniformSort? (.atLeast 2) (· == .real) id)
  | "pow" => some (uniformSort? (.exactly 2) (· == .real) id)
  | "div" => some (uniformSort? (.atLeast 2) (· == .integer) id)
  | "mod" => some (uniformSort? (.exactly 2) (· == .integer) id)
  | "<" | "<=" | ">" | ">=" =>
      some (uniformSort? (.atLeast 2) SmtSort.isNumeric fun _ => .boolean)
  | "=" | "distinct" => some (uniformSort? (.atLeast 2) (fun _ => true) fun _ => .boolean)
  | "and" | "or" | "=>" => some (uniformSort? (.atLeast 2) (· == .boolean) id)
  | "not" => some (uniformSort? (.exactly 1) (· == .boolean) id)
  | "ite" => some choiceSort?
  | "str.++" => some (uniformSort? (.atLeast 2) (· == .string) id)
  | "str.len" => some (uniformSort? (.exactly 1) (· == .string) fun _ => .integer)
  | _ => none

def numberSort? (cs : List Char) : Option SmtSort :=
  match Text.splitFirst '.' cs with
  | (whole, none) => if Text.isDigits whole then some .integer else none
  | (whole, some fraction) =>
      if Text.isDigits whole && Text.isDigits fraction then some .real else none

/-- Whether a text after an opening quote ends in its closing quote, with each quote before it
written twice. -/
def closesQuote : List Char → Bool
  | [] => false
  | ['"'] => true
  | '"' :: '"' :: rest => closesQuote rest
  | c :: rest => c ≠ '"' && closesQuote rest

namespace Sexp

section Checker

variable (signature : List Declaration)

def constantSort? (name : String) : Option SmtSort :=
  match signature.find? (·.name == name) with
  | some d => if d.arguments.isEmpty then some d.sort else none
  | none => none

def atomSort? (text : String) : Option SmtSort :=
  if text.toList.head? = some '"' then
    if closesQuote text.toList.tail then some .string else none
  else if text.toList.head?.any Text.isDecimalDigit then numberSort? text.toList
  else if text = "true" ∨ text = "false" then some .boolean
  else if (builtIn? text).isSome then none
  else constantSort? signature text

/-- The sort of an application. A declared function takes operands of its declared sorts only. -/
def applicationSort? (symbol : String) (sorts : List SmtSort) : Option SmtSort :=
  match builtIn? symbol with
  | some rule => rule sorts
  | none =>
      match signature.find? (·.name == symbol) with
      | some d => if !sorts.isEmpty && d.arguments == sorts then some d.sort else none
      | none => none

mutual

/-- The sort of a term over declared symbols, if it has one. -/
def sort? : Sexp → Option SmtSort
  | .atom text => atomSort? signature text
  | .list (.atom symbol :: operands) =>
      (sorts? operands).bind (applicationSort? signature symbol)
  | .list _ => none

def sorts? : List Sexp → Option (List SmtSort)
  | [] => some []
  | item :: items => (sort? item).bind fun sort => (sorts? items).map (sort :: ·)

end

end Checker

end Sexp

theorem uniformSort_eq {arity : Arity} {operand : SmtSort → Bool} {value : SmtSort → SmtSort}
    {sorts : List SmtSort} {sort : SmtSort} (nonempty : sorts ≠ [])
    (accepted : arity.accepts sorts.length = true) (allowed : operand sort = true)
    (common : ∀ other ∈ sorts, other = sort) :
    uniformSort? arity operand value sorts = some (value sort) := by
  cases sorts with
  | nil => exact absurd rfl nonempty
  | cons first others =>
    have same : first = sort := common first (by simp)
    have rest : ∀ other ∈ others, other = sort := fun other member =>
      common other (by simp [member])
    rw [List.length_cons] at accepted
    simpa [uniformSort?, accepted, same, allowed] using rest

theorem Arity.atLeast_of_exactly {count found : Nat}
    (accepted : (Arity.exactly count).accepts found = true) :
    (Arity.atLeast count).accepts found = true := by
  simp only [Arity.accepts, beq_iff_eq, decide_eq_true_eq] at accepted ⊢
  omega

theorem builtIn_symbol {opcode : Opcode} {sorts : List SmtSort} {sort : SmtSort}
    (accepted : opcode.arity.accepts sorts.length = true) (applies : opcode.applies sorts.length)
    (types : opcode.Types sorts sort) :
    ∃ rule, builtIn? opcode.symbol = some rule ∧ rule sorts = some sort := by
  have nonempty : sorts ≠ [] := by
    rintro rfl
    cases opcode <;> simp_all [Opcode.arity, Arity.accepts, Opcode.applies]
  have one : (Arity.atLeast 1).accepts sorts.length = true :=
    decide_eq_true (List.length_pos_iff.mpr nonempty)
  cases opcode with
  | add | mul => exact ⟨_, rfl, uniformSort_eq nonempty accepted types.1 types.2⟩
  | sub | neg => exact ⟨_, rfl, uniformSort_eq nonempty one types.1 types.2⟩
  | lt | le | gt | ge =>
    obtain ⟨rfl, operand, numeric, common⟩ := types
    exact ⟨_, rfl, uniformSort_eq nonempty (Arity.atLeast_of_exactly accepted) numeric common⟩
  | eq =>
    obtain ⟨rfl, operand, common⟩ := types
    exact ⟨_, rfl, uniformSort_eq nonempty (Arity.atLeast_of_exactly accepted) rfl common⟩
  | distinct =>
    obtain ⟨rfl, operand, common⟩ := types
    exact ⟨_, rfl, uniformSort_eq nonempty accepted rfl common⟩
  | div | intDiv | implies =>
    obtain ⟨rfl, common⟩ := types
    exact ⟨_, rfl, uniformSort_eq nonempty (Arity.atLeast_of_exactly accepted) rfl common⟩
  | and | or =>
    obtain ⟨rfl, common⟩ := types
    -- The arity allows any number, but fewer than two operands are printed without the operator.
    have two : (Arity.atLeast 2).accepts sorts.length = true := by
      simpa [Arity.accepts] using applies (by simp)
    exact ⟨_, rfl, uniformSort_eq nonempty two rfl common⟩
  | pow | mod | not | concat | strLen =>
    obtain ⟨rfl, common⟩ := types
    exact ⟨_, rfl, uniformSort_eq nonempty accepted rfl common⟩
  | ite =>
    subst types
    exact ⟨_, rfl, by simp [choiceSort?]⟩

/-- A name that has a meaning of its own in a query. -/
def IsReserved (name : String) : Prop :=
  name = "true" ∨ name = "false" ∨ ∃ opcode : Opcode, name = opcode.symbol

theorem builtIn_eq_none {name : String} (free : ¬IsReserved name) : builtIn? name = none := by
  have names : ∀ opcode ∈ Opcode.all, name ≠ opcode.symbol :=
    fun opcode _ same => free (.inr (.inr ⟨opcode, same⟩))
  simp only [Opcode.all, List.forall_mem_cons, Opcode.symbol, Opcode.name] at names
  unfold builtIn?
  split <;> simp_all

theorem splitFirst_of_not_mem {sep : Char} {text : List Char} (absent : sep ∉ text) :
    Text.splitFirst sep text = (text, none) := by
  have passed : text.dropWhile (· ≠ sep) = [] := by
    rw [List.dropWhile_eq_nil_iff]
    intro c member
    have other : c ≠ sep := fun same => absent (same ▸ member)
    simpa using other
  rw [Text.splitFirst, passed]

theorem splitFirst_append_sep {sep : Char} {whole : List Char} (absent : sep ∉ whole)
    (rest : List Char) : Text.splitFirst sep (whole ++ sep :: rest) = (whole, some rest) := by
  have passed : ∀ c ∈ whole, (!decide (c = sep)) = true := by
    intro c member
    have other : c ≠ sep := fun same => absent (same ▸ member)
    simpa using other
  simp [Text.splitFirst, List.dropWhile_append_of_pos passed, List.takeWhile_append_of_pos passed]

theorem numberSort_digits {cs : List Char} (digits : Text.isDigits cs = true) :
    numberSort? cs = some .integer := by
  have absent := Text.not_mem_of_isDigits (c := '.') (by decide) digits
  simp [numberSort?, splitFirst_of_not_mem absent, digits]

theorem numberSort_decimal {whole fraction : List Char} (wholeDigits : Text.isDigits whole = true)
    (fractionDigits : Text.isDigits fraction = true) :
    numberSort? (whole ++ '.' :: fraction) = some .real := by
  have absent := Text.not_mem_of_isDigits (c := '.') (by decide) wholeDigits
  simp [numberSort?, splitFirst_append_sep absent, wholeDigits, fractionDigits]

theorem numberSort_withPoint {value : String} (spelled : SmtSort.real.spells value = true) :
    numberSort? (withPoint (magnitude value.toList)) = some .real := by
  have parts := splitFirst_append '.' (magnitude value.toList)
  simp only [SmtSort.spells, Bool.and_eq_true] at spelled
  obtain ⟨wholeDigits, fractionDigits⟩ := spelled
  generalize magnitude value.toList = cs at *
  cases fraction : (Text.splitFirst '.' cs).2 with
  | none =>
    simp only [fraction, Option.elim_none, List.append_nil] at parts
    have absent := Text.not_mem_of_isDigits (c := '.') (by decide) wholeDigits
    rw [← parts] at wholeDigits absent
    -- A whole number would be an integer here, so it is written with a fraction.
    have pointed : withPoint cs = cs ++ ['.', '0'] := by simp [withPoint, absent]
    rw [pointed]
    exact numberSort_decimal wholeDigits (by decide)
  | some rest =>
    simp only [fraction, Option.elim_some] at parts
    simp only [fraction, Option.getD_some] at fractionDigits
    have unchanged : withPoint cs = cs := by
      have point : '.' ∈ cs := by
        rw [parts]
        simp
      simp [withPoint, point]
    rw [unchanged, parts]
    exact numberSort_decimal wholeDigits fractionDigits

theorem closesQuote_doubleQuotes (cs : List Char) :
    closesQuote (doubleQuotes cs ++ ['"']) = true := by
  induction cs with
  | nil => rfl
  | cons c cs ih =>
    by_cases quote : c = '"'
    next => simpa [doubleQuotes, quote, closesQuote] using ih
    next => simpa [doubleQuotes, quote, closesQuote] using ih

section Trees

variable {signature : List Declaration}

theorem atomSort_number {cs : List Char} {sort : SmtSort}
    (digit : cs.head?.any Text.isDecimalDigit = true) (number : numberSort? cs = some sort) :
    atomSort? signature (String.ofList cs) = some sort := by
  have quote : cs.head? ≠ some '"' := by
    intro same
    rw [same] at digit
    revert digit
    decide
  simp [atomSort?, digit, number, quote]

theorem sort_signed {value : String} {written : List Char → List Char} {sort : SmtSort}
    (numeric : sort.isNumeric = true)
    (digit : (written (magnitude value.toList)).head?.any Text.isDecimalDigit = true)
    (number : numberSort? (written (magnitude value.toList)) = some sort) :
    (signedTree value written).sort? signature = some sort := by
  have atom : atomSort? signature _ = some sort := atomSort_number digit number
  rcases signedTree_eq value written with positive | negative
  · rw [positive, Sexp.sort?, atom]
  · have minus : builtIn? "-" = some (uniformSort? (.atLeast 1) SmtSort.isNumeric id) := rfl
    rw [negative, Sexp.sort?]
    simp [Sexp.sorts?, Sexp.sort?, atom, applicationSort?, minus, uniformSort?, Arity.accepts,
      numeric]

theorem sort_literalTree {sort : SmtSort} {value : String} (spelled : sort.spells value = true) :
    (sort.literalTree value).sort? signature = some sort := by
  cases sort with
  | integer => exact sort_signed rfl (Text.head_of_isDigits spelled) (numberSort_digits spelled)
  | real =>
    exact sort_signed rfl (head_withPoint (head_of_spells_real spelled))
      (numberSort_withPoint spelled)
  | boolean =>
    simp only [SmtSort.spells, Bool.or_eq_true, beq_iff_eq] at spelled
    rcases spelled with rfl | rfl
    · rfl
    · rfl
  | string =>
    have closed := closesQuote_doubleQuotes value.toList
    simp [SmtSort.literalTree, Sexp.sort?, atomSort?, SmtSort.printLiteral, closed]

theorem atomSort_constant {name : String} (simple : isSimpleSymbol name.toList = true)
    (free : ¬IsReserved name) : atomSort? signature name = constantSort? signature name := by
  have word : ¬(name = "true" ∨ name = "false") := fun word => free (or_assoc.mp (.inl word))
  have none := builtIn_eq_none free
  have digit : name.toList.head?.any Text.isDecimalDigit = false := by
    cases chars : name.toList with
    | nil => rfl
    | cons c rest =>
      simp only [chars, isSimpleSymbol, Bool.and_eq_true, Bool.not_eq_true'] at simple
      exact simple.2
  have quote : name.toList.head? ≠ some '"' := by
    intro same
    have char := isSymbolChar_of_simple simple '"' (List.mem_of_head? same)
    revert char
    decide
  simp [atomSort?, quote, digit, word, none]

theorem free_callSymbol (function : String) : ¬IsReserved (callSymbol function) := by
  have marked := marked_callSymbol function
  rintro (same | same | ⟨opcode, same⟩)
  · rw [same] at marked
    revert marked
    decide
  · rw [same] at marked
    revert marked
    decide
  · rw [same, unmarked_symbol] at marked
    cases marked

theorem sorts_eq_of_forall₂ {operands : List Expr} {sorts : List SmtSort}
    (each : List.Forall₂ Expr.HasSort operands sorts)
    (checked : ∀ e ∈ operands, ∀ sort, e.HasSort sort → e.tree.sort? signature = some sort) :
    sorts? signature (operands.map Expr.tree) = some sorts := by
  induction each with
  | nil => rfl
  | cons first others ih =>
    have rest := ih fun e member => checked e (by simp [member])
    simp [sorts?, checked _ (by simp) _ first, rest]

theorem sort_operatorTree {opcode : Opcode} {operands : List Sexp} {sorts : List SmtSort}
    {sort : SmtSort} (accepted : opcode.arity.accepts operands.length = true)
    (found : sorts? signature operands = some sorts) (length : sorts.length = operands.length)
    (types : opcode.Types sorts sort) :
    (operatorTree opcode operands).sort? signature = some sort := by
  by_cases applies : opcode.applies operands.length
  next =>
    rw [← length] at accepted
    obtain ⟨rule, builtIn, value⟩ := builtIn_symbol accepted (length ▸ applies) types
    rw [operatorTree_applies opcode operands applies, Sexp.sort?]
    simp [found, applicationSort?, builtIn, value]
  next =>
    -- A connective of fewer than two operands is a constant, or its only operand.
    simp only [Opcode.applies, Classical.not_imp, Nat.not_le] at applies
    obtain ⟨connective, few⟩ := applies
    have logic : sort = .boolean ∧ ∀ other ∈ sorts, other = .boolean := by
      rcases connective with rfl | rfl <;> exact types
    cases operands with
    | nil =>
      rw [logic.1]
      rcases connective with rfl | rfl <;> rfl
    | cons operand others =>
      rw [List.length_cons] at few
      have none : others = [] := List.length_eq_zero_iff.mp (by omega)
      subst none
      have single : operatorTree opcode [operand] = operand := by
        rcases connective with rfl | rfl <;> rfl
      simp only [sorts?, Option.map_some, Option.bind_eq_some_iff, Option.some.injEq] at found
      obtain ⟨own, operandSort, rfl⟩ := found
      rw [single, operandSort, logic.1, logic.2 own (by simp)]

theorem sort_callTree {function : String} {operands : List Expr} {sorts : List SmtSort}
    {sort : SmtSort} (simple : isSimpleSymbol function.toList = true)
    (found : sorts? signature (operands.map Expr.tree) = some sorts)
    (declared : signature.find? (·.name == callSymbol function) =
      some (Expr.callDeclaration function sort operands))
    (arguments : operands.map Expr.sort = sorts) :
    (callTree function (operands.map Expr.tree)).sort? signature = some sort := by
  have free := free_callSymbol function
  cases operands with
  | nil =>
    rw [List.map_nil, callTree, Sexp.sort?,
      atomSort_constant (isSimpleSymbol_callSymbol function simple) free, constantSort?, declared]
    simp [Expr.callDeclaration]
  | cons first others =>
    rw [List.map_cons, callTree, ← List.map_cons, Sexp.sort?, found]
    · simp [applicationSort?, builtIn_eq_none free, declared, Expr.callDeclaration, ← arguments]
    · simp

/-- The tree of a valid expression that keeps to the rules has the sort of the expression, under
every signature in which its symbols are found with the signatures they are used with. -/
theorem sort_tree {e : Expr} {sort : SmtSort} (valid : e.Valid) (typed : e.HasSort sort)
    (free : ∀ name ∈ e.variableNames, ¬IsReserved name)
    (declared : ∀ d ∈ e.uses, signature.find? (·.name == d.name) = some d) :
    e.tree.sort? signature = some sort := by
  induction e using Expr.operandInduction generalizing sort with
  | literal value own =>
    cases typed
    exact sort_literalTree (Expr.valid_literal.mp valid)
  | var name own =>
    cases typed
    have found := declared (.constant name own) (by simp [Expr.uses])
    rw [Expr.tree, Sexp.sort?, atomSort_constant (Expr.valid_var.mp valid)
      (free name (by simp [Expr.variableNames])), constantSort?]
    simp only [Declaration.constant] at found
    simp [found]
  | op opcode operands ih =>
    obtain ⟨accepted, operandsValid⟩ := Expr.valid_op.mp valid
    rw [Expr.variableNames, Expr.variableNamesAll_eq] at free
    rw [Expr.uses, Expr.usesAll_eq] at declared
    cases typed with
    | op each types =>
      have sorts := sorts_eq_of_forall₂ each fun e member sort typed =>
        ih e member (operandsValid e member) typed
          (fun name occurs => free name (List.mem_flatMap.mpr ⟨e, member, occurs⟩))
          fun d used => declared d (List.mem_flatMap.mpr ⟨e, member, used⟩)
      rw [Expr.tree, Expr.treeAll_eq]
      exact sort_operatorTree (by simpa using accepted) sorts
        (by simpa using each.length_eq.symm) types
  | call function own operands ih =>
    obtain ⟨simple, operandsValid⟩ := Expr.valid_call.mp valid
    rw [Expr.variableNames, Expr.variableNamesAll_eq] at free
    rw [Expr.uses, Expr.usesAll_eq] at declared
    cases typed with
    | call each =>
      have sorts := sorts_eq_of_forall₂ each fun e member sort typed =>
        ih e member (operandsValid e member) typed
          (fun name occurs => free name (List.mem_flatMap.mpr ⟨e, member, occurs⟩))
          fun d used =>
            declared d (List.mem_cons_of_mem _ (List.mem_flatMap.mpr ⟨e, member, used⟩))
      have arguments := Expr.map_sort_of_forall₂ each fun e member sort typed =>
        typed.sort_eq (operandsValid e member)
      have found := declared (Expr.callDeclaration function own operands) (by simp)
      simp only [Expr.callDeclaration] at found
      rw [Expr.tree, Expr.treeAll_eq]
      exact sort_callTree simple sorts found arguments

end Trees

theorem find_of_mem {signature : List Declaration}
    (distinct : (signature.map Declaration.name).Nodup) {d : Declaration} (member : d ∈ signature) :
    signature.find? (·.name == d.name) = some d := by
  cases found : signature.find? (·.name == d.name) with
  | none => exact absurd (beq_self_eq_true d.name) (List.find?_eq_none.mp found d member)
  | some other =>
    have same : other.name = d.name := by simpa using List.find?_some found
    have occurs := List.mem_of_find?_eq_some found
    rw [List.inj_on_of_nodup_map distinct occurs member same]

/-- An expression that keeps to the sort rules is given its sort, and under the declarations that
are inferred for it alone its text is one term of this sort. -/
theorem printed_well_sorted {e : Expr} {sort : SmtSort} (valid : e.Valid) (typed : e.HasSort sort)
    (free : ∀ name ∈ e.variableNames, ¬IsReserved name) :
    e.sort = sort ∧ ∀ declarations, inferFromExprs .empty [e] = .ok declarations →
      ∃ tree, readAll e.print = [tree] ∧ tree.sort? declarations = some sort := by
  refine ⟨typed.sort_eq valid, fun declarations inferred => ⟨e.tree, ?_, ?_⟩⟩
  next => exact (reads_print e valid).readChars
  next =>
    refine sort_tree valid typed free fun d used => ?_
    have declared : d ∈ declarations :=
      (mem_inferFromExprs inferred d).mpr ⟨by simpa using used, rfl⟩
    exact find_of_mem (nodup_names_of_inferred inferred) declared

theorem printed_well_sorted_nested :
    let call := Expr.call "g" .integer [.int (-2), .realVar "y"]
    let e := Expr.and [.lt (.pow (.realVar "y") (.real "-1")) (.call "f" .real [call, .and []])]
    e.print = "(< (pow y (- 1.0)) (UF_f (UF_g (- 2) y) true))" ∧ e.sort = .boolean ∧
      ∃ declarations tree, inferFromExprs .empty [e] = .ok declarations ∧
        readAll e.print = [tree] ∧ tree.sort? declarations = some .boolean := by
  intro call e
  have valid : e.Valid := rfl
  have typed : e.HasSort .boolean := by
    have power : (Expr.pow (.realVar "y") (.real "-1")).HasSort .real :=
      .op (.cons (.var _ _) (.cons (.literal _ _) .nil)) ⟨rfl, by simp⟩
    have inner : call.HasSort .integer := .call (.cons (.literal _ _) (.cons (.var _ _) .nil))
    have truth : (Expr.and []).HasSort .boolean := .op .nil ⟨rfl, by simp⟩
    have outer : (Expr.call "f" .real [call, .and []]).HasSort .real :=
      .call (.cons inner (.cons truth .nil))
    exact .op (.cons (.op (.cons power (.cons outer .nil)) ⟨rfl, .real, rfl, by simp⟩) .nil)
      ⟨rfl, by simp⟩
  have free : ∀ name ∈ e.variableNames, ¬IsReserved name := by
    have names : e.variableNames = ["y", "y"] := by decide
    intro name member
    obtain rfl : name = "y" := by simpa [names] using member
    rintro (same | same | ⟨opcode, same⟩)
    · revert same
      decide
    · revert same
      decide
    · cases opcode <;> exact absurd same (by decide)
  have collected : Expr.collectAll [] [e] = .ok [⟨"UF_g", [.integer, .real], .integer⟩,
      ⟨"UF_f", [.integer, .boolean], .real⟩, ⟨"y", [], .real⟩] := by
    decide +kernel
  obtain ⟨declarations, inferred⟩ : ∃ declarations,
      inferFromExprs .empty [e] = .ok declarations := ⟨_, by rw [inferFromExprs, collected]⟩
  have sorted := printed_well_sorted valid typed free
  obtain ⟨tree, read, checked⟩ := sorted.2 declarations inferred
  exact ⟨by decide +kernel, sorted.1, declarations, tree, inferred, read, checked⟩

end PathEquiv
