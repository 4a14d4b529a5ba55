import PathEquiv.Proofs.Declaration.Line

set_option autoImplicit false

namespace PathEquiv

open Sexp

namespace Expr

def normNumber (sort : SmtSort) (value : String) (written : List Char → List Char) : Expr :=
  match value.toList with
  | '-' :: digits => .neg (.literal (String.ofList (written digits)) sort)
  | digits => .literal (String.ofList (written digits)) sort

def normLiteral (value : String) : SmtSort → Expr
  | .integer => normNumber .integer value id
  | .real => normNumber .real value withPoint
  | .boolean => .literal value .boolean
  | .string => .literal value .string

def normOperator : Opcode → List Expr → Expr
  | .and, [] => .bool true
  | .or, [] => .bool false
  | .and, [operand] | .or, [operand] => operand
  | opcode, operands => .op opcode operands

mutual

def norm : Expr → Expr
  | .literal value sort => normLiteral value sort
  | .var name sort => .var name sort
  | .op opcode operands => normOperator opcode (normAll operands)
  | .call function sort operands => .call (callSymbol function) sort (normAll operands)

def normAll : List Expr → List Expr
  | [] => []
  | e :: es => norm e :: normAll es

end

theorem normNumber_positive {sort : SmtSort} {value : String} {written : List Char → List Char}
    (positive : ∀ digits, value.toList ≠ '-' :: digits) :
    normNumber sort value written = .literal (String.ofList (written value.toList)) sort := by
  unfold normNumber
  split
  next digits shape => exact absurd shape (positive digits)
  next => rfl

theorem normAll_eq (es : List Expr) : normAll es = es.map norm := by
  induction es with
  | nil => rfl
  | cons e es ih => simp [normAll, ih]

theorem normOperator_applies (opcode : Opcode) (operands : List Expr)
    (applies : opcode.applies operands.length) :
    normOperator opcode operands = .op opcode operands := by
  unfold normOperator
  split <;> simp_all [Opcode.applies]

mutual

def variableNames : Expr → List String
  | .literal _ _ => []
  | .var name _ => [name]
  | .op _ operands | .call _ _ operands => variableNamesAll operands

def variableNamesAll : List Expr → List String
  | [] => []
  | e :: es => variableNames e ++ variableNamesAll es

end

theorem variableNamesAll_eq (es : List Expr) : variableNamesAll es = es.flatMap variableNames := by
  induction es with
  | nil => rfl
  | cons e es ih => simp [variableNamesAll, ih]

end Expr

def undouble : List Char → List Char
  | [] | ['"'] => []
  | '"' :: '"' :: rest => '"' :: undouble rest
  | c :: rest => c :: undouble rest

def ofAtom (sortOf : String → SmtSort) (text : String) : Expr :=
  if text.toList.head? = some '"' then
    .literal (String.ofList (undouble text.toList.tail)) .string
  else if text.toList.head?.any Text.isDecimalDigit then
    .literal text (if text.toList.contains '.' then .real else .integer)
  else if text = "true" ∨ text = "false" then .literal text .boolean
  else if Text.hasStart callMarker text then .call text (sortOf text) []
  else .var text (sortOf text)

def opcodeOf (symbol : String) (count : Nat) : Opcode :=
  if symbol = "-" ∧ count = 1 then .neg else (Opcode.ofName? symbol).getD .and

def ofApplication (sortOf : String → SmtSort) (symbol : String) (operands : List Expr) : Expr :=
  if Text.hasStart callMarker symbol then .call symbol (sortOf symbol) operands
  else .op (opcodeOf symbol operands.length) operands

mutual

def ofTree (sortOf : String → SmtSort) : Sexp → Expr
  | .atom text => ofAtom sortOf text
  | .list (.atom symbol :: operands) => ofApplication sortOf symbol (ofTrees sortOf operands)
  -- No expression has such a tree.
  | .list [] | .list (.list _ :: _) => .and []

def ofTrees (sortOf : String → SmtSort) : List Sexp → List Expr
  | [] => []
  | item :: items => ofTree sortOf item :: ofTrees sortOf items

end

theorem ofTrees_eq (sortOf : String → SmtSort) (items : List Sexp) :
    ofTrees sortOf items = items.map (ofTree sortOf) := by
  induction items with
  | nil => rfl
  | cons item items ih => simp [ofTrees, ih]

theorem undouble_doubleQuotes (cs : List Char) : undouble (doubleQuotes cs ++ ['"']) = cs := by
  induction cs with
  | nil => rfl
  | cons c cs ih =>
    by_cases quote : c = '"'
    next => simpa [doubleQuotes, quote, undouble] using ih
    next =>
      have rest : doubleQuotes (c :: cs) = c :: doubleQuotes cs := by simp [doubleQuotes, quote]
      rw [rest, List.cons_append, undouble, ih]
      all_goals simp [quote]

theorem head_of_marked {text : String} (marked : Text.hasStart callMarker text = true) :
    text.toList.head? = some 'U' := by
  obtain ⟨rest, found⟩ := Option.isSome_iff_exists.mp marked
  rw [Text.eq_append_of_after found]
  rfl

theorem marked_callSymbol (function : String) :
    Text.hasStart callMarker (callSymbol function) = true := by
  unfold callSymbol
  split
  next marked => exact marked
  next =>
    rw [Text.hasStart, Text.startsWith, String.toList_append, Text.after_append]
    rfl

section Atoms

variable (sortOf : String → SmtSort)

theorem ofAtom_string (value : String) :
    ofAtom sortOf (SmtSort.string.printLiteral value) = .literal value .string := by
  have chars : (SmtSort.string.printLiteral value).toList =
      '"' :: (doubleQuotes value.toList ++ ['"']) := by
    simp [SmtSort.printLiteral]
  simp [ofAtom, chars, undouble_doubleQuotes]

theorem ofAtom_number (text : String) (digit : text.toList.head?.any Text.isDecimalDigit = true) :
    ofAtom sortOf text = .literal text (if text.toList.contains '.' then .real else .integer) := by
  have quote : text.toList.head? ≠ some '"' := by
    intro same
    rw [same] at digit
    revert digit
    decide
  simp [ofAtom, quote, digit]

theorem ofAtom_call (text : String) (marked : Text.hasStart callMarker text = true) :
    ofAtom sortOf text = .call text (sortOf text) [] := by
  have head := head_of_marked marked
  have word : ¬(text = "true" ∨ text = "false") := by
    rintro (rfl | rfl)
    · revert head
      decide
    · revert head
      decide
  have digit : Text.isDecimalDigit 'U' = false := by decide
  simp [ofAtom, head, digit, word, marked]

theorem ofAtom_var (name : String) (simple : isSimpleSymbol name.toList = true)
    (word : ¬(name = "true" ∨ name = "false"))
    (unmarked : Text.hasStart callMarker name = false) :
    ofAtom sortOf name = .var name (sortOf name) := by
  have quote : name.toList.head? ≠ some '"' := by
    intro same
    have char := isSymbolChar_of_simple simple '"' (List.mem_of_head? same)
    revert char
    decide
  have digit : name.toList.head?.any Text.isDecimalDigit = false := by
    cases shape : name.toList with
    | nil => rfl
    | cons c cs =>
      simp only [shape, isSimpleSymbol, Bool.and_eq_true, Bool.not_eq_true'] at simple
      simpa using simple.2
  simp [ofAtom, quote, digit, word, unmarked]

end Atoms

theorem ofTree_list (sortOf : String → SmtSort) (symbol : String) (items : List Sexp) :
    ofTree sortOf (.list (.atom symbol :: items)) =
      ofApplication sortOf symbol (items.map (ofTree sortOf)) := by
  rw [ofTree, ofTrees_eq]

theorem unmarked_symbol (opcode : Opcode) : Text.hasStart callMarker opcode.symbol = false := by
  cases opcode <;> decide

theorem opcodeOf_symbol (opcode : Opcode) (count : Nat)
    (accepted : opcode.arity.accepts count = true) : opcodeOf opcode.symbol count = opcode := by
  cases opcode with
  | neg =>
    have single : count = 1 := by simpa [Opcode.arity, Arity.accepts] using accepted
    simp [opcodeOf, Opcode.symbol, single]
  | sub =>
    have several : count ≠ 1 := by
      simp only [Opcode.arity, Arity.accepts, decide_eq_true_eq] at accepted
      omega
    simp [opcodeOf, several]
    rfl
  | _ => rfl

theorem ofTree_signed (sortOf : String → SmtSort) (sort : SmtSort) (value : String)
    (written : List Char → List Char)
    (number : ofAtom sortOf (String.ofList (written (magnitude value.toList))) =
      .literal (String.ofList (written (magnitude value.toList))) sort) :
    ofTree sortOf (signedTree value written) = Expr.normNumber sort value written := by
  unfold magnitude at number
  split at number
  next digits shape =>
    simp only [signedTree, Expr.normNumber, shape, ofTree_list, List.map_cons, List.map_nil, ofTree,
      number]
    rfl
  next positive =>
    rw [Expr.normNumber_positive positive, ← number]
    unfold signedTree
    split
    next digits shape => exact absurd shape (positive digits)
    next => rw [ofTree]

theorem head_of_spells_real {value : String} (spelled : SmtSort.real.spells value = true) :
    (magnitude value.toList).head?.any Text.isDecimalDigit = true := by
  have parts := splitFirst_append '.' (magnitude value.toList)
  simp only [SmtSort.spells, Bool.and_eq_true] at spelled
  have head := Text.head_of_isDigits spelled.1
  cases whole : (Text.splitFirst '.' (magnitude value.toList)).1 with
  | nil => simp [whole] at head
  | cons c cs =>
    rw [whole] at head parts
    rw [parts]
    exact head

theorem point_mem_withPoint (digits : List Char) : (withPoint digits).contains '.' = true := by
  unfold withPoint
  split
  next point => exact point
  next => simp

theorem head_withPoint {digits : List Char}
    (digit : digits.head?.any Text.isDecimalDigit = true) :
    (withPoint digits).head?.any Text.isDecimalDigit = true := by
  cases digits with
  | nil => cases digit
  | cons c cs =>
    unfold withPoint
    split
    next => exact digit
    next => exact digit

theorem ofTree_literal (sortOf : String → SmtSort) (sort : SmtSort) (value : String)
    (spelled : sort.spells value = true) :
    ofTree sortOf (sort.literalTree value) = Expr.normLiteral value sort := by
  cases sort with
  | integer =>
    have digit := Text.head_of_isDigits spelled
    have point := Text.not_mem_of_isDigits (c := '.') (by decide) spelled
    apply ofTree_signed
    rw [ofAtom_number sortOf _ (by simpa using digit)]
    simp [point]
  | real =>
    have digit := head_withPoint (head_of_spells_real spelled)
    have point := point_mem_withPoint (magnitude value.toList)
    apply ofTree_signed
    rw [ofAtom_number sortOf _ (by simpa using digit), String.toList_ofList, point]
    rfl
  | boolean =>
    simp only [SmtSort.spells, Bool.or_eq_true, beq_iff_eq] at spelled
    rcases spelled with rfl | rfl
    · rfl
    · rfl
  | string => exact ofAtom_string sortOf value

def isOrdinary (name : String) : Bool :=
  name ≠ "true" && name ≠ "false" && !Text.hasStart callMarker name

theorem ofTree_operator (sortOf : String → SmtSort) (opcode : Opcode) (operands : List Expr)
    (accepted : opcode.arity.accepts operands.length = true)
    (restored : ∀ e ∈ operands, ofTree sortOf e.tree = e.norm) :
    ofTree sortOf (operatorTree opcode (operands.map Expr.tree)) =
      Expr.normOperator opcode (operands.map Expr.norm) := by
  have each : (operands.map Expr.tree).map (ofTree sortOf) = operands.map Expr.norm := by
    simpa using restored
  by_cases applies : opcode.applies operands.length
  next =>
    have same := opcodeOf_symbol opcode operands.length accepted
    rw [operatorTree_applies _ _ (by simpa using applies),
      Expr.normOperator_applies _ _ (by simpa using applies), ofTree_list, each]
    simp [ofApplication, unmarked_symbol, same]
  next =>
    -- A connective of fewer than two operands is the word or the operand that is written for it.
    simp only [Opcode.applies, Classical.not_imp, Nat.not_le] at applies
    obtain ⟨connective, few⟩ := applies
    rcases operands with _ | ⟨operand, _ | ⟨_, _⟩⟩
    · rcases connective with rfl | rfl <;> rfl
    · have single := restored operand (by simp)
      rcases connective with rfl | rfl <;> exact single
    · simp only [List.length_cons] at few
      omega

theorem ofTree_tree (sortOf : String → SmtSort) (e : Expr) (valid : e.Valid)
    (sorted : ∀ d ∈ e.uses, sortOf d.name = d.sort)
    (ordinary : ∀ name ∈ e.variableNames, isOrdinary name = true) :
    ofTree sortOf e.tree = e.norm := by
  induction e using Expr.operandInduction with
  | literal value sort =>
    rw [Expr.tree, Expr.norm]
    exact ofTree_literal sortOf sort value (Expr.valid_literal.mp valid)
  | var name sort =>
    have plain := ordinary name (by simp [Expr.variableNames])
    simp only [isOrdinary, Bool.and_eq_true, Bool.not_eq_true', decide_eq_true_eq] at plain
    have own : sortOf name = sort := sorted (.constant name sort) (by simp [Expr.uses])
    rw [Expr.tree, Expr.norm, ofTree, ofAtom_var sortOf name (Expr.valid_var.mp valid)
      (by simp [plain.1]) plain.2, own]
  | op opcode operands ih =>
    obtain ⟨accepted, operandsValid⟩ := Expr.valid_op.mp valid
    simp only [Expr.uses, Expr.usesAll_eq, List.mem_flatMap] at sorted
    simp only [Expr.variableNames, Expr.variableNamesAll_eq, List.mem_flatMap] at ordinary
    rw [Expr.tree, Expr.norm, Expr.treeAll_eq, Expr.normAll_eq]
    refine ofTree_operator sortOf opcode operands accepted fun e member => ?_
    exact ih e member (operandsValid e member) (fun d used => sorted d ⟨e, member, used⟩)
      fun name occurs => ordinary name ⟨e, member, occurs⟩
  | call function sort operands ih =>
    obtain ⟨-, operandsValid⟩ := Expr.valid_call.mp valid
    simp only [Expr.uses, Expr.usesAll_eq, List.mem_cons, List.mem_flatMap] at sorted
    simp only [Expr.variableNames, Expr.variableNamesAll_eq, List.mem_flatMap] at ordinary
    have own : sortOf (callSymbol function) = sort :=
      sorted (Expr.callDeclaration function sort operands) (.inl rfl)
    have marked := marked_callSymbol function
    have each : (operands.map Expr.tree).map (ofTree sortOf) = operands.map Expr.norm := by
      simp only [List.map_map, List.map_inj_left, Function.comp_apply]
      intro e member
      exact ih e member (operandsValid e member) (fun d used => sorted d (.inr ⟨e, member, used⟩))
        fun name occurs => ordinary name ⟨e, member, occurs⟩
    rw [Expr.tree, Expr.norm, Expr.treeAll_eq, Expr.normAll_eq, ← each]
    cases operands with
    | nil => simp [callTree, ofTree, ofAtom_call sortOf _ marked, own]
    | cons first others => simp [callTree, ofTree_list, ofApplication, marked, own]

theorem callSymbol_callSymbol (function : String) :
    callSymbol (callSymbol function) = callSymbol function := by
  rw [callSymbol, if_pos (marked_callSymbol function)]

theorem signed_positive {value : String} {written : List Char → List Char}
    (positive : ∀ digits, value.toList ≠ '-' :: digits) :
    signed value written = String.ofList (written value.toList) := by
  unfold signed
  split
  next digits shape => exact absurd shape (positive digits)
  next => rfl

theorem ne_minus_of_digit {cs : List Char} (digit : cs.head?.any Text.isDecimalDigit = true)
    (rest : List Char) : cs ≠ '-' :: rest := by
  rintro rfl
  revert digit
  simp only [List.head?_cons, Option.any_some]
  decide

-- Once written, a magnitude is written as it stands.
theorem print_normNumber {sort : SmtSort} {value : String} {written : List Char → List Char}
    (prints : ∀ text, sort.printLiteral text = signed text written)
    (digit : (written (magnitude value.toList)).head?.any Text.isDecimalDigit = true)
    (again : ∀ cs, written (written cs) = written cs) :
    (Expr.normNumber sort value written).print = signed value written := by
  have literal : sort.printLiteral (String.ofList (written (magnitude value.toList))) =
      String.ofList (written (magnitude value.toList)) := by
    rw [prints, signed_positive (by simpa using ne_minus_of_digit digit)]
    simp [again]
  unfold magnitude at literal
  split at literal
  next digits shape =>
    simp [Expr.normNumber, signed, shape, Expr.neg, Expr.print, Expr.printAll, literal,
      printOperator, application, Opcode.symbol]
  next positive =>
    rw [Expr.normNumber_positive positive, Expr.print, signed_positive positive, literal]

theorem withPoint_withPoint (digits : List Char) :
    withPoint (withPoint digits) = withPoint digits := by
  rw [withPoint, if_pos (point_mem_withPoint digits)]

theorem print_normOperator (opcode : Opcode) (operands : List Expr) :
    (Expr.normOperator opcode operands).print = printOperator opcode (operands.map Expr.print) := by
  by_cases applies : opcode.applies operands.length
  next => rw [Expr.normOperator_applies _ _ applies, Expr.print, Expr.printAll_eq]
  next =>
    simp only [Opcode.applies, Classical.not_imp, Nat.not_le] at applies
    obtain ⟨connective, few⟩ := applies
    rcases operands with _ | ⟨operand, _ | ⟨_, _⟩⟩
    · rcases connective with rfl | rfl <;> rfl
    · rcases connective with rfl | rfl <;> rfl
    · simp only [List.length_cons] at few
      omega

theorem print_norm (e : Expr) (valid : e.Valid) : e.norm.print = e.print := by
  induction e using Expr.operandInduction with
  | literal value sort =>
    have spelled := Expr.valid_literal.mp valid
    rw [Expr.norm, Expr.print]
    cases sort with
    | integer =>
      exact print_normNumber (fun _ => rfl) (Text.head_of_isDigits spelled) fun _ => rfl
    | real =>
      exact print_normNumber (fun _ => rfl) (head_withPoint (head_of_spells_real spelled))
        withPoint_withPoint
    | boolean => rfl
    | string => rfl
  | var name sort => rfl
  | op opcode operands ih =>
    obtain ⟨-, operandsValid⟩ := Expr.valid_op.mp valid
    rw [Expr.norm, Expr.print, Expr.normAll_eq, Expr.printAll_eq, print_normOperator]
    congr 1
    simpa using fun e member => ih e member (operandsValid e member)
  | call function sort operands ih =>
    obtain ⟨-, operandsValid⟩ := Expr.valid_call.mp valid
    have each : (operands.map Expr.norm).map Expr.print = operands.map Expr.print := by
      simpa using fun e member => ih e member (operandsValid e member)
    rw [Expr.norm, Expr.print, Expr.print, Expr.normAll_eq, Expr.printAll_eq, Expr.printAll_eq,
      each]
    cases operands with
    | nil => exact callSymbol_callSymbol function
    | cons first others => simp [printCall, callSymbol_callSymbol]

/-- Valid expressions that use every symbol with one signature have one text only if they have one
canonical form, and taking the canonical form never changes the text. -/
theorem print_eq_iff_norm_eq {first second : Expr} (firstValid : first.Valid)
    (secondValid : second.Valid) {declarations : List Declaration}
    (inferred : inferFromExprs .empty [first, second] = .ok declarations)
    (ordinary : ∀ name ∈ first.variableNames ++ second.variableNames, isOrdinary name = true) :
    (first.print = second.print ↔ first.norm = second.norm) ∧
      ∀ e : Expr, e.Valid → e.norm.print = e.print := by
  refine ⟨⟨fun same => ?_, fun same => ?_⟩, print_norm⟩
  next =>
    -- The sorts that the declarations give serve for both expressions.
    let sortOf (name : String) : SmtSort :=
      ((declarations.find? (·.name == name)).map Declaration.sort).getD .integer
    have sorted (d : Declaration) (used : d ∈ [first, second].flatMap Expr.uses) :
        sortOf d.name = d.sort := by
      have declared := (mem_inferFromExprs inferred d).mpr ⟨used, rfl⟩
      obtain ⟨found, isFound⟩ : ∃ found, declarations.find? (·.name == d.name) = some found := by
        apply Option.isSome_iff_exists.mp
        rw [List.find?_isSome]
        exact ⟨d, declared, by simp⟩
      have foundUsed :=
        ((mem_inferFromExprs inferred found).mp (List.mem_of_find?_eq_some isFound)).1
      have same : found.name = d.name := by simpa using List.find?_some isFound
      simp [sortOf, isFound, signature_unique inferred foundUsed used same]
    have trees : first.tree = second.tree := by
      have firstRead := (reads_print first firstValid).readChars
      rw [same, (reads_print second secondValid).readChars] at firstRead
      exact (List.singleton_inj.mp firstRead).symm
    rw [← ofTree_tree sortOf first firstValid (fun d used => sorted d (by simp [used]))
        fun name occurs => ordinary name (by simp [occurs]),
      ← ofTree_tree sortOf second secondValid (fun d used => sorted d (by simp [used]))
        fun name occurs => ordinary name (by simp [occurs]), trees]
  next => rw [← print_norm first firstValid, ← print_norm second secondValid, same]

theorem print_eq_iff_norm_eq_mixed :
    let first := Expr.and [.eq (.call "f" .real [.literal "-3" .integer, .string "a\"("])
      (.literal "2" .real)]
    let second := Expr.eq (.call "UF_f" .real [.neg (.int 3), .string "a\"("])
      (.or [.literal "2.0" .real])
    first.print = "(= (UF_f (- 3) \"a\"\"(\") 2.0)" ∧ first.norm = second.norm ∧
      first.norm.print = first.print := by
  intro first second
  have text : first.print = "(= (UF_f (- 3) \"a\"\"(\") 2.0)" := by decide +kernel
  have same : first.print = second.print := by decide +kernel
  have firstValid : first.Valid := rfl
  have secondValid : second.Valid := rfl
  have inferred : inferFromExprs .empty [first, second] =
      .ok [⟨"UF_f", [.integer, .string], .real⟩] := by
    decide +kernel
  have unambiguous := print_eq_iff_norm_eq firstValid secondValid inferred (by decide)
  exact ⟨text, unambiguous.1.mp same, unambiguous.2 first firstValid⟩

end PathEquiv
