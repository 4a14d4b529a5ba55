import PathEquiv.Proofs.Expr.Canonical
import PathEquiv.Proofs.Query.Head

set_option autoImplicit false

namespace PathEquiv

open Sexp

namespace Expr

mutual

/-- The symbols that have to be introduced before an expression can be asserted. -/
def symbols : Expr → List String
  | .literal _ _ => []
  | .var name _ => [name]
  | .op opcode operands => (if opcode = .pow then ["pow"] else []) ++ symbolsAll operands
  | .call function _ operands => callSymbol function :: symbolsAll operands

def symbolsAll : List Expr → List String
  | [] => []
  | e :: es => symbols e ++ symbolsAll es

end

theorem symbolsAll_eq (es : List Expr) : symbolsAll es = es.flatMap symbols := by
  induction es with
  | nil => rfl
  | cons e es ih => simp [symbolsAll, ih]

theorem used_of_mem_symbols {e : Expr} {name : String} (member : name ∈ e.symbols) :
    name = "pow" ∨ ∃ d ∈ e.uses, d.name = name := by
  induction e using Expr.operandInduction with
  | literal value sort => cases member
  | var own sort =>
    rw [symbols, List.mem_singleton] at member
    exact .inr ⟨.constant own sort, by simp [uses], member.symm⟩
  | op opcode operands ih =>
    rw [symbols, symbolsAll_eq, List.mem_append, List.mem_flatMap] at member
    rw [uses, usesAll_eq]
    rcases member with own | ⟨e, inside, occurs⟩
    · split at own
      next => exact .inl (List.mem_singleton.mp own)
      next => cases own
    · rcases ih e inside occurs with power | ⟨d, used, same⟩
      · exact .inl power
      · exact .inr ⟨d, List.mem_flatMap.mpr ⟨e, inside, used⟩, same⟩
  | call function sort operands ih =>
    rw [symbols, symbolsAll_eq, List.mem_cons, List.mem_flatMap] at member
    rw [uses, usesAll_eq]
    rcases member with own | ⟨e, inside, occurs⟩
    · exact .inr ⟨callDeclaration function sort operands, by simp, own.symm⟩
    · rcases ih e inside occurs with power | ⟨d, used, same⟩
      · exact .inl power
      · have below := List.mem_flatMap.mpr ⟨e, inside, used⟩
        exact .inr ⟨d, List.mem_cons_of_mem _ below, same⟩

end Expr

namespace Sexp

mutual

def atoms : Sexp → List String
  | .atom text => [text]
  | .list items => atomsAll items

def atomsAll : List Sexp → List String
  | [] => []
  | item :: items => atoms item ++ atomsAll items

end

theorem atomsAll_eq (items : List Sexp) : atomsAll items = items.flatMap atoms := by
  induction items with
  | nil => rfl
  | cons item items ih => simp [atomsAll, ih]

end Sexp

def isBuiltIn (text : String) : Bool :=
  text.toList.head?.any Text.isDecimalDigit || text.toList.head? == some '"' ||
    (["true", "false"] ++ (Opcode.all.filter (· ≠ .pow)).map Opcode.symbol).contains text

theorem isBuiltIn_number {cs : List Char} (digit : cs.head?.any Text.isDecimalDigit = true) :
    isBuiltIn (String.ofList cs) = true := by
  simp [isBuiltIn, digit]

theorem isBuiltIn_opcode {opcode : Opcode} (other : opcode ≠ .pow) :
    isBuiltIn opcode.symbol = true := by
  cases opcode with
  | pow => exact absurd rfl other
  | _ => decide

theorem isBuiltIn_signed {value : String} {written : List Char → List Char}
    (digit : (written (magnitude value.toList)).head?.any Text.isDecimalDigit = true) :
    ∀ atom ∈ (signedTree value written).atoms, isBuiltIn atom = true := by
  have number := isBuiltIn_number digit
  have minus : isBuiltIn "-" = true := by decide
  rcases signedTree_eq value written with positive | negative
  · simp [positive, atoms, number]
  · simp [negative, atoms, atomsAll, minus, number]

theorem isBuiltIn_literal {sort : SmtSort} {value : String} (spelled : sort.spells value = true) :
    ∀ atom ∈ (sort.literalTree value).atoms, isBuiltIn atom = true := by
  cases sort with
  | integer => exact isBuiltIn_signed (Text.head_of_isDigits spelled)
  | real => exact isBuiltIn_signed (head_withPoint (head_of_spells_real spelled))
  | boolean =>
    simp only [SmtSort.spells, Bool.or_eq_true, beq_iff_eq] at spelled
    have words : isBuiltIn "true" = true ∧ isBuiltIn "false" = true := by decide
    rcases spelled with rfl | rfl <;> simp [SmtSort.literalTree, atoms, words]
  | string => simp [SmtSort.literalTree, atoms, isBuiltIn, SmtSort.printLiteral]

theorem atoms_application (symbol : String) (operands : List Sexp) :
    (Sexp.list (.atom symbol :: operands)).atoms = symbol :: operands.flatMap atoms := by
  simp [atoms, atomsAll, atomsAll_eq]

theorem mem_atoms_operatorTree {opcode : Opcode} {operands : List Sexp} {atom : String}
    (member : atom ∈ (operatorTree opcode operands).atoms) :
    atom = opcode.symbol ∨ isBuiltIn atom = true ∨ ∃ tree ∈ operands, atom ∈ tree.atoms := by
  have words : isBuiltIn "true" = true ∧ isBuiltIn "false" = true := by decide
  unfold operatorTree at member
  split at member
  next => simp_all [atoms]
  next => simp_all [atoms]
  next => simp_all
  next => simp_all
  next =>
    rw [atoms_application, List.mem_cons, List.mem_flatMap] at member
    exact member.imp_right .inr

theorem atoms_operatorTree {opcode : Opcode} {operands : List Sexp} {tree : Sexp}
    (member : tree ∈ operands) : tree.atoms ⊆ (operatorTree opcode operands).atoms := by
  intro atom occurs
  unfold operatorTree
  split
  next => cases member
  next => cases member
  next => simp_all
  next => simp_all
  next =>
    rw [atoms_application]
    exact List.mem_cons_of_mem _ (List.mem_flatMap.mpr ⟨tree, member, occurs⟩)

theorem atoms_callTree (function : String) (operands : List Sexp) :
    (callTree function operands).atoms = callSymbol function :: operands.flatMap atoms := by
  cases operands with
  | nil => simp [callTree, atoms]
  | cons first others => exact atoms_application _ _

theorem mem_atoms_tree {e : Expr} (valid : e.Valid) {atom : String}
    (member : atom ∈ e.tree.atoms) : isBuiltIn atom = true ∨ atom ∈ e.symbols := by
  induction e using Expr.operandInduction with
  | literal value sort =>
    rw [Expr.tree] at member
    exact .inl (isBuiltIn_literal (Expr.valid_literal.mp valid) atom member)
  | var name sort => exact .inr member
  | op opcode operands ih =>
    obtain ⟨-, operandsValid⟩ := Expr.valid_op.mp valid
    rw [Expr.tree, Expr.treeAll_eq] at member
    rw [Expr.symbols, Expr.symbolsAll_eq]
    rcases mem_atoms_operatorTree member with rfl | builtIn | ⟨tree, inside, occurs⟩
    · by_cases power : opcode = .pow
      next =>
        subst power
        exact .inr (by simp [Opcode.symbol, Opcode.name])
      next => exact .inl (isBuiltIn_opcode power)
    · exact .inl builtIn
    · obtain ⟨e, operand, rfl⟩ := List.mem_map.mp inside
      refine (ih e operand (operandsValid e operand) occurs).imp_right fun found => ?_
      exact List.mem_append_right _ (List.mem_flatMap.mpr ⟨e, operand, found⟩)
  | call function sort operands ih =>
    obtain ⟨-, operandsValid⟩ := Expr.valid_call.mp valid
    rw [Expr.tree, Expr.treeAll_eq] at member
    rw [atoms_callTree, List.mem_cons, List.flatMap_map, List.mem_flatMap] at member
    rw [Expr.symbols, Expr.symbolsAll_eq, List.mem_cons, List.mem_flatMap]
    rcases member with own | ⟨e, operand, occurs⟩
    · exact .inr (.inl own)
    · refine (ih e operand (operandsValid e operand) occurs).imp_right fun found => ?_
      exact .inr ⟨e, operand, found⟩

theorem symbols_subset_atoms (e : Expr) : e.symbols ⊆ e.tree.atoms := by
  intro name member
  induction e using Expr.operandInduction with
  | literal value sort => cases member
  | var own sort => exact member
  | op opcode operands ih =>
    rw [Expr.symbols, Expr.symbolsAll_eq, List.mem_append, List.mem_flatMap] at member
    rw [Expr.tree, Expr.treeAll_eq]
    rcases member with own | ⟨e, operand, occurs⟩
    · split at own
      next power =>
        subst power
        rw [operatorTree_applies .pow _ (by simp [Opcode.applies]), atoms_application]
        exact List.mem_cons.mpr (.inl (List.mem_singleton.mp own))
      next => cases own
    · exact atoms_operatorTree (List.mem_map_of_mem operand) (ih e operand occurs)
  | call function sort operands ih =>
    rw [Expr.symbols, Expr.symbolsAll_eq, List.mem_cons, List.mem_flatMap] at member
    rw [Expr.tree, Expr.treeAll_eq, atoms_callTree, List.flatMap_map, List.mem_cons,
      List.mem_flatMap]
    rcases member with own | ⟨e, operand, occurs⟩
    · exact .inl own
    · exact .inr ⟨e, operand, ih e operand occurs⟩

def QueryKind.asserted (condition : Option Expr) (old new : Expr) : QueryKind → List Expr
  | .reachability => condition.toList
  | .neq | .eq => condition.toList ++ [old, new]

def QueryKind.comparison? (old new : Sexp) : QueryKind → Option Sexp
  | .reachability => none
  | .neq => some (.list [.atom "not", .list [.atom "=", old, new]])
  | .eq => some (.list [.atom "=", old, new])

namespace Synthesizer

def bare : Synthesizer :=
  { known := {}, helpers := [] }

theorem queryText_eq (s : Synthesizer) (declarations : List Declaration)
    (condition old new : String) (kind : QueryKind) :
    s.queryText declarations condition old new kind =
      s.header declarations ++ bare.queryText [] condition old new kind := by
  have none : bare.header [] = "" := by decide
  cases kind <;> simp [queryText, reachabilityText, preamble, none, String.append_assoc]

end Synthesizer

section Assertions

variable {condition : Option Expr} {old new : Expr}

def Asserts (condition : Option Expr) (old new : Expr) (kind : QueryKind) (tree : Sexp) : Prop :=
  tree = conditionTree condition ∨ kind.comparison? old.tree new.tree = some tree

theorem mem_readAll_body (conditionValid : checkCondition condition = .ok ())
    (oldValid : old.Valid) (newValid : new.Valid) (kind : QueryKind) (tree : Sexp) :
    .list [.atom "assert", tree] ∈ readAll
        (Synthesizer.bare.queryText [] (printCondition condition) old.print new.print kind) ↔
      Asserts condition old new kind tree := by
  have head : Passes (Synthesizer.bare.header []).toList [] := Passes.nil
  have preamble := passes_preamble _ [] head (reads_condition condition conditionValid)
  have text := passes_queryText _ [] preamble (reads_print old oldValid)
    (reads_print new newValid) kind
  have items := text.reads.readChars
  rw [readAll, items]
  cases kind <;> simp [QueryKind.commands, QueryKind.comparison?, Asserts, eq_comm]

theorem mem_asserted {kind : QueryKind} {e : Expr} :
    e ∈ kind.asserted condition old new ↔
      e ∈ condition.toList ∨ kind ≠ .reachability ∧ (e = old ∨ e = new) := by
  cases kind <;> simp [QueryKind.asserted]

theorem mem_atoms_comparison {kind : QueryKind} {first second tree : Sexp}
    (compared : kind.comparison? first second = some tree) (atom : String) :
    atom ∈ tree.atoms ↔ atom = "=" ∨ kind = .neq ∧ atom = "not" ∨
      atom ∈ first.atoms ∨ atom ∈ second.atoms := by
  cases kind with
  | reachability => cases compared
  | neq =>
    cases compared
    simp [atoms, atomsAll, or_left_comm]
  | eq =>
    cases compared
    simp [atoms, atomsAll]

theorem atoms_of_asserted {kind : QueryKind} {e : Expr}
    (member : e ∈ kind.asserted condition old new) :
    ∃ tree, Asserts condition old new kind tree ∧ e.tree.atoms ⊆ tree.atoms := by
  rcases mem_asserted.mp member with inCondition | ⟨compares, result⟩
  · rw [Option.mem_toList] at inCondition
    subst inCondition
    exact ⟨e.tree, .inl rfl, List.Subset.refl _⟩
  · obtain ⟨tree, compared⟩ : ∃ tree, kind.comparison? old.tree new.tree = some tree := by
      cases kind with
      | reachability => exact absurd rfl compares
      | neq => exact ⟨_, rfl⟩
      | eq => exact ⟨_, rfl⟩
    refine ⟨tree, .inr compared, fun atom occurs => (mem_atoms_comparison compared atom).mpr ?_⟩
    rcases result with rfl | rfl
    · exact .inr (.inr (.inl occurs))
    · exact .inr (.inr (.inr occurs))

theorem mem_atoms_of_asserts (conditionValid : checkCondition condition = .ok ())
    (oldValid : old.Valid) (newValid : new.Valid) {kind : QueryKind} {tree : Sexp}
    (asserts : Asserts condition old new kind tree) {atom : String} (member : atom ∈ tree.atoms) :
    isBuiltIn atom = true ∨ ∃ e ∈ kind.asserted condition old new, atom ∈ e.symbols := by
  have signs : isBuiltIn "true" = true ∧ isBuiltIn "=" = true ∧ isBuiltIn "not" = true := by
    decide
  rcases asserts with rfl | compared
  · cases condition with
    | none =>
      rw [conditionTree, atoms, List.mem_singleton] at member
      exact .inl (member ▸ signs.1)
    | some e =>
      refine (mem_atoms_tree conditionValid member).imp_right fun found => ⟨e, ?_, found⟩
      exact mem_asserted.mpr (.inl (by simp))
  · have compares : kind ≠ .reachability := by
      rintro rfl
      cases compared
    rcases (mem_atoms_comparison compared atom).mp member with rfl | ⟨-, rfl⟩ | inOld | inNew
    · exact .inl signs.2.1
    · exact .inl signs.2.2
    · refine (mem_atoms_tree oldValid inOld).imp_right fun found => ⟨old, ?_, found⟩
      exact mem_asserted.mpr (.inr ⟨compares, .inl rfl⟩)
    · refine (mem_atoms_tree newValid inNew).imp_right fun found => ⟨new, ?_, found⟩
      exact mem_asserted.mpr (.inr ⟨compares, .inr rfl⟩)

end Assertions

namespace Synthesizer

theorem introduces_of_mem_symbols {known : KnownDeclarations} {exprs : List Expr}
    {declarations : List Declaration} (inferred : inferFromExprs known exprs = .ok declarations)
    {e : Expr} (member : e ∈ exprs) {name : String} (used : name ∈ e.symbols) :
    ({ known } : Synthesizer).Introduces declarations name := by
  rcases Expr.used_of_mem_symbols used with rfl | ⟨d, occurs, rfl⟩
  · cases found : known.contains "pow" with
    | true => exact .inl found
    | false =>
      have helper : powTree.render ∈ ({ known } : Synthesizer).helpers.filter
          ({ known } : Synthesizer).wanted := by
        rw [filter_helpers]
        simp [found]
      obtain ⟨listed, wanted⟩ := List.mem_filter.mp helper
      exact .inr (.inr ⟨_, listed, wanted, introducedSymbol_pow⟩)
  · cases found : known.contains d.name with
    | true => exact .inl found
    | false =>
      have declared := (mem_inferFromExprs inferred d).mpr
        ⟨List.mem_flatMap.mpr ⟨e, member, occurs⟩, found⟩
      exact .inr (.inl (List.mem_map_of_mem declared))

end Synthesizer

/-- A query is its head and a body. The assertions of the body are about the symbols of some
expressions and about what is built in, and the head introduces all of these symbols. -/
structure Closed (s : Synthesizer) (query : Query) (body : String) (asserted : List Expr) :
    Prop where
  text : query.text = s.header query.declarations ++ body
  occurs : ∀ e ∈ asserted, ∀ name ∈ e.symbols,
    ∃ tree, .list [.atom "assert", tree] ∈ readAll body ∧ name ∈ tree.atoms
  within : ∀ tree, .list [.atom "assert", tree] ∈ readAll body → ∀ atom ∈ tree.atoms,
    isBuiltIn atom = true ∨ ∃ e ∈ asserted, atom ∈ e.symbols
  introduced : ∀ e ∈ asserted, ∀ name ∈ e.symbols, s.Introduces query.declarations name ∧
    name ∈ introducedSymbols (s.header query.declarations)

theorem closed_queryText (text : String) {condition : Option Expr} {old new : Expr}
    {exprs : List Expr} {declarations : List Declaration}
    (conditionValid : checkCondition condition = .ok ()) (oldValid : old.Valid)
    (newValid : new.Valid) (valid : ∀ e ∈ exprs, e.Valid)
    (inferred : inferFromExprs (.parse text) exprs = .ok declarations) (kind : QueryKind)
    (covered : ∀ e ∈ kind.asserted condition old new, e ∈ exprs) :
    let s : Synthesizer := { known := .parse text }
    let printed (s : Synthesizer) (declarations : List Declaration) : String :=
      s.queryText declarations (printCondition condition) old.print new.print kind
    Closed s { kind, text := printed s declarations, declarations } (printed .bare [])
      (kind.asserted condition old new) := by
  intro s printed
  have asserts := mem_readAll_body conditionValid oldValid newValid kind
  refine ⟨s.queryText_eq declarations _ _ _ kind, ?_, ?_, ?_⟩
  next =>
    intro e member name used
    obtain ⟨tree, asserted, atoms⟩ := atoms_of_asserted member
    exact ⟨tree, (asserts tree).mpr asserted, atoms (symbols_subset_atoms e used)⟩
  next =>
    intro tree asserted atom member
    exact mem_atoms_of_asserts conditionValid oldValid newValid ((asserts tree).mp asserted) member
  next =>
    intro e member name used
    have introduces := Synthesizer.introduces_of_mem_symbols inferred (covered e member) used
    exact ⟨introduces, Synthesizer.mem_introducedSymbols_header
      (simple_of_inferred valid inferred) introduces⟩

/-- Whatever the known declarations are, every query is closed. -/
theorem queries_closed (text : String) (condition : Option Expr) :
    let s : Synthesizer := { known := .parse text }
    (∀ old new queries, s.synthesize condition old new = .ok queries → ∀ kind,
      ∃ body, Closed s (queries.get kind) body (kind.asserted condition old new)) ∧
    ∀ query, s.reachability condition = .ok query →
      ∃ body, Closed s query body condition.toList := by
  intro s
  constructor
  next =>
    intro old new queries built kind
    obtain ⟨conditionValid, oldValid, newValid, declarations, inferred, rfl⟩ :=
      Synthesizer.synthesize_eq_ok.mp built
    have valid := forall_valid_iff.mpr ⟨conditionValid, oldValid, newValid⟩
    rw [Synthesizer.get_assemble]
    refine ⟨_, closed_queryText text conditionValid oldValid newValid valid inferred kind ?_⟩
    intro e member
    cases kind with
    | reachability => exact List.mem_append_left _ member
    | neq => exact member
    | eq => exact member
  next =>
    intro query built
    obtain ⟨conditionValid, declarations, inferred, rfl⟩ :=
      Synthesizer.reachability_eq_ok.mp built
    have valid := checkCondition_eq_ok.mp conditionValid
    -- The results do not occur in the text of this kind.
    have literal : (Expr.bool true).Valid := rfl
    exact ⟨_, closed_queryText text conditionValid literal literal valid inferred .reachability
      fun e member => member⟩

theorem queries_closed_power :
    let s : Synthesizer := { known := .parse "  (declare-const x Int)\n" }
    let small := Expr.lt (.intVar "x") (.int 3)
    let old := Expr.pow (.realVar "y") (.real "2")
    let new := Expr.call "f" .real [.intVar "x"]
    ∃ queries body, s.synthesize (some small) old new = .ok queries ∧
      Closed s queries.neq body [small, old, new] ∧
      "x" ∈ introducedSymbols (s.header queries.neq.declarations) ∧
      "pow" ∈ introducedSymbols (s.header queries.neq.declarations) ∧
      "UF_f" ∈ introducedSymbols (s.header queries.neq.declarations) := by
  intro s small old new
  have collected : Expr.collectAll [] [small, old, new] =
      .ok [⟨"UF_f", [.integer], .real⟩, ⟨"y", [], .real⟩, ⟨"x", [], .integer⟩] := by
    decide +kernel
  obtain ⟨declarations, inferred⟩ : ∃ declarations,
      inferFromExprs s.known [small, old, new] = .ok declarations :=
    ⟨_, by rw [inferFromExprs, collected]⟩
  have built : s.synthesize (some small) old new =
      .ok (s.assemble declarations small.print old.print new.print) :=
    Synthesizer.synthesize_eq_ok.mpr ⟨rfl, rfl, rfl, declarations, inferred, rfl⟩
  obtain ⟨body, closed⟩ := (queries_closed _ (some small)).1 old new _ built .neq
  have closed : Closed s _ body [small, old, new] := closed
  refine ⟨_, body, built, closed, ?_, ?_, ?_⟩
  next => exact (closed.introduced small (by simp) "x" (by decide)).2
  next => exact (closed.introduced old (by simp) "pow" (by decide)).2
  next => exact (closed.introduced new (by simp) "UF_f" (by decide)).2

end PathEquiv
