import PathEquiv.Proofs.Containers
import PathEquiv.Proofs.Declaration.Line
import PathEquiv.Query

set_option autoImplicit false

namespace PathEquiv

open Sexp

namespace Synthesizer

theorem synthesize_eq_ok {s : Synthesizer} {condition : Option Expr} {old new : Expr}
    {queries : QuerySet} :
    s.synthesize condition old new = .ok queries ↔
      checkCondition condition = .ok () ∧ old.Valid ∧ new.Valid ∧
      ∃ declarations, inferFromExprs s.known (condition.toList ++ [old, new]) = .ok declarations ∧
        queries = s.assemble declarations (printCondition condition) old.print new.print := by
  simp only [synthesize, bind_eq_ok, mapError_eq_ok, Expr.Valid, pure, Except.pure,
    Except.ok.injEq]
  constructor
  · rintro ⟨_, checked, _, oldChecked, _, newChecked, declarations, inferred, rfl⟩
    exact ⟨checked, oldChecked, newChecked, declarations, inferred, rfl⟩
  · rintro ⟨checked, oldChecked, newChecked, declarations, inferred, rfl⟩
    exact ⟨_, checked, _, oldChecked, _, newChecked, declarations, inferred, rfl⟩

theorem get_assemble (s : Synthesizer) (declarations : List Declaration)
    (condition old new : String) (kind : QueryKind) :
    (s.assemble declarations condition old new).get kind =
      { kind, text := s.queryText declarations condition old new kind, declarations } := by
  cases kind <;> rfl

theorem kind_synthesize {s : Synthesizer} {condition : Option Expr} {old new : Expr}
    {queries : QuerySet} (built : s.synthesize condition old new = .ok queries)
    (kind : QueryKind) : (queries.get kind).kind = kind := by
  obtain ⟨_, _, _, declarations, _, rfl⟩ := synthesize_eq_ok.mp built
  rw [get_assemble]

theorem reachability_eq_ok {s : Synthesizer} {condition : Option Expr} {query : Query} :
    s.reachability condition = .ok query ↔
      checkCondition condition = .ok () ∧
      ∃ declarations, inferFromExprs s.known condition.toList = .ok declarations ∧
        query = { kind := .reachability
                  text := s.reachabilityText declarations (printCondition condition)
                  declarations } := by
  simp only [reachability, bind_eq_ok, mapError_eq_ok, pure, Except.pure, Except.ok.injEq]
  constructor
  · rintro ⟨_, checked, declarations, inferred, rfl⟩
    exact ⟨checked, declarations, inferred, rfl⟩
  · rintro ⟨checked, declarations, inferred, rfl⟩
    exact ⟨_, checked, declarations, inferred, rfl⟩

theorem kind_reachability {s : Synthesizer} {condition : Option Expr} {query : Query}
    (built : s.reachability condition = .ok query) : query.kind = .reachability := by
  simp only [reachability, bind_eq_ok, pure, Except.pure, Except.ok.injEq] at built
  obtain ⟨_, _, _, _, rfl⟩ := built
  rfl

end Synthesizer

theorem checkCondition_eq_ok {condition : Option Expr} :
    checkCondition condition = .ok () ↔ ∀ e ∈ condition.toList, e.Valid := by
  cases condition <;> simp [checkCondition, Expr.Valid]

theorem forall_valid_iff {condition : Option Expr} {old new : Expr} :
    (∀ e ∈ condition.toList ++ [old, new], e.Valid) ↔
      checkCondition condition = .ok () ∧ old.Valid ∧ new.Valid := by
  simp [checkCondition_eq_ok, or_imp, forall_and]

theorem simple_of_mem_inferred {known : KnownDeclarations} {condition : Option Expr}
    {old new : Expr} (conditionValid : checkCondition condition = .ok ()) (oldValid : old.Valid)
    (newValid : new.Valid) {declarations : List Declaration}
    (inferred : inferFromExprs known (condition.toList ++ [old, new]) = .ok declarations) :
    ∀ d ∈ declarations, isSimpleSymbol d.name.toList = true :=
  simple_of_inferred (forall_valid_iff.mpr ⟨conditionValid, oldValid, newValid⟩) inferred

def powTree : Sexp :=
  .list [.atom "define-fun", .atom "pow",
    .list [.list [.atom "a", .atom "Real"], .list [.atom "b", .atom "Real"]], .atom "Real",
    .list [.atom "^", .atom "a", .atom "b"]]

theorem render_powTree : powTree.render = "(define-fun pow ((a Real) (b Real)) Real (^ a b))" := by
  decide +kernel

theorem passes_header (s : Synthesizer) (declarations : List Declaration)
    (simple : ∀ d ∈ declarations, isSimpleSymbol d.name.toList = true)
    {known helpers : List Sexp} (knownReads : Reads s.known.text.toList known)
    (helpersRead : Reads (String.intercalate "\n" (s.helpers.filter s.wanted)).toList helpers) :
    Passes (s.header declarations).toList
      (known ++ declarations.map Declaration.tree ++ helpers) := by
  let parts := [(s.known.text, known),
    (String.intercalate "\n" (declarations.map Declaration.line),
      declarations.map Declaration.tree),
    (String.intercalate "\n" (s.helpers.filter s.wanted), helpers)]
  have each : ∀ part ∈ parts, Reads part.1.toList part.2 := by
    simp only [parts, List.forall_mem_cons]
    exact ⟨knownReads, reads_block declarations simple, helpersRead, by simp⟩
  have joined := Reads.joinNonempty '\n' (by decide) parts each
  have found : parts.flatMap Prod.snd = known ++ declarations.map Declaration.tree ++ helpers := by
    simp [parts]
  rw [found] at joined
  simp only [parts, List.map_cons, List.map_nil] at joined
  unfold Synthesizer.header
  dsimp only
  -- Blocks without text leave no separator behind.
  split
  next empty =>
    rw [empty] at joined
    have nothing := joined.readChars
    rw [← nothing]
    exact Passes.nil
  next =>
    have ended := (joined.blank '\n' (by decide)).append (Passes.blank '\n' (by decide))
    simpa using ended

def Synthesizer.ofDeclarations (known : List Declaration) : Synthesizer :=
  { known := .parse (Declaration.block known) }

theorem introducedSymbol_pow : introducedSymbol? powTree.render = some "pow" := by
  decide +kernel

theorem filter_helpers (known : KnownDeclarations) :
    let s : Synthesizer := { known }
    s.helpers.filter s.wanted = if known.contains "pow" then [] else [powTree.render] := by
  intro s
  have helpers : defaultHelpers = [powTree.render] := by
    rw [render_powTree]
    rfl
  cases found : known.contains "pow" <;>
    simp [s, helpers, Synthesizer.wanted, introducedSymbol_pow, found]

theorem reads_helpers (known : List Declaration)
    (simple : ∀ d ∈ known, isSimpleSymbol d.name.toList = true) :
    Reads (String.intercalate "\n" ((Synthesizer.ofDeclarations known).helpers.filter
      (Synthesizer.ofDeclarations known).wanted)).toList
      (if "pow" ∈ known.map Declaration.name then [] else [powTree]) := by
  have filtered : (Synthesizer.ofDeclarations known).helpers.filter
      (Synthesizer.ofDeclarations known).wanted =
      if "pow" ∈ known.map Declaration.name then [] else [powTree.render] := by
    simp only [← contains_parse_block known simple]
    exact filter_helpers (.parse (Declaration.block known))
  rw [filtered]
  split
  next => exact Passes.nil.reads
  next => simpa using reads_render powTree (by decide +kernel)

theorem passes_preamble (s : Synthesizer) (declarations : List Declaration)
    {head : List Sexp} (header : Passes (s.header declarations).toList head)
    {condition : String} {tree : Sexp} (reads : Reads condition.toList [tree]) :
    Passes (s.preamble declarations condition).toList
      (head ++ [.atom ";", .atom "Path", .atom "Condition:", .list [.atom "assert", tree]]) := by
  have comment := (reads_renderAll [.atom ";", .atom "Path", .atom "Condition:"]
    (by decide)).blank '\n' (by decide)
  have word := (reads_word "assert" (by decide)).blank ' ' (by decide)
  have assertion := (word.append_reads reads).list
  have ending := (Passes.blank '\n' (by decide)).append (Passes.blank '\n' (by decide))
  have whole := ((header.append comment).append assertion).append ending
  unfold Synthesizer.preamble
  simpa [renderAll, render] using whole

def QueryKind.commands (old new : Sexp) : QueryKind → List Sexp
  | .reachability => [.list [.atom "check-sat"]]
  | .neq => [
      .atom ";", .atom "Equivalence", .atom "Check:",
      .list [.atom "assert", .list [.atom "not", .list [.atom "=", old, new]]],
      .list [.atom "check-sat"], .list [.atom "get-model"]]
  | .eq => [
      .atom ";", .atom "Equivalence", .atom "Check:",
      .list [.atom "assert", .list [.atom "=", old, new]],
      .list [.atom "check-sat"]]

theorem passes_equality {old new : String} {oldTree newTree : Sexp}
    (oldReads : Reads old.toList [oldTree]) (newReads : Reads new.toList [newTree]) :
    Passes ('(' :: ("= ".toList ++ (old.toList ++ ' ' :: new.toList)) ++ [')'])
      [.list [.atom "=", oldTree, newTree]] := by
  have sign := (reads_word "=" (by decide)).blank ' ' (by decide)
  have operands := (oldReads.blank ' ' (by decide)).append_reads newReads
  simpa using (sign.append_reads operands).list

theorem passes_queryText (s : Synthesizer) (declarations : List Declaration)
    {condition old new : String} {head : List Sexp} {oldTree newTree : Sexp}
    (preamble : Passes (s.preamble declarations condition).toList head)
    (oldReads : Reads old.toList [oldTree]) (newReads : Reads new.toList [newTree])
    (kind : QueryKind) :
    Passes (s.queryText declarations condition old new kind).toList
      (head ++ kind.commands oldTree newTree) := by
  have newline := Passes.blank '\n' (by decide)
  have comment := (reads_renderAll [.atom ";", .atom "Equivalence", .atom "Check:"]
    (by decide)).blank '\n' (by decide)
  have assert := (reads_word "assert" (by decide)).blank ' ' (by decide)
  have negation := (reads_word "not" (by decide)).blank ' ' (by decide)
  have checkSat := (reads_render (.list [.atom "check-sat"]) (by decide)).blank '\n' (by decide)
  have getModel := (reads_render (.list [.atom "get-model"]) (by decide)).blank '\n' (by decide)
  have equality := passes_equality oldReads newReads
  unfold Synthesizer.queryText
  cases kind with
  | reachability =>
    unfold Synthesizer.reachabilityText
    simpa [renderAll, render, QueryKind.commands] using preamble.append checkSat
  | neq =>
    have difference := (assert.append (negation.append equality).reads.list).reads.list
    have whole := ((((preamble.append comment).append difference).append
      (newline.append newline)).append checkSat).append getModel
    simpa [renderAll, render, QueryKind.commands] using whole
  | eq =>
    have agreement := (assert.append equality).reads.list
    have whole := (((preamble.append comment).append agreement).append
      (newline.append newline)).append checkSat
    simpa [renderAll, render, QueryKind.commands] using whole

theorem readAll_queryText (known : List Declaration)
    (simple : ∀ d ∈ known, isSimpleSymbol d.name.toList = true) {declarations : List Declaration}
    (inferredSimple : ∀ d ∈ declarations, isSimpleSymbol d.name.toList = true)
    {condition : Option Expr} (conditionValid : checkCondition condition = .ok ())
    {old new : String} {oldTree newTree : Sexp} (oldReads : Reads old.toList [oldTree])
    (newReads : Reads new.toList [newTree]) (kind : QueryKind) :
    readAll ((Synthesizer.ofDeclarations known).queryText declarations (printCondition condition)
        old new kind) =
      known.map Declaration.tree ++ declarations.map Declaration.tree ++
      (if "pow" ∈ known.map Declaration.name then [] else [powTree]) ++
      [.atom ";", .atom "Path", .atom "Condition:",
        .list [.atom "assert", conditionTree condition]] ++
      kind.commands oldTree newTree := by
  have knownReads := reads_block known simple
  rw [← parse_block_text known] at knownReads
  have header := passes_header (.ofDeclarations known) declarations inferredSimple knownReads
    (reads_helpers known simple)
  have preamble := passes_preamble _ declarations header (reads_condition condition conditionValid)
  exact (passes_queryText _ declarations preamble oldReads newReads kind).reads.readChars

/-- A query over declarations that were written as lines is read as these declarations, those of
its symbols, the helper unless it is known, the asserted path condition and the commands of its
kind, each of them once and with nothing between them. -/
theorem readAll_query_text (known : List Declaration)
    (simple : ∀ d ∈ known, isSimpleSymbol d.name.toList = true)
    {condition : Option Expr} {old new : Expr} {queries : QuerySet}
    (built : (Synthesizer.ofDeclarations known).synthesize condition old new = .ok queries)
    (kind : QueryKind) :
    inferFromExprs (.parse (Declaration.block known)) (condition.toList ++ [old, new]) =
        .ok (queries.get kind).declarations ∧
      Sexp.readAll (queries.get kind).text =
        known.map Declaration.tree ++ (queries.get kind).declarations.map Declaration.tree ++
        (if "pow" ∈ known.map Declaration.name then [] else [powTree]) ++
        [.atom ";", .atom "Path", .atom "Condition:",
          .list [.atom "assert", conditionTree condition]] ++
        kind.commands old.tree new.tree := by
  obtain ⟨conditionValid, oldValid, newValid, declarations, inferred, rfl⟩ :=
    Synthesizer.synthesize_eq_ok.mp built
  rw [Synthesizer.get_assemble]
  refine ⟨inferred, ?_⟩
  have inferredSimple := simple_of_mem_inferred conditionValid oldValid newValid inferred
  exact readAll_queryText known simple inferredSimple conditionValid (reads_print old oldValid)
    (reads_print new newValid) kind

theorem readAll_query_text_quoted :
    ∃ queries, (Synthesizer.ofDeclarations [⟨"pow", [.real, .real], .real⟩]).synthesize none
        (.string "\")(exit)") (.call "f" .string [.and []]) = .ok queries ∧
      Sexp.readAll queries.neq.text = [
        .list [.atom "declare-fun", .atom "pow", .list [.atom "Real", .atom "Real"], .atom "Real"],
        .list [.atom "declare-fun", .atom "UF_f", .list [.atom "Bool"], .atom "String"],
        .atom ";", .atom "Path", .atom "Condition:", .list [.atom "assert", .atom "true"],
        .atom ";", .atom "Equivalence", .atom "Check:",
        .list [.atom "assert", .list [.atom "not", .list [.atom "=", .atom "\"\"\")(exit)\"",
          .list [.atom "UF_f", .atom "true"]]]],
        .list [.atom "check-sat"], .list [.atom "get-model"]] := by
  let pow : Declaration := ⟨"pow", [.real, .real], .real⟩
  let uf : Declaration := ⟨"UF_f", [.boolean], .string⟩
  let old := Expr.string "\")(exit)"
  let new := Expr.call "f" .string [.and []]
  have simple : ∀ d ∈ [pow], isSimpleSymbol d.name.toList = true := by decide
  have free : (KnownDeclarations.parse (Declaration.block [pow])).contains "UF_f" = false := by
    rw [Bool.eq_false_iff, Ne, contains_parse_block [pow] simple]
    decide
  have symbol : callSymbol "f" = "UF_f" := by decide
  have marked : isConstant uf = false := by decide
  have inferred : inferFromExprs (Synthesizer.ofDeclarations [pow]).known [old, new] =
      .ok [uf] := by
    simp [Synthesizer.ofDeclarations, inferFromExprs, Expr.collectAll, Expr.collect, old, new,
      Expr.string, Expr.and, recordDeclaration, Expr.callDeclaration, symbol, Expr.sort, free,
      marked, uf]
  have built : (Synthesizer.ofDeclarations [pow]).synthesize none old new =
      .ok ((Synthesizer.ofDeclarations [pow]).assemble [uf] "true" old.print new.print) :=
    Synthesizer.synthesize_eq_ok.mpr ⟨rfl, rfl, rfl, [uf], inferred, rfl⟩
  have literal : SmtSort.string.printLiteral "\")(exit)" = "\"\"\")(exit)\"" := by decide +kernel
  have read := (readAll_query_text [pow] simple built .neq).2
  refine ⟨_, built, read.trans ?_⟩
  simp [Synthesizer.get_assemble, pow, uf, Declaration.tree, SmtSort.smtlib, conditionTree,
    QueryKind.commands, old, new, Expr.string, Expr.and, Expr.tree, Expr.treeAll,
    SmtSort.literalTree, literal, callTree, symbol, operatorTree]

end PathEquiv
