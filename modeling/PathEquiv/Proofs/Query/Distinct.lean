import PathEquiv.Proofs.Query.Scope

set_option autoImplicit false

namespace PathEquiv

theorem Expr.used_iff_variable {name : String} (unmarked : Text.hasStart callMarker name = false)
    (e : Expr) : (∃ d ∈ e.uses, d.name = name) ↔ name ∈ e.variableNames := by
  induction e using Expr.operandInduction with
  | literal value sort => simp [Expr.uses, Expr.variableNames]
  | var own sort => simp [Expr.uses, Expr.variableNames, Declaration.constant, eq_comm]
  | op opcode operands ih =>
    rw [Expr.uses, Expr.usesAll_eq, Expr.variableNames, Expr.variableNamesAll_eq, List.mem_flatMap]
    simp only [List.mem_flatMap]
    constructor
    next =>
      rintro ⟨d, ⟨e, member, used⟩, same⟩
      exact ⟨e, member, (ih e member).mp ⟨d, used, same⟩⟩
    next =>
      rintro ⟨e, member, occurs⟩
      obtain ⟨d, used, same⟩ := (ih e member).mpr occurs
      exact ⟨d, ⟨e, member, used⟩, same⟩
  | call function sort operands ih =>
    rw [Expr.uses, Expr.usesAll_eq, Expr.variableNames, Expr.variableNamesAll_eq, List.mem_flatMap]
    simp only [List.mem_cons, List.mem_flatMap]
    constructor
    next =>
      rintro ⟨d, rfl | ⟨e, member, used⟩, same⟩
      · -- The symbol of a call carries the marker, and the name does not.
        have marked := marked_callSymbol function
        rw [show callSymbol function = name from same, unmarked] at marked
        cases marked
      · exact ⟨e, member, (ih e member).mp ⟨d, used, same⟩⟩
    next =>
      rintro ⟨e, member, occurs⟩
      obtain ⟨d, used, same⟩ := (ih e member).mpr occurs
      exact ⟨d, .inr ⟨e, member, used⟩, same⟩

theorem pow_mem_inferred_iff {known : KnownDeclarations} {exprs : List Expr}
    {declarations : List Declaration} (inferred : inferFromExprs known exprs = .ok declarations) :
    "pow" ∈ declarations.map Declaration.name ↔
      known.contains "pow" = false ∧ ∃ e ∈ exprs, "pow" ∈ e.variableNames := by
  have unmarked : Text.hasStart callMarker "pow" = false := by decide
  simp only [List.mem_map, mem_inferFromExprs inferred, List.mem_flatMap,
    ← Expr.used_iff_variable unmarked]
  constructor
  next =>
    rintro ⟨d, ⟨⟨e, member, used⟩, free⟩, same⟩
    exact ⟨same ▸ free, e, member, d, used, same⟩
  next =>
    rintro ⟨free, e, member, d, used, same⟩
    exact ⟨d, ⟨⟨e, member, used⟩, same ▸ free⟩, same⟩

namespace Synthesizer

/-- The symbols that the head of a query introduces: the known ones, the inferred ones and those of
the helpers that are not left out. -/
def introductions (s : Synthesizer) (declarations : List Declaration) : List String :=
  introducedSymbols s.known.text ++ declarations.map Declaration.name ++
    (s.helpers.filter s.wanted).flatMap introducedSymbols

theorem introductions_eq (text : String) (declarations : List Declaration) :
    let s : Synthesizer := { known := .parse text }
    s.introductions declarations = introducedSymbols text ++ declarations.map Declaration.name ++
      if s.known.contains "pow" then [] else ["pow"] := by
  intro s
  have helper : introducedSymbols powTree.render = ["pow"] := by decide +kernel
  have emitted : (s.helpers.filter s.wanted).flatMap introducedSymbols =
      if s.known.contains "pow" then [] else ["pow"] := by
    rw [filter_helpers]
    split
    next => rfl
    next => simp [helper]
  rw [introductions, emitted, introducedSymbols_parse]

structure IntroducesOnce (s : Synthesizer) (query : Query) (exprs : List Expr) : Prop where
  listed : introducedSymbols (s.header query.declarations) = s.introductions query.declarations
  others : ∀ name, name ≠ "pow" → (s.introductions query.declarations).count name ≤ 1
  nodup_iff : (s.introductions query.declarations).Nodup ↔
    s.known.contains "pow" = true ∨ ∀ e ∈ exprs, "pow" ∉ e.variableNames

theorem introducesOnce {text : String} (once : (introducedSymbols text).Nodup) {exprs : List Expr}
    (valid : ∀ e ∈ exprs, e.Valid) {query : Query}
    (inferred : inferFromExprs (.parse text) exprs = .ok query.declarations) :
    IntroducesOnce { known := .parse text } query exprs := by
  have symbols := introductions_eq text query.declarations
  -- The known and the inferred symbols never meet, since a known symbol is not declared again.
  have apart : (introducedSymbols text ++ query.declarations.map Declaration.name).Nodup := by
    refine List.nodup_append.mpr ⟨once, nodup_names_of_inferred inferred, ?_⟩
    rintro name known other declared rfl
    obtain ⟨d, member, rfl⟩ := List.mem_map.mp declared
    have free := ((mem_inferFromExprs inferred d).mp member).2
    rw [(contains_parse text d.name).mpr known] at free
    cases free
  refine ⟨?_, ?_, ?_⟩
  next =>
    rw [symbols, introducedSymbols_header text _ (simple_of_inferred valid inferred),
      List.append_assoc]
  next =>
    intro name other
    have single := List.nodup_iff_count_le_one.mp apart name
    have absent : (if (KnownDeclarations.parse text).contains "pow" then []
        else ["pow"]).count name = 0 := by
      split
      next => rfl
      next => simp [List.count_eq_zero, other]
    rw [symbols, List.count_append, absent]
    exact single
  next =>
    have declared := pow_mem_inferred_iff inferred
    rw [symbols]
    cases known : (KnownDeclarations.parse text).contains "pow" with
    | true => simpa [known] using apart
    | false =>
      have unknown : "pow" ∉ introducedSymbols text := by
        rw [← contains_parse, known]
        decide
      rw [known] at declared
      simp only [true_and] at declared
      rw [if_neg (by decide), List.nodup_append]
      simp only [apart, List.nodup_singleton, List.mem_append, List.mem_singleton, true_and,
        Bool.false_eq_true, false_or]
      constructor
      next =>
        intro fresh e member occurs
        exact fresh "pow" (.inr (declared.mpr ⟨e, member, occurs⟩)) "pow" rfl rfl
      next =>
        rintro free name occurs other rfl rfl
        rcases occurs with isKnown | isDeclared
        · exact unknown isKnown
        · obtain ⟨e, member, inside⟩ := declared.mp isDeclared
          exact free e member inside

end Synthesizer

/-- A query over known declarations that introduce each symbol once introduces each symbol once,
except that a variable with the name of the helper and the helper itself are both introduced. -/
theorem introduced_once_iff_no_variable_pow (text : String)
    (once : (introducedSymbols text).Nodup) (condition : Option Expr) :
    let s : Synthesizer := { known := .parse text }
    (∀ old new queries, s.synthesize condition old new = .ok queries → ∀ kind,
      s.IntroducesOnce (queries.get kind) (condition.toList ++ [old, new])) ∧
    ∀ query, s.reachability condition = .ok query →
      s.IntroducesOnce query condition.toList := by
  intro s
  constructor
  next =>
    intro old new queries built kind
    obtain ⟨conditionValid, oldValid, newValid, declarations, inferred, rfl⟩ :=
      Synthesizer.synthesize_eq_ok.mp built
    have valid := forall_valid_iff.mpr ⟨conditionValid, oldValid, newValid⟩
    rw [Synthesizer.get_assemble]
    exact Synthesizer.introducesOnce once valid inferred
  next =>
    intro query built
    obtain ⟨conditionValid, declarations, inferred, rfl⟩ :=
      Synthesizer.reachability_eq_ok.mp built
    exact Synthesizer.introducesOnce once (checkCondition_eq_ok.mp conditionValid) inferred

theorem introduced_once_power :
    let s : Synthesizer := { known := .parse "(declare-const x Int)" }
    let old := Expr.pow (.realVar "y") (.real "2")
    let new := Expr.call "pow" .real [.intVar "x"]
    (introducedSymbols "(declare-const x Int)").Nodup ∧
      ∃ queries, s.synthesize none old new = .ok queries ∧
        (introducedSymbols (s.header queries.neq.declarations)).Nodup := by
  intro s old new
  have once : (introducedSymbols "(declare-const x Int)").Nodup := by decide +kernel
  have collected : Expr.collectAll [] [old, new] =
      .ok [⟨"x", [], .integer⟩, ⟨"UF_pow", [.integer], .real⟩, ⟨"y", [], .real⟩] := by
    decide +kernel
  obtain ⟨declarations, inferred⟩ : ∃ declarations,
      inferFromExprs s.known [old, new] = .ok declarations :=
    ⟨_, by rw [inferFromExprs, collected]⟩
  have built : s.synthesize none old new =
      .ok (s.assemble declarations "true" old.print new.print) :=
    Synthesizer.synthesize_eq_ok.mpr ⟨rfl, rfl, rfl, declarations, inferred, rfl⟩
  have introduces := (introduced_once_iff_no_variable_pow _ once none).1 old new _ built .neq
  have distinct := introduces.nodup_iff.mpr (.inr (by decide))
  rw [← introduces.listed] at distinct
  exact ⟨once, _, built, distinct⟩

theorem variable_pow_introduced_twice :
    let s : Synthesizer := { known := .parse "" }
    (introducedSymbols "").Nodup ∧
      ∃ queries, s.synthesize none (.realVar "pow") (.real "1") = .ok queries ∧
        s.introductions queries.neq.declarations = ["pow", "pow"] ∧
        introducedSymbols (s.header queries.neq.declarations) = ["pow", "pow"] ∧
        ¬(s.introductions queries.neq.declarations).Nodup := by
  intro s
  let pow : Declaration := ⟨"pow", [], .real⟩
  have once : (introducedSymbols "").Nodup := by decide
  have free : s.known.contains "pow" = false := by decide +kernel
  have unmarked : isConstant pow = true := by decide
  have collected : Expr.collectAll [] [.realVar "pow", .real "1"] = .ok [pow] := by
    decide +kernel
  have inferred : inferFromExprs s.known [.realVar "pow", .real "1"] = .ok [pow] := by
    rw [inferFromExprs, collected]
    simp [pow, free, unmarked]
  -- Only a known symbol keeps the helper away, an inferred one does not.
  have twice : s.introductions [pow] = ["pow", "pow"] := by
    rw [Synthesizer.introductions_eq, if_neg (by simp [s, free])]
    rfl
  have header : introducedSymbols (s.header [pow]) = ["pow", "pow"] := by
    rw [introducedSymbols_header "" [pow] (by decide)]
    decide +kernel
  have repeated : ¬(s.introductions [pow]).Nodup := by
    rw [twice]
    decide
  have built : s.synthesize none (.realVar "pow") (.real "1") =
      .ok (s.assemble [pow] "true" "pow" (Expr.real "1").print) :=
    Synthesizer.synthesize_eq_ok.mpr ⟨rfl, rfl, rfl, [pow], inferred, rfl⟩
  exact ⟨once, _, built, twice, header, repeated⟩

end PathEquiv
