import PathEquiv.Proofs.Declaration.Line
import PathEquiv.Proofs.Declaration.Order
import PathEquiv.Proofs.Text.Bytes

set_option autoImplicit false

namespace PathEquiv

def NameBefore (a b : String) : Prop :=
  (Text.encodeBytes a).length < (Text.encodeBytes b).length ∨
    (Text.encodeBytes a).length = (Text.encodeBytes b).length ∧
      Text.encodeBytes a < Text.encodeBytes b

theorem nameBefore_iff {a b : String} :
    NameBefore a b ↔ Text.shortlexLe a b = true ∧ a ≠ b := by
  rw [NameBefore, Text.length_encodeBytes, Text.length_encodeBytes, Text.encodeBytes_lt_iff,
    Text.shortlexLe_iff]
  by_cases same : a = b
  next => simp [same]
  next => simp [same]

theorem NameBefore.asymm {a b : String} (first : NameBefore a b) : ¬NameBefore b a := by
  intro second
  rw [nameBefore_iff] at first second
  exact first.2 (Text.shortlexLe_antisymm first.1 second.1)

namespace Declaration

def Plain (d : Declaration) : Prop :=
  d.arguments = [] ∧ ¬callMarker.toList <+: d.name.toList

/-- Plain constants stand first, ordered by sort and name; all other symbols follow by name. -/
inductive Before : Declaration → Declaration → Prop where
  | sort {a b : Declaration} (first : a.Plain) (second : b.Plain)
      (lower : a.sort.rank < b.sort.rank) : Before a b
  | name {a b : Declaration} (first : a.Plain) (second : b.Plain) (same : a.sort = b.sort)
      (before : NameBefore a.name b.name) : Before a b
  | group {a b : Declaration} (first : a.Plain) (second : ¬b.Plain) : Before a b
  | other {a b : Declaration} (first : ¬a.Plain) (second : ¬b.Plain)
      (before : NameBefore a.name b.name) : Before a b

theorem Before.asymm {a b : Declaration} (before : Before a b) : ¬Before b a := by
  intro after
  cases before with
  | sort first second lower =>
    cases after with
    | sort _ _ higher => omega
    | name _ _ same => exact absurd (same ▸ lower) (Nat.lt_irrefl _)
    | group _ other => exact other first
    | other other => exact other second
  | name first second same before =>
    cases after with
    | sort _ _ lower => exact absurd (same ▸ lower) (Nat.lt_irrefl _)
    | name _ _ _ after => exact before.asymm after
    | group _ other => exact other first
    | other other => exact other second
  | group first second =>
    cases after with
    | sort other => exact second other
    | name other => exact second other
    | group other => exact second other
    | other _ other => exact other first
  | other first second before =>
    cases after with
    | sort _ other => exact first other
    | name _ other => exact first other
    | group other => exact second other
    | other _ _ after => exact before.asymm after

end Declaration

theorem isConstant_iff {d : Declaration} : isConstant d = true ↔ d.Plain := by
  rw [isConstant, Bool.and_eq_true, List.isEmpty_iff, Bool.not_eq_true', ← Bool.not_eq_true,
    Text.hasStart_iff, Declaration.Plain]

theorem before_of_constantLe {a b : Declaration} (first : isConstant a = true)
    (second : isConstant b = true) (ordered : constantLe a b = true) (apart : a.name ≠ b.name) :
    a.Before b := by
  rw [isConstant_iff] at first second
  rcases constantLe_iff.mp ordered with lower | ⟨same, before⟩
  · exact .sort first second lower
  · exact .name first second (SmtSort.rank_injective same) (nameBefore_iff.mpr ⟨before, apart⟩)

theorem before_of_functionLe {a b : Declaration} (first : isConstant a = false)
    (second : isConstant b = false) (ordered : functionLe a b = true) (apart : a.name ≠ b.name) :
    a.Before b := by
  rw [← Bool.not_eq_true, isConstant_iff] at first second
  exact .other first second (nameBefore_iff.mpr ⟨ordered, apart⟩)

theorem pairwise_mergeSort_functionLe (declarations : List Declaration) :
    (declarations.mergeSort functionLe).Pairwise fun a b => functionLe a b = true :=
  List.pairwise_mergeSort (fun a b c => Text.shortlexLe_trans a.name b.name c.name)
    (fun a b => Text.shortlexLe_total a.name b.name) declarations

section Inferred

variable {known : KnownDeclarations} {es others : List Expr} {declarations : List Declaration}

theorem pairwise_inferred (inferred : inferFromExprs known es = .ok declarations) :
    declarations.Pairwise Declaration.Before := by
  have apart := List.pairwise_map.mp (nodup_names_of_inferred inferred)
  unfold inferFromExprs at inferred
  split at inferred
  next => cases inferred
  next table collected =>
    cases inferred
    generalize table.filter (fun d => !known.contains d.name) = free at apart ⊢
    obtain ⟨constants, functions, -⟩ := List.pairwise_append.mp apart
    have plain {d : Declaration} (member : d ∈ (free.filter isConstant).mergeSort constantLe) :
        isConstant d = true :=
      (List.mem_filter.mp (List.mem_mergeSort.mp member)).2
    have marked {d : Declaration}
        (member : d ∈ (free.filter (!isConstant ·)).mergeSort functionLe) :
        isConstant d = false := by
      simpa using (List.mem_filter.mp (List.mem_mergeSort.mp member)).2
    refine List.pairwise_append.mpr ⟨?_, ?_, ?_⟩
    next =>
      refine (constants.and (pairwise_mergeSort_constantLe _)).imp_of_mem ?_
      intro a b first second both
      exact before_of_constantLe (plain first) (plain second) both.2 both.1
    next =>
      refine (functions.and (pairwise_mergeSort_functionLe _)).imp_of_mem ?_
      intro a b first second both
      exact before_of_functionLe (marked first) (marked second) both.2 both.1
    next =>
      intro a first b second
      have other : ¬b.Plain := by
        rw [← isConstant_iff, marked second]
        exact Bool.false_ne_true
      exact .group (isConstant_iff.mp (plain first)) other

theorem inferred_sublist
    (part : ∀ d, d ∈ others.flatMap Expr.uses → d ∈ es.flatMap Expr.uses)
    (inferred : inferFromExprs known es = .ok declarations) :
    ∃ own, inferFromExprs known others = .ok own ∧ own.Sublist declarations := by
  have consistent : Consistent (others.flatMap Expr.uses) := by
    intro first firstUsed second secondUsed name
    exact signature_unique inferred (part first firstUsed) (part second secondUsed) name
  obtain ⟨own, inferred'⟩ := (inferFromExprs_eq_ok_iff known others).mpr consistent
  refine ⟨own, inferred', ?_⟩
  have perm : own.Perm (declarations.filter (· ∈ own)) := by
    refine (List.perm_ext_iff_of_nodup (nodup_names_of_inferred inferred').of_map
      ((nodup_names_of_inferred inferred).of_map.filter _)).mpr fun d => ?_
    rw [List.mem_filter, decide_eq_true_eq, mem_inferFromExprs inferred]
    constructor
    next =>
      intro member
      obtain ⟨used, unknown⟩ := (mem_inferFromExprs inferred' d).mp member
      exact ⟨⟨part d used, unknown⟩, member⟩
    next => exact And.right
  -- The order is strict, so there is only one row of these declarations.
  have equal : own = declarations.filter (· ∈ own) :=
    perm.eq_of_pairwise (fun _ _ _ _ before after => absurd after before.asymm)
      (pairwise_inferred inferred') ((pairwise_inferred inferred).sublist List.filter_sublist)
  rw [equal]
  exact List.filter_sublist

theorem inferred_of_same_uses
    (same : ∀ d, d ∈ others.flatMap Expr.uses ↔ d ∈ es.flatMap Expr.uses)
    (inferred : inferFromExprs known es = .ok declarations) :
    inferFromExprs known others = .ok declarations := by
  obtain ⟨found, inferred', within⟩ := inferred_sublist (fun d => (same d).mp) inferred
  obtain ⟨whole, again, contained⟩ := inferred_sublist (fun d => (same d).mpr) inferred'
  rw [inferred, Except.ok.injEq] at again
  rw [← again] at contained
  rw [inferred', within.antisymm contained]

theorem conflict_inferred {conflict : SignatureConflict}
    (refused : inferFromExprs known es = .error conflict) :
    conflict.first ∈ es.flatMap Expr.uses ∧ conflict.second ∈ es.flatMap Expr.uses ∧
      conflict.first.name = conflict.second.name ∧ conflict.first ≠ conflict.second := by
  unfold inferFromExprs at refused
  split at refused
  next found collected =>
    cases refused
    have among := conflict_collectAll (fun e _ => reportsConflicts e) collected
    have used := among.first.resolve_left List.not_mem_nil
    exact ⟨used, among.second, among.sameName, among.differ⟩
  next => cases refused

end Inferred

theorem inferFromExprs_eq_error_iff (known : KnownDeclarations) (es : List Expr) :
    (∃ conflict, inferFromExprs known es = .error conflict) ↔
      ∃ first ∈ es.flatMap Expr.uses, ∃ second ∈ es.flatMap Expr.uses,
        first.name = second.name ∧ first ≠ second := by
  constructor
  next =>
    intro refused
    obtain ⟨conflict, refused⟩ := refused
    obtain ⟨firstUsed, secondUsed, clash⟩ := conflict_inferred refused
    exact ⟨_, firstUsed, _, secondUsed, clash⟩
  next =>
    intro clash
    obtain ⟨first, firstUsed, second, secondUsed, name, differ⟩ := clash
    cases inferred : inferFromExprs known es with
    | error conflict => exact ⟨conflict, rfl⟩
    | ok declarations => exact absurd (signature_unique inferred firstUsed secondUsed name) differ

/-- Inference fails exactly if two uses give one symbol two signatures, and then it shows two such
uses. Else it declares each used symbol that is not known once, in a strict order, so that the same
expressions in another order or number change neither case. -/
theorem inference_exact (known : KnownDeclarations) (es : List Expr) :
    let uses := es.flatMap Expr.uses
    ((∃ conflict, inferFromExprs known es = .error conflict) ↔
      ∃ first ∈ uses, ∃ second ∈ uses, first.name = second.name ∧ first ≠ second) ∧
    (∀ conflict, inferFromExprs known es = .error conflict →
      conflict.first ∈ uses ∧ conflict.second ∈ uses ∧
        conflict.first.name = conflict.second.name ∧
        conflict.first.line ≠ conflict.second.line ∧
        conflict.message = "symbol `" ++ conflict.second.name ++ "` is used with two signatures: `" ++
          conflict.first.line ++ "` and `" ++ conflict.second.line ++ "`") ∧
    (∀ declarations, inferFromExprs known es = .ok declarations →
      (∀ d, d ∈ declarations ↔ d ∈ uses ∧ known.contains d.name = false) ∧
        (declarations.map Declaration.name).Nodup ∧ declarations.Pairwise Declaration.Before) ∧
    ∀ others : List Expr, (∀ e, e ∈ others ↔ e ∈ es) →
      ∀ declarations, inferFromExprs known others = .ok declarations ↔
        inferFromExprs known es = .ok declarations := by
  intro uses
  refine ⟨inferFromExprs_eq_error_iff known es, ?_, ?_, ?_⟩
  next =>
    intro conflict refused
    obtain ⟨firstUsed, secondUsed, name, differ⟩ := conflict_inferred refused
    have shown : conflict.first.line ≠ conflict.second.line :=
      fun same => differ (eq_of_line name same)
    exact ⟨firstUsed, secondUsed, name, shown, rfl⟩
  next =>
    intro declarations inferred
    exact ⟨mem_inferFromExprs inferred, nodup_names_of_inferred inferred,
      pairwise_inferred inferred⟩
  next =>
    intro others members declarations
    have same (d : Declaration) : d ∈ others.flatMap Expr.uses ↔ d ∈ es.flatMap Expr.uses := by
      simp only [List.mem_flatMap, members]
    exact ⟨inferred_of_same_uses fun d => (same d).symm, inferred_of_same_uses same⟩

theorem inference_exact_nested :
    let old : Expr := .ite (.var "b" .boolean) (.intVar "UF_abs") (.call "abs" .integer [])
    let new : Expr :=
      .add (.intVar "INT10") (.call "g1" .integer [.call "f" .real [.intVar "INT9"]])
    let known : KnownDeclarations := { symbols := ["b"] }
    inferFromExprs known [old, new] = .ok [⟨"INT9", [], .integer⟩, ⟨"INT10", [], .integer⟩,
        ⟨"UF_f", [.integer], .real⟩, ⟨"UF_g1", [.real], .integer⟩, ⟨"UF_abs", [], .integer⟩] ∧
      inferFromExprs known [new, old, new] = inferFromExprs known [old, new] ∧
      ∃ conflict, inferFromExprs known [old, new, .call "abs" .real []] = .error conflict ∧
        conflict.first.name = conflict.second.name ∧
        conflict.first.line ≠ conflict.second.line := by
  intro old new known
  have collected : Expr.collectAll [] [old, new] = .ok [⟨"INT9", [], .integer⟩,
      ⟨"UF_f", [.integer], .real⟩, ⟨"UF_g1", [.real], .integer⟩, ⟨"INT10", [], .integer⟩,
      ⟨"UF_abs", [], .integer⟩, ⟨"b", [], .boolean⟩] := by
    decide +kernel
  have declared : inferFromExprs known [old, new] = .ok [⟨"INT9", [], .integer⟩,
      ⟨"INT10", [], .integer⟩, ⟨"UF_f", [.integer], .real⟩, ⟨"UF_g1", [.real], .integer⟩,
      ⟨"UF_abs", [], .integer⟩] := by
    rw [inferFromExprs, collected]
    dsimp only
    rw [List.mergeSort_of_pairwise (by decide +kernel),
      List.mergeSort_of_pairwise (by decide +kernel)]
    decide +kernel
  obtain ⟨-, -, -, reordered⟩ := inference_exact known [old, new]
  obtain ⟨refused, shown, -, -⟩ := inference_exact known [old, new, .call "abs" .real []]
  have same : inferFromExprs known [new, old, new] = inferFromExprs known [old, new] := by
    rw [declared]
    have members (e : Expr) : e ∈ [new, old, new] ↔ e ∈ [old, new] := by
      simp only [List.mem_cons, List.not_mem_nil, or_false]
      grind
    exact (reordered [new, old, new] members _).mpr declared
  obtain ⟨conflict, error⟩ := refused.mpr ⟨⟨"UF_abs", [], .integer⟩, by decide,
    ⟨"UF_abs", [], .real⟩, by decide, rfl, by decide⟩
  obtain ⟨-, -, name, lines, -⟩ := shown conflict error
  exact ⟨declared, same, conflict, error, name, lines⟩

end PathEquiv
