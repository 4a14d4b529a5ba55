import Mathlib.Data.List.Nodup
import PathEquiv.Proofs.Expr.Tree

set_option autoImplicit false

namespace PathEquiv

namespace Expr

mutual

def uses : Expr → List Declaration
  | .literal _ _ => []
  | .var name sort => [.constant name sort]
  | .op _ operands => usesAll operands
  | .call function sort operands => callDeclaration function sort operands :: usesAll operands

def usesAll : List Expr → List Declaration
  | [] => []
  | e :: es => uses e ++ usesAll es

end

theorem usesAll_eq (es : List Expr) : usesAll es = es.flatMap uses := by
  induction es with
  | nil => rfl
  | cons e es ih => simp [usesAll, ih]

end Expr

theorem mem_recordDeclaration {table next : List Declaration} {d : Declaration}
    (recorded : recordDeclaration table d = .ok next) (other : Declaration) :
    other ∈ next ↔ other ∈ table ∨ other = d := by
  unfold recordDeclaration at recorded
  split at recorded
  next =>
    cases recorded
    simp [or_comm]
  next first found =>
    split at recorded
    next same =>
      cases recorded
      have present : d ∈ table := same ▸ List.mem_of_find?_eq_some found
      constructor
      · exact Or.inl
      · rintro (member | rfl)
        · exact member
        · exact present
    next => cases recorded

def Expr.CollectsUses (e : Expr) : Prop :=
  ∀ table next, e.collect table = .ok next →
    ∀ d, d ∈ next ↔ d ∈ table ∨ d ∈ e.uses

theorem mem_collectAll {es : List Expr} (each : ∀ e ∈ es, e.CollectsUses)
    {table next : List Declaration} (collected : Expr.collectAll table es = .ok next)
    (d : Declaration) : d ∈ next ↔ d ∈ table ∨ d ∈ es.flatMap Expr.uses := by
  induction es generalizing table with
  | nil =>
    cases collected
    simp
  | cons e es ih =>
    cases first : e.collect table with
    | error conflict => simp [Expr.collectAll, first] at collected
    | ok middle =>
      simp only [Expr.collectAll, first] at collected
      have rest := ih (fun other member => each other (by simp [member])) collected
      rw [rest, each e (by simp) table middle first d]
      simp [or_assoc]

theorem collectsUses (e : Expr) : e.CollectsUses := by
  induction e using Expr.operandInduction with
  | literal value sort =>
    intro table next collected d
    cases collected
    simp [Expr.uses]
  | var name sort =>
    intro table next collected d
    rw [mem_recordDeclaration collected d]
    simp [Expr.uses]
  | op opcode operands ih =>
    intro table next collected d
    rw [Expr.uses, Expr.usesAll_eq]
    exact mem_collectAll ih collected d
  | call function sort operands ih =>
    intro table next collected d
    -- The function is recorded before its operands.
    cases recorded : recordDeclaration table (Expr.callDeclaration function sort operands) with
    | error conflict => simp [Expr.collect, recorded] at collected
    | ok middle =>
      simp only [Expr.collect, recorded] at collected
      rw [mem_collectAll ih collected d, mem_recordDeclaration recorded d, Expr.uses,
        Expr.usesAll_eq, List.mem_cons, or_assoc]

theorem mem_inferFromExprs {known : KnownDeclarations} {es : List Expr}
    {declarations : List Declaration} (inferred : inferFromExprs known es = .ok declarations)
    (d : Declaration) :
    d ∈ declarations ↔ d ∈ es.flatMap Expr.uses ∧ known.contains d.name = false := by
  unfold inferFromExprs at inferred
  split at inferred
  next => cases inferred
  next table collected =>
    cases inferred
    have members := mem_collectAll (fun e _ => collectsUses e) collected d
    cases constant : isConstant d <;> simp [List.mem_mergeSort, constant, members]

theorem inferFromExprs_perm {known : KnownDeclarations} {es : List Expr}
    {declarations : List Declaration} (inferred : inferFromExprs known es = .ok declarations) :
    ∃ table, Expr.collectAll [] es = .ok table ∧
      declarations.Perm (table.filter fun d => !known.contains d.name) := by
  unfold inferFromExprs at inferred
  split at inferred
  next => cases inferred
  next table collected =>
    cases inferred
    refine ⟨table, collected, ?_⟩
    have sorted := ((table.filter fun d => !known.contains d.name).filter isConstant
      |>.mergeSort_perm constantLe).append
      (((table.filter fun d => !known.contains d.name).filter (!isConstant ·)).mergeSort_perm
        functionLe)
    exact sorted.trans (List.filter_append_perm isConstant _)

def Keeps (property : List Declaration → Prop)
    (step : List Declaration → Except SignatureConflict (List Declaration)) : Prop :=
  ∀ table next, step table = .ok next → property table → property next

theorem keeps_collectAll {property : List Declaration → Prop} {es : List Expr}
    (each : ∀ e ∈ es, Keeps property (Expr.collect · e)) :
    Keeps property (Expr.collectAll · es) := by
  induction es with
  | nil =>
    intro table next collected holds
    cases collected
    exact holds
  | cons e es ih =>
    intro table next collected holds
    cases first : e.collect table with
    | error conflict => simp [Expr.collectAll, first] at collected
    | ok middle =>
      simp only [Expr.collectAll, first] at collected
      have rest := ih fun other member => each other (by simp [member])
      exact rest middle next collected (each e (by simp) table middle first holds)

theorem keeps_collect {property : List Declaration → Prop}
    (records : ∀ d, Keeps property (recordDeclaration · d)) (e : Expr) :
    Keeps property (Expr.collect · e) := by
  induction e using Expr.operandInduction with
  | literal value sort =>
    intro table next collected holds
    cases collected
    exact holds
  | var name sort => exact records (.constant name sort)
  | op opcode operands ih => exact keeps_collectAll ih
  | call function sort operands ih =>
    intro table next collected holds
    cases first : recordDeclaration table (Expr.callDeclaration function sort operands) with
    | error conflict => simp [Expr.collect, first] at collected
    | ok middle =>
      simp only [Expr.collect, first] at collected
      exact keeps_collectAll ih middle next collected (records _ table middle first holds)

theorem keeps_distinct_names (d : Declaration) :
    Keeps (fun table => (table.map Declaration.name).Nodup) (recordDeclaration · d) := by
  intro table next recorded distinct
  simp only [recordDeclaration] at recorded
  split at recorded
  next missing =>
    cases recorded
    have fresh : d.name ∉ table.map Declaration.name := by
      intro member
      obtain ⟨other, occurs, same⟩ := List.mem_map.mp member
      have unequal := List.find?_eq_none.mp missing other occurs
      simp [same] at unequal
    exact List.nodup_cons.mpr ⟨fresh, distinct⟩
  next =>
    split at recorded
    next =>
      cases recorded
      exact distinct
    next => cases recorded

theorem nodup_names_of_inferred {known : KnownDeclarations} {es : List Expr}
    {declarations : List Declaration} (inferred : inferFromExprs known es = .ok declarations) :
    (declarations.map Declaration.name).Nodup := by
  obtain ⟨table, collected, perm⟩ := inferFromExprs_perm inferred
  have distinct := keeps_collectAll (fun e _ => keeps_collect keeps_distinct_names e) [] table
    collected List.nodup_nil
  rw [(perm.map Declaration.name).nodup_iff]
  exact distinct.sublist (List.filter_sublist.map Declaration.name)

theorem signature_unique {known : KnownDeclarations} {es : List Expr}
    {declarations : List Declaration} (inferred : inferFromExprs known es = .ok declarations)
    {first second : Declaration} (firstUsed : first ∈ es.flatMap Expr.uses)
    (secondUsed : second ∈ es.flatMap Expr.uses) (same : first.name = second.name) :
    first = second := by
  unfold inferFromExprs at inferred
  split at inferred
  next => cases inferred
  next table collected =>
    have members := mem_collectAll (fun e _ => collectsUses e) collected
    have firstKept := (members first).mpr (.inr firstUsed)
    have secondKept := (members second).mpr (.inr secondUsed)
    have distinct := keeps_collectAll (fun e _ => keeps_collect keeps_distinct_names e) [] table
      collected List.nodup_nil
    exact List.inj_on_of_nodup_map distinct firstKept secondKept same

structure SignatureConflict.Among (conflict : SignatureConflict)
    (table uses : List Declaration) : Prop where
  first : conflict.first ∈ table ∨ conflict.first ∈ uses
  second : conflict.second ∈ uses
  sameName : conflict.first.name = conflict.second.name
  differ : conflict.first ≠ conflict.second

namespace SignatureConflict.Among

variable {conflict : SignatureConflict} {table middle uses earlier : List Declaration}

theorem before (among : conflict.Among table uses) (more : List Declaration) :
    conflict.Among table (uses ++ more) where
  first := among.first.imp_right (List.mem_append_left more)
  second := List.mem_append_left more among.second
  sameName := among.sameName
  differ := among.differ

theorem after (among : conflict.Among middle uses)
    (grown : ∀ d, d ∈ middle ↔ d ∈ table ∨ d ∈ earlier) :
    conflict.Among table (earlier ++ uses) where
  first := by
    rw [List.mem_append, ← or_assoc, ← grown]
    exact among.first
  second := List.mem_append_right earlier among.second
  sameName := among.sameName
  differ := among.differ

end SignatureConflict.Among

theorem conflict_recordDeclaration {table : List Declaration} {d : Declaration}
    {conflict : SignatureConflict} (refused : recordDeclaration table d = .error conflict) :
    conflict.Among table [d] := by
  unfold recordDeclaration at refused
  split at refused
  next => cases refused
  next first found =>
    split at refused
    next => cases refused
    next differ =>
      cases refused
      have name : first.name = d.name := by simpa using List.find?_some found
      exact ⟨.inl (List.mem_of_find?_eq_some found), by simp, name, differ⟩

def Expr.ReportsConflicts (e : Expr) : Prop :=
  ∀ table conflict, e.collect table = .error conflict → conflict.Among table e.uses

theorem conflict_collectAll {es : List Expr} (each : ∀ e ∈ es, e.ReportsConflicts)
    {table : List Declaration} {conflict : SignatureConflict}
    (refused : Expr.collectAll table es = .error conflict) :
    conflict.Among table (es.flatMap Expr.uses) := by
  induction es generalizing table with
  | nil => cases refused
  | cons e es ih =>
    rw [List.flatMap_cons]
    cases first : e.collect table with
    | error own =>
      simp only [Expr.collectAll, first, Except.error.injEq] at refused
      subst refused
      exact (each e (by simp) table own first).before _
    | ok middle =>
      simp only [Expr.collectAll, first] at refused
      have rest := ih (fun other member => each other (by simp [member])) refused
      exact rest.after (collectsUses e table middle first)

theorem reportsConflicts (e : Expr) : e.ReportsConflicts := by
  induction e using Expr.operandInduction with
  | literal value sort =>
    intro table conflict refused
    cases refused
  | var name sort => exact fun table conflict refused => conflict_recordDeclaration refused
  | op opcode operands ih =>
    intro table conflict refused
    rw [Expr.uses, Expr.usesAll_eq]
    exact conflict_collectAll ih refused
  | call function sort operands ih =>
    intro table conflict refused
    rw [Expr.uses, Expr.usesAll_eq, ← List.singleton_append]
    cases recorded : recordDeclaration table (Expr.callDeclaration function sort operands) with
    | error own =>
      simp only [Expr.collect, recorded, Except.error.injEq] at refused
      subst refused
      exact (conflict_recordDeclaration recorded).before _
    | ok middle =>
      simp only [Expr.collect, recorded] at refused
      have members (d : Declaration) := mem_recordDeclaration recorded d
      exact (conflict_collectAll ih refused).after (by simpa using members)

def Consistent (uses : List Declaration) : Prop :=
  ∀ first ∈ uses, ∀ second ∈ uses, first.name = second.name → first = second

/-- Declarations can be inferred exactly where no symbol is used with two signatures, whatever is
known. -/
theorem inferFromExprs_eq_ok_iff (known : KnownDeclarations) (es : List Expr) :
    (∃ declarations, inferFromExprs known es = .ok declarations) ↔
      Consistent (es.flatMap Expr.uses) := by
  constructor
  next =>
    rintro ⟨declarations, inferred⟩ first firstUsed second secondUsed same
    exact signature_unique inferred firstUsed secondUsed same
  next =>
    intro consistent
    cases collected : Expr.collectAll [] es with
    | ok table => exact ⟨_, by rw [inferFromExprs, collected]⟩
    | error conflict =>
      have among := conflict_collectAll (fun e _ => reportsConflicts e) collected
      have used : conflict.first ∈ es.flatMap Expr.uses := by simpa using among.first
      exact absurd (consistent _ used _ among.second among.sameName) among.differ

theorem Expr.simple_of_mem_uses {e : Expr} (valid : e.Valid) {d : Declaration}
    (used : d ∈ e.uses) : isSimpleSymbol d.name.toList = true := by
  induction e using Expr.operandInduction with
  | literal value sort => simp [Expr.uses] at used
  | var name sort =>
    simp only [Expr.uses, List.mem_singleton] at used
    subst used
    exact Expr.valid_var.mp valid
  | op opcode operands ih =>
    obtain ⟨-, operandsValid⟩ := Expr.valid_op.mp valid
    rw [Expr.uses, Expr.usesAll_eq, List.mem_flatMap] at used
    obtain ⟨e, member, inside⟩ := used
    exact ih e member (operandsValid e member) inside
  | call function sort operands ih =>
    obtain ⟨simple, operandsValid⟩ := Expr.valid_call.mp valid
    rw [Expr.uses, Expr.usesAll_eq, List.mem_cons, List.mem_flatMap] at used
    rcases used with rfl | ⟨e, member, inside⟩
    · exact isSimpleSymbol_callSymbol function simple
    · exact ih e member (operandsValid e member) inside

theorem simple_of_inferred {known : KnownDeclarations} {exprs : List Expr}
    (valid : ∀ e ∈ exprs, e.Valid) {declarations : List Declaration}
    (inferred : inferFromExprs known exprs = .ok declarations) :
    ∀ d ∈ declarations, isSimpleSymbol d.name.toList = true := by
  intro d member
  obtain ⟨used, -⟩ := (mem_inferFromExprs inferred d).mp member
  obtain ⟨e, occurs, inside⟩ := List.mem_flatMap.mp used
  exact Expr.simple_of_mem_uses (valid e occurs) inside

end PathEquiv
