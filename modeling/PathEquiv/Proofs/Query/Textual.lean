import PathEquiv.Proofs.Declaration.Convention
import PathEquiv.Proofs.Declaration.Order
import PathEquiv.Proofs.Query.Distinct

set_option autoImplicit false

namespace PathEquiv

theorem Declaration.constant_eq {d : Declaration} (arguments : d.arguments = []) :
    Declaration.constant d.name d.sort = d := by
  rw [Declaration.constant, ← arguments]

def constantsNamed (names : SmtSort → List String) : List Declaration :=
  [SmtSort.integer, .real].flatMap fun sort => (names sort).map (Declaration.constant · sort)

theorem mem_constantsNamed {names : SmtSort → List String} {d : Declaration} :
    d ∈ constantsNamed names ↔
      d.arguments = [] ∧ (d.sort = .integer ∨ d.sort = .real) ∧ d.name ∈ names d.sort := by
  simp only [constantsNamed, List.mem_flatMap, List.mem_cons, List.not_mem_nil, or_false,
    List.mem_map]
  constructor
  next =>
    rintro ⟨sort, told, name, member, rfl⟩
    exact ⟨rfl, told, member⟩
  next =>
    rintro ⟨arguments, told, member⟩
    exact ⟨d.sort, told, d.name, member, Declaration.constant_eq arguments⟩

theorem nodup_constantsNamed {names : SmtSort → List String}
    (each : ∀ sort, (names sort).Nodup) : (constantsNamed names).Nodup := by
  have row (sort : SmtSort) : ((names sort).map (Declaration.constant · sort)).Nodup :=
    (each sort).map fun a b same => congrArg Declaration.name same
  have apart : ∀ d ∈ (names .integer).map (Declaration.constant · .integer),
      d ∉ (names .real).map (Declaration.constant · .real) := by
    intro d first second
    obtain ⟨a, -, rfl⟩ := List.mem_map.mp first
    obtain ⟨b, -, same⟩ := List.mem_map.mp second
    cases congrArg Declaration.sort same
  simp only [constantsNamed, List.flatMap_cons, List.flatMap_nil, List.append_nil]
  exact (row .integer).append (row .real) (List.disjoint_left.mpr (fun d => apart d))

theorem ordered_constantsNamed {names : SmtSort → List String}
    (each : ∀ sort, (names sort).Pairwise fun a b => Text.shortlexLe a b = true) :
    (constantsNamed names).Pairwise fun a b => constantLe a b = true := by
  have row (sort : SmtSort) : ((names sort).map (Declaration.constant · sort)).Pairwise
      fun a b => constantLe a b = true := by
    rw [List.pairwise_map]
    refine (each sort).imp fun before => ?_
    exact constantLe_iff.mpr (.inr ⟨rfl, before⟩)
  simp only [constantsNamed, List.flatMap_cons, List.flatMap_nil, List.append_nil]
  refine List.pairwise_append.mpr ⟨row .integer, row .real, ?_⟩
  intro a first b second
  obtain ⟨_, -, rfl⟩ := List.mem_map.mp first
  obtain ⟨_, -, rfl⟩ := List.mem_map.mp second
  have ranks : SmtSort.integer.rank < SmtSort.real.rank := by decide
  exact constantLe_iff.mpr (.inl ranks)

theorem inferFromText_eq (known : KnownDeclarations) (text : String) :
    inferFromText known text = constantsNamed fun sort =>
      (((conventionalNames sort text).filter (!known.contains ·)).eraseDups.mergeSort
        Text.shortlexLe) := by
  simp [inferFromText, constantsNamed, declaredNames]

theorem told_of_mem_conventionalNames {sort : SmtSort} {name text : String}
    (member : name ∈ conventionalNames sort text) : sort = .integer ∨ sort = .real := by
  obtain ⟨stem, -, found, -⟩ := eq_of_mem_conventionalNames member
  exact (stem_cases found).imp And.left And.left

theorem mem_inferFromText {known : KnownDeclarations} {text : String} {d : Declaration} :
    d ∈ inferFromText known text ↔
      d.arguments = [] ∧ d.name ∈ conventionalNames d.sort text ∧
        known.contains d.name = false := by
  rw [inferFromText_eq, mem_constantsNamed]
  simp only [List.mem_mergeSort, List.mem_eraseDups, List.mem_filter, Bool.not_eq_true']
  constructor
  next =>
    rintro ⟨arguments, -, named⟩
    exact ⟨arguments, named⟩
  next =>
    rintro ⟨arguments, named⟩
    exact ⟨arguments, told_of_mem_conventionalNames named.1, named⟩

theorem nodup_inferFromText (known : KnownDeclarations) (text : String) :
    (inferFromText known text).Nodup := by
  rw [inferFromText_eq]
  refine nodup_constantsNamed fun sort => ?_
  rw [(List.mergeSort_perm _ _).nodup_iff]
  exact nodup_eraseDups _

theorem ordered_inferFromText (known : KnownDeclarations) (text : String) :
    (inferFromText known text).Pairwise fun a b => constantLe a b = true := by
  rw [inferFromText_eq]
  exact ordered_constantsNamed fun sort =>
    List.pairwise_mergeSort Text.shortlexLe_trans Text.shortlexLe_total _

/-- A valid expression without calls, the names of whose variables tell their sorts. -/
structure Expr.Conventional (e : Expr) : Prop where
  valid : e.Valid
  callFree : e.hasCall = false
  named : ∀ d ∈ e.uses, conventionSort? d.name = some d.sort

theorem Expr.arguments_of_callFree {e : Expr} (callFree : e.hasCall = false) :
    ∀ d ∈ e.uses, d.arguments = [] := by
  induction e using Expr.operandInduction with
  | literal value sort => simp [Expr.uses]
  | var name sort => simp [Expr.uses, Declaration.constant]
  | op opcode operands ih =>
    rw [Expr.hasCall, Expr.anyHasCall_eq, List.any_eq_false] at callFree
    rw [Expr.uses, Expr.usesAll_eq]
    intro d used
    obtain ⟨e, member, inside⟩ := List.mem_flatMap.mp used
    exact ih e member (by simpa using callFree e member) d inside
  | call function sort operands ih => cases callFree

theorem Expr.Conventional.used_of_named {e : Expr} (conventional : e.Conventional) {sort : SmtSort}
    {name : String} :
    (∃ d ∈ e.uses, name ∈ conventionalNames sort d.name) ↔ .constant name sort ∈ e.uses := by
  constructor
  next =>
    rintro ⟨d, used, inside⟩
    rw [conventionalNames_name (conventional.named d used)] at inside
    have arguments := Expr.arguments_of_callFree conventional.callFree d used
    by_cases same : d.sort = sort
    next =>
      rw [if_pos same, List.mem_singleton] at inside
      rw [inside, ← same, Declaration.constant_eq arguments]
      exact used
    next =>
      rw [if_neg same] at inside
      cases inside
  next =>
    intro used
    have named : conventionSort? name = some sort := conventional.named (.constant name sort) used
    have inside : name ∈ conventionalNames sort name := by
      rw [conventionalNames_name named, if_pos rfl]
      exact List.mem_singleton_self name
    exact ⟨.constant name sort, used, inside⟩

theorem unmarked_of_stem {sort : SmtSort} {stem digits : List Char} {name : String}
    (found : sort.stem? = some stem) (shape : name.toList = stem ++ digits) :
    Text.hasStart callMarker name = false := by
  rw [← Bool.not_eq_true]
  intro marked
  have head := head_of_marked marked
  rcases stem_cases found with ⟨-, rfl⟩ | ⟨-, rfl⟩ <;> simp [shape] at head

section Inferred

variable {exprs : List Expr} (conventional : ∀ e ∈ exprs, e.Conventional)

include conventional

theorem arguments_of_conventional {d : Declaration} (used : d ∈ exprs.flatMap Expr.uses) :
    d.arguments = [] := by
  obtain ⟨e, member, inside⟩ := List.mem_flatMap.mp used
  exact Expr.arguments_of_callFree (conventional e member).callFree d inside

theorem named_of_conventional {d : Declaration} (used : d ∈ exprs.flatMap Expr.uses) :
    conventionSort? d.name = some d.sort := by
  obtain ⟨e, member, inside⟩ := List.mem_flatMap.mp used
  exact (conventional e member).named d inside

theorem consistent_of_conventional : Consistent (exprs.flatMap Expr.uses) := by
  intro first firstUsed second secondUsed same
  have firstSort := named_of_conventional conventional firstUsed
  have secondSort := named_of_conventional conventional secondUsed
  rw [same, secondSort, Option.some.injEq] at firstSort
  have arguments := (arguments_of_conventional conventional firstUsed).trans
    (arguments_of_conventional conventional secondUsed).symm
  cases first
  cases second
  simp_all

theorem isConstant_of_conventional {d : Declaration} (used : d ∈ exprs.flatMap Expr.uses) :
    isConstant d = true := by
  obtain ⟨stem, digits, found, -, shape, -⟩ :=
    eq_of_conventionSort (named_of_conventional conventional used)
  simp [isConstant, arguments_of_conventional conventional used, unmarked_of_stem found shape]

theorem mem_conventionalNames_printed {sort : SmtSort} {name : String} :
    (∃ e ∈ exprs, name ∈ conventionalNames sort e.print) ↔
      .constant name sort ∈ exprs.flatMap Expr.uses ∨
        ∃ value ∈ exprs.flatMap Expr.stringValues, name ∈ conventionalNames sort value := by
  have each : ∀ e ∈ exprs, (name ∈ conventionalNames sort e.print ↔
      .constant name sort ∈ e.uses ∨
        ∃ value ∈ e.stringValues, name ∈ conventionalNames sort value) := by
    intro e member
    rw [mem_conventionalNames_print (conventional e member).valid,
      (conventional e member).used_of_named]
  simp only [List.mem_flatMap]
  grind

theorem used_of_embedded_variable {sort : SmtSort} {name value : String}
    (embedded : name ∈ conventionalNames sort value)
    (isVariable : name ∈ exprs.flatMap Expr.variableNames) :
    .constant name sort ∈ exprs.flatMap Expr.uses := by
  obtain ⟨stem, digits, found, shape⟩ := eq_of_mem_conventionalNames embedded
  obtain ⟨e, member, occurs⟩ := List.mem_flatMap.mp isVariable
  obtain ⟨d, inside, rfl⟩ := (Expr.used_iff_variable (unmarked_of_stem found shape) e).mpr occurs
  have used : d ∈ exprs.flatMap Expr.uses := List.mem_flatMap.mpr ⟨e, member, inside⟩
  have sorted := sort_of_mem_conventionalNames embedded (named_of_conventional conventional used)
  rw [← sorted, Declaration.constant_eq (arguments_of_conventional conventional used)]
  exact used

theorem variable_of_used {d : Declaration} (used : d ∈ exprs.flatMap Expr.uses) :
    d.name ∈ exprs.flatMap Expr.variableNames := by
  obtain ⟨stem, digits, found, -, shape, -⟩ :=
    eq_of_conventionSort (named_of_conventional conventional used)
  obtain ⟨e, member, inside⟩ := List.mem_flatMap.mp used
  exact List.mem_flatMap.mpr
    ⟨e, member, (Expr.used_iff_variable (unmarked_of_stem found shape) e).mp ⟨d, inside, rfl⟩⟩

end Inferred

/-- The conventional names in string literals that are neither known nor variables, as constants. -/
def embeddedConstants (known : KnownDeclarations) (exprs : List Expr) : List Declaration :=
  constantsNamed fun sort =>
    (((exprs.flatMap Expr.stringValues).flatMap (conventionalNames sort)).filter fun name =>
      !known.contains name && !(exprs.flatMap Expr.variableNames).contains name).eraseDups

theorem mem_embeddedConstants {known : KnownDeclarations} {exprs : List Expr} {d : Declaration} :
    d ∈ embeddedConstants known exprs ↔
      d.arguments = [] ∧
        (∃ value ∈ exprs.flatMap Expr.stringValues, d.name ∈ conventionalNames d.sort value) ∧
        known.contains d.name = false ∧ d.name ∉ exprs.flatMap Expr.variableNames := by
  have names : d ∈ embeddedConstants known exprs ↔
      d.arguments = [] ∧ (d.sort = .integer ∨ d.sort = .real) ∧
        (∃ value ∈ exprs.flatMap Expr.stringValues, d.name ∈ conventionalNames d.sort value) ∧
        known.contains d.name = false ∧ d.name ∉ exprs.flatMap Expr.variableNames := by
    rw [embeddedConstants, mem_constantsNamed, List.mem_eraseDups, List.mem_filter,
      List.mem_flatMap, Bool.and_eq_true, Bool.not_eq_true', Bool.not_eq_true',
      ← Bool.not_eq_true (List.contains _ _), List.contains_iff_mem]
  rw [names]
  constructor
  next =>
    rintro ⟨arguments, -, rest⟩
    exact ⟨arguments, rest⟩
  next =>
    rintro ⟨arguments, ⟨value, occurs, named⟩, rest⟩
    exact ⟨arguments, told_of_mem_conventionalNames named, ⟨value, occurs, named⟩, rest⟩

theorem inferFromText_perm {known : KnownDeclarations} {exprs : List Expr}
    (conventional : ∀ e ∈ exprs, e.Conventional) {text : String}
    (printed : ∀ sort name, name ∈ conventionalNames sort text ↔
      ∃ e ∈ exprs, name ∈ conventionalNames sort e.print)
    {declarations : List Declaration} (inferred : inferFromExprs known exprs = .ok declarations) :
    (inferFromText known text).Perm (declarations ++ embeddedConstants known exprs) := by
  have apart : ∀ d ∈ declarations, d ∉ embeddedConstants known exprs := by
    intro d typed embedded
    obtain ⟨-, -, -, noVariable⟩ := mem_embeddedConstants.mp embedded
    exact noVariable (variable_of_used conventional ((mem_inferFromExprs inferred d).mp typed).1)
  have distinct : (declarations ++ embeddedConstants known exprs).Nodup :=
    (nodup_names_of_inferred inferred).of_map.append
      (nodup_constantsNamed fun sort => nodup_eraseDups _)
      (List.disjoint_left.mpr fun d => apart d)
  rw [List.perm_ext_iff_of_nodup (nodup_inferFromText known text) distinct]
  intro d
  rw [mem_inferFromText, printed, mem_conventionalNames_printed conventional, List.mem_append,
    mem_inferFromExprs inferred, mem_embeddedConstants]
  constructor
  next =>
    rintro ⟨arguments, occurs, unknown⟩
    have same := Declaration.constant_eq arguments
    -- A name in a string literal can be that of a variable too, which is declared already.
    by_cases isVariable : d.name ∈ exprs.flatMap Expr.variableNames
    next =>
      left
      refine ⟨?_, unknown⟩
      rcases occurs with used | ⟨value, -, named⟩
      · exact same ▸ used
      · exact same ▸ used_of_embedded_variable conventional named isVariable
    next =>
      right
      refine ⟨arguments, ?_, unknown, isVariable⟩
      rcases occurs with used | embedded
      · exact absurd (variable_of_used conventional (same ▸ used)) isVariable
      · exact embedded
  next =>
    rintro (⟨used, unknown⟩ | ⟨arguments, embedded, unknown, -⟩)
    · have arguments := arguments_of_conventional conventional used
      exact ⟨arguments, .inl ((Declaration.constant_eq arguments).symm ▸ used), unknown⟩
    · exact ⟨arguments, .inr embedded, unknown⟩

theorem mem_conventionalNames_texts (condition : Option Expr) (old new : Expr) (sort : SmtSort)
    (name : String) :
    name ∈ conventionalNames sort
        (printCondition condition ++ "\n" ++ old.print ++ "\n" ++ new.print) ↔
      ∃ e ∈ condition.toList ++ [old, new], name ∈ conventionalNames sort e.print := by
  have newline : Text.splitsWords '\n' = true := by decide
  have parts : conventionalNames sort
      (printCondition condition ++ "\n" ++ old.print ++ "\n" ++ new.print) =
        conventionalNames sort (printCondition condition) ++ conventionalNames sort old.print ++
          conventionalNames sort new.print := by
    rw [← conventionalNames_append newline, ← conventionalNames_append newline]
    rfl
  rw [parts]
  cases condition with
  | none =>
    have none : conventionalNames sort (printCondition none) = [] :=
      conventionalNames_of_not_mem (by decide) (by decide)
    simp [none]
  | some e => simp [printCondition]

namespace Synthesizer

/-- Where names tell sorts, the queries from the texts differ from the typed ones in the constants
for names in string literals only. Without such names they are the same queries. -/
theorem textual_agrees_with_typed (s : Synthesizer) (condition : Option Expr) (old new : Expr)
    (conventional : ∀ e ∈ condition.toList ++ [old, new], e.Conventional) :
    let exprs := condition.toList ++ [old, new]
    let textual := s.synthesizeText (printCondition condition) old.print new.print
    ∃ typed, s.synthesize condition old new = .ok typed ∧
      (∀ kind, (textual.get kind).declarations =
        ((typed.get kind).declarations ++ embeddedConstants s.known exprs).mergeSort constantLe) ∧
      ((∀ value ∈ exprs.flatMap Expr.stringValues, ∀ sort, conventionalNames sort value = []) →
        textual = typed) := by
  intro exprs textual
  obtain ⟨declarations, inferred⟩ := (inferFromExprs_eq_ok_iff s.known exprs).mpr
    (consistent_of_conventional conventional)
  obtain ⟨checked, oldValid, newValid⟩ := forall_valid_iff.mp
    fun e member => (conventional e member).valid
  refine ⟨_, synthesize_eq_ok.mpr ⟨checked, oldValid, newValid, declarations, inferred, rfl⟩, ?_⟩
  let text := printCondition condition ++ "\n" ++ old.print ++ "\n" ++ new.print
  -- Both rows hold the same constants, and both are in the common order.
  have same : inferFromText s.known text =
      (declarations ++ embeddedConstants s.known exprs).mergeSort constantLe := by
    have perm := inferFromText_perm conventional
      (mem_conventionalNames_texts condition old new) inferred
    exact eq_of_perm_of_constantLe (fun d member => (mem_inferFromText.mp member).1)
      (perm.trans (List.mergeSort_perm _ constantLe).symm) (ordered_inferFromText s.known text)
      (pairwise_mergeSort_constantLe _)
  constructor
  next =>
    intro kind
    rw [get_assemble]
    exact (congrArg Query.declarations (get_assemble s _ _ _ _ kind)).trans same
  next =>
    intro plain
    have none : embeddedConstants s.known exprs = [] := by
      rw [List.eq_nil_iff_forall_not_mem]
      intro d member
      obtain ⟨-, ⟨value, occurs, named⟩, -⟩ := mem_embeddedConstants.mp member
      rw [plain value occurs] at named
      cases named
    have ordered := ordered_of_inferred inferred fun d =>
      isConstant_of_conventional conventional
    rw [none, List.append_nil, List.mergeSort_of_pairwise ordered] at same
    exact congrArg (s.assemble · (printCondition condition) old.print new.print) same

theorem textual_agrees_with_typed_embedded :
    let length := Expr.op .strLen [.string "INT12 \"INT3\" REAL_4 XINT5"]
    let condition := length.eq (.intVar "INT3")
    let result := Expr.realVar "REAL_10"
    let s : Synthesizer := { known := .parse "(declare-fun REAL_4 () Real)" }
    let textual := s.synthesizeText condition.print result.print result.print
    embeddedConstants s.known [condition, result, result] = [.constant "INT12" .integer] ∧
      ∃ typed, s.synthesize (some condition) result result = .ok typed ∧
        textual.neq.declarations =
          (typed.neq.declarations ++ [Declaration.constant "INT12" .integer]).mergeSort
            constantLe := by
  intro length condition result s textual
  have embedded : embeddedConstants s.known [condition, result, result] =
      [.constant "INT12" .integer] := by
    decide +kernel
  have compared : condition.Conventional := ⟨rfl, rfl, by decide +kernel⟩
  have real : result.Conventional := ⟨rfl, rfl, by decide +kernel⟩
  obtain ⟨typed, built, declared, -⟩ := textual_agrees_with_typed s (some condition) result result
    (by simp [compared, real])
  refine ⟨embedded, typed, built, ?_⟩
  rw [← embedded]
  exact declared .neq

end Synthesizer

end PathEquiv
