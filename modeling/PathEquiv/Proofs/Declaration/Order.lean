import PathEquiv.Proofs.Containers
import PathEquiv.Proofs.Declaration.Uses

set_option autoImplicit false

namespace PathEquiv

namespace Text

theorem shortlexLe_iff {a b : String} :
    shortlexLe a b = true ↔
      a.utf8ByteSize < b.utf8ByteSize ∨ a.utf8ByteSize = b.utf8ByteSize ∧ a ≤ b := by
  simp [shortlexLe, le]

theorem shortlexLe_trans (a b c : String) (first : shortlexLe a b = true)
    (second : shortlexLe b c = true) : shortlexLe a c = true := by
  rw [shortlexLe_iff] at first second ⊢
  rcases first with shorter | ⟨same, before⟩
  · left
    omega
  · rcases second with shorter | ⟨equal, after⟩
    · left
      omega
    · exact .inr ⟨same.trans equal, String.le_trans before after⟩

theorem shortlexLe_total (a b : String) : (shortlexLe a b || shortlexLe b a) = true := by
  rw [Bool.or_eq_true, shortlexLe_iff, shortlexLe_iff]
  rcases Nat.lt_trichotomy a.utf8ByteSize b.utf8ByteSize with shorter | same | longer
  · exact .inl (.inl shorter)
  · rcases String.le_total a b with before | after
    · exact .inl (.inr ⟨same, before⟩)
    · exact .inr (.inr ⟨same.symm, after⟩)
  · exact .inr (.inl longer)

theorem shortlexLe_antisymm {a b : String} (first : shortlexLe a b = true)
    (second : shortlexLe b a = true) : a = b := by
  rw [shortlexLe_iff] at first second
  rcases first with shorter | ⟨same, before⟩
  · omega
  · rcases second with shorter | ⟨-, after⟩
    · omega
    · exact String.le_antisymm before after

end Text

theorem constantLe_iff {a b : Declaration} :
    constantLe a b = true ↔
      a.sort.rank < b.sort.rank ∨
        a.sort.rank = b.sort.rank ∧ Text.shortlexLe a.name b.name = true := by
  simp [constantLe]

theorem constantLe_trans (a b c : Declaration) (first : constantLe a b = true)
    (second : constantLe b c = true) : constantLe a c = true := by
  rw [constantLe_iff] at first second ⊢
  rcases first with lower | ⟨same, before⟩
  · left
    omega
  · rcases second with lower | ⟨equal, after⟩
    · left
      omega
    · exact .inr ⟨same.trans equal, Text.shortlexLe_trans _ _ _ before after⟩

theorem constantLe_total (a b : Declaration) : (constantLe a b || constantLe b a) = true := by
  rw [Bool.or_eq_true, constantLe_iff, constantLe_iff]
  rcases Nat.lt_trichotomy a.sort.rank b.sort.rank with lower | same | higher
  · exact .inl (.inl lower)
  · have names := Text.shortlexLe_total a.name b.name
    rw [Bool.or_eq_true] at names
    rcases names with before | after
    · exact .inl (.inr ⟨same, before⟩)
    · exact .inr (.inr ⟨same.symm, after⟩)
  · exact .inr (.inl higher)

theorem SmtSort.rank_injective {a b : SmtSort} (same : a.rank = b.rank) : a = b := by
  revert same
  cases a <;> cases b <;> decide

theorem eq_of_constantLe {a b : Declaration} (arguments : a.arguments = b.arguments)
    (first : constantLe a b = true) (second : constantLe b a = true) : a = b := by
  rw [constantLe_iff] at first second
  rcases first with lower | ⟨same, before⟩
  · omega
  · rcases second with lower | ⟨-, after⟩
    · omega
    · have name := Text.shortlexLe_antisymm before after
      have sort := SmtSort.rank_injective same
      cases a
      cases b
      simp_all

theorem pairwise_mergeSort_constantLe (declarations : List Declaration) :
    (declarations.mergeSort constantLe).Pairwise fun a b => constantLe a b = true :=
  List.pairwise_mergeSort constantLe_trans constantLe_total declarations

theorem eq_of_perm_of_constantLe {first second : List Declaration}
    (constants : ∀ d ∈ first, d.arguments = []) (perm : first.Perm second)
    (firstOrdered : first.Pairwise fun a b => constantLe a b = true)
    (secondOrdered : second.Pairwise fun a b => constantLe a b = true) : first = second := by
  refine List.Perm.eq_of_pairwise (fun a b inFirst inSecond before after => ?_) firstOrdered
    secondOrdered perm
  have arguments := (constants a inFirst).trans (constants b (perm.mem_iff.mpr inSecond)).symm
  exact eq_of_constantLe arguments before after

theorem ordered_of_inferred {known : KnownDeclarations} {es : List Expr}
    {declarations : List Declaration} (inferred : inferFromExprs known es = .ok declarations)
    (constants : ∀ d ∈ es.flatMap Expr.uses, isConstant d = true) :
    declarations.Pairwise fun a b => constantLe a b = true := by
  unfold inferFromExprs at inferred
  split at inferred
  next => cases inferred
  next table collected =>
    cases inferred
    have members := mem_collectAll (fun e _ => collectsUses e) collected
    have none : (table.filter fun d => !known.contains d.name).filter (!isConstant ·) = [] := by
      rw [List.filter_eq_nil_iff]
      intro d member
      have used := (members d).mp (List.mem_filter.mp member).1
      simp [constants d (by simpa using used)]
    rw [none, List.mergeSort_nil, List.append_nil]
    exact pairwise_mergeSort_constantLe _

end PathEquiv
