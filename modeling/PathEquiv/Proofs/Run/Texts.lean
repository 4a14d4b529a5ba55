import PathEquiv.Proofs.Query.Document
import PathEquiv.Proofs.Run.Worlds

set_option autoImplicit false

namespace PathEquiv

universe u

/-- What terms mean as they are read from a text. The words in which a query puts the terms of a
comparison have their own meaning; all others are left open, and so is what a world is. -/
structure TermSemantics where
  Interpretation : Type u
  Assignment : Type u
  Value : Type u
  Holds : Interpretation × Assignment → Sexp → Prop
  value : Interpretation × Assignment → Sexp → Value
  holds_true : ∀ world, Holds world (.atom "true")
  holds_not : ∀ world term, Holds world (.list [.atom "not", term]) ↔ ¬Holds world term
  holds_eq : ∀ world first second,
    Holds world (.list [.atom "=", first, second]) ↔ value world first = value world second

namespace TermSemantics

def truth (inputs : Sexp → Bool) : Sexp → Bool
  | .atom "true" => true
  | .list [.atom "not", term] => !truth inputs term
  | .list [.atom "=", first, second] => truth inputs first == truth inputs second
  | other => inputs other

-- Terms over truth values alone, where every other term is an input.
instance : Inhabited TermSemantics where
  default := {
    Interpretation := Unit
    Assignment := Sexp → Bool
    Value := Bool
    Holds := fun world term => truth world.2 term = true
    value := fun world term => truth world.2 term
    holds_true := fun _ => by simp [truth]
    holds_not := fun _ _ => by simp [truth]
    holds_eq := fun _ _ _ => by simp [truth] }

variable (terms : TermSemantics.{u}) {σ : Type}

-- An expression means what its tree means.
abbrev semantics : Semantics.{u} where
  Interpretation := terms.Interpretation
  Assignment := terms.Assignment
  Value := terms.Value
  Holds world e := terms.Holds world e.tree
  value world e := terms.value world e.tree

def Satisfies (world : terms.Interpretation × terms.Assignment) (commands : List Sexp) : Prop :=
  ∀ term, .list [.atom "assert", term] ∈ commands → terms.Holds world term

/-- The host says that a text is unsatisfiable only if no world satisfies its assertions. -/
def UnsatSound (host : Host σ) : Prop :=
  ∀ query, Semantics.Says host query .unsat →
    ∀ world, ¬terms.Satisfies world (Sexp.readAll query.text)

def SatSound (host : Host σ) : Prop :=
  ∀ query, Semantics.Says host query .sat →
    ∃ world, terms.Satisfies world (Sexp.readAll query.text)

variable {terms} {world : terms.Interpretation × terms.Assignment}

theorem satisfies_append {first second : List Sexp} :
    terms.Satisfies world (first ++ second) ↔
      terms.Satisfies world first ∧ terms.Satisfies world second := by
  simp only [Satisfies, List.mem_append, or_imp, forall_and]

theorem satisfies_declarations (declarations : List Declaration) :
    terms.Satisfies world (declarations.map Declaration.tree) := by
  intro term member
  obtain ⟨d, -, same⟩ := List.mem_map.mp member
  simp [Declaration.tree] at same

theorem satisfies_helper (known : List Declaration) :
    terms.Satisfies world (if "pow" ∈ known.map Declaration.name then [] else [powTree]) := by
  intro term member
  split at member <;> simp [powTree] at member

theorem satisfies_condition {condition : Option Expr} :
    terms.Satisfies world [.atom ";", .atom "Path", .atom "Condition:",
        .list [.atom "assert", conditionTree condition]] ↔
      terms.semantics.Takes condition world := by
  have asserted : terms.Satisfies world [.atom ";", .atom "Path", .atom "Condition:",
        .list [.atom "assert", conditionTree condition]] ↔
      terms.Holds world (conditionTree condition) := by
    simp [Satisfies]
  rw [asserted]
  cases condition with
  | none => exact iff_of_true (terms.holds_true world) (by simp [Semantics.Takes])
  | some e => simp [Semantics.Takes, conditionTree]

-- Of what stands before the commands of its kind only the path condition restricts the worlds.
theorem satisfies_query (known declarations : List Declaration) {condition : Option Expr}
    {commands : List Sexp} :
    terms.Satisfies world (known.map Declaration.tree ++ declarations.map Declaration.tree ++
        (if "pow" ∈ known.map Declaration.name then [] else [powTree]) ++
        [.atom ";", .atom "Path", .atom "Condition:",
          .list [.atom "assert", conditionTree condition]] ++ commands) ↔
      terms.semantics.Takes condition world ∧ terms.Satisfies world commands := by
  simp only [satisfies_append, satisfies_condition, satisfies_declarations, satisfies_helper,
    true_and]

theorem satisfies_commands {condition : Option Expr} {old new : Expr} (kind : QueryKind) :
    terms.semantics.Takes condition world ∧
        terms.Satisfies world (kind.commands old.tree new.tree) ↔
      terms.semantics.Asserts condition (some old) (some new) kind world := by
  cases kind with
  | reachability => simp [Satisfies, QueryKind.commands, Semantics.Asserts]
  | neq =>
    simp [Satisfies, QueryKind.commands, Semantics.Asserts, Semantics.Differ, semantics,
      terms.holds_not, terms.holds_eq]
  | eq =>
    simp [Satisfies, QueryKind.commands, Semantics.Asserts, Semantics.Agree, semantics,
      terms.holds_eq]

/-- The worlds of a query that an event poses are those that satisfy what is read from its text. -/
theorem satisfies_iff_of_poses {known : List Declaration}
    (simple : ∀ d ∈ known, isSimpleSymbol d.name.toList = true) {event : Event} {query : Query}
    {satisfies : terms.semantics.World → Prop}
    (poses : terms.semantics.Poses (.ofDeclarations known) event query satisfies)
    (world : terms.semantics.World) :
    satisfies world ↔ terms.Satisfies world (Sexp.readAll query.text) := by
  cases poses with
  | comparison kind built =>
    obtain ⟨conditionValid, oldValid, newValid, declarations, inferred, rfl⟩ :=
      Synthesizer.synthesize_eq_ok.mp built
    have inferredSimple := simple_of_mem_inferred conditionValid oldValid newValid inferred
    have read := readAll_queryText known simple inferredSimple conditionValid
      (reads_print _ oldValid) (reads_print _ newValid) kind
    rw [Synthesizer.get_assemble, read, satisfies_query, satisfies_commands]
  | @depthLimit condition query built =>
    obtain ⟨conditionValid, declarations, inferred, rfl⟩ :=
      Synthesizer.reachability_eq_ok.mp built
    have inferredSimple := simple_of_inferred (checkCondition_eq_ok.mp conditionValid) inferred
    -- Without results the text is the one of a comparison of any two results.
    have unit := reads_print (.bool true) rfl
    have read := readAll_queryText known simple inferredSimple conditionValid unit unit
      .reachability
    rw [Synthesizer.queryText] at read
    rw [read, satisfies_query, satisfies_commands]
    rfl

variable {host : Host σ} {known : List Declaration}

theorem UnsatSound.events (sound : terms.UnsatSound host)
    (simple : ∀ d ∈ known, isSimpleSymbol d.name.toList = true) (events : List Event) :
    terms.semantics.UnsatSound host (.ofDeclarations known) events := by
  intro event _ query satisfies poses told world asserted
  exact sound query told world ((satisfies_iff_of_poses simple poses world).mp asserted)

theorem SatSound.events (sound : terms.SatSound host)
    (simple : ∀ d ∈ known, isSimpleSymbol d.name.toList = true) (events : List Event) :
    terms.semantics.SatSound host (.ofDeclarations known) events := by
  intro event _ query satisfies poses told
  obtain ⟨world, satisfied⟩ := sound query told
  exact ⟨world, (satisfies_iff_of_poses simple poses world).mpr satisfied⟩

end TermSemantics

end PathEquiv
