import PathEquiv.Proofs.Partition.Decision
import PathEquiv.Proofs.Run.Records

set_option autoImplicit false

/-!
# Worlds

Conditions and results mean something in a world: an interpretation of the functions without
definition together with an assignment to the variables. A solver is sound if what it says of a
query is true of the worlds that satisfy the assertions of the query.
-/

namespace PathEquiv

universe u

structure Semantics where
  Interpretation : Type u
  Assignment : Type u
  Value : Type u
  Holds : Interpretation × Assignment → Expr → Prop
  value : Interpretation × Assignment → Expr → Value

namespace Semantics

variable (sem : Semantics.{u}) {σ : Type}

abbrev World : Type u := sem.Interpretation × sem.Assignment

-- A path without a condition is taken everywhere.
def Takes (condition : Option Expr) (world : sem.World) : Prop :=
  ∀ e ∈ condition, sem.Holds world e

def Agree (old new : Option Expr) (world : sem.World) : Prop :=
  ∃ a ∈ old, ∃ b ∈ new, sem.value world a = sem.value world b

def Differ (old new : Option Expr) (world : sem.World) : Prop :=
  ∃ a ∈ old, ∃ b ∈ new, sem.value world a ≠ sem.value world b

def Asserts (condition old new : Option Expr) : QueryKind → sem.World → Prop
  | .reachability, world => sem.Takes condition world
  | .neq, world => sem.Takes condition world ∧ sem.Differ old new world
  | .eq, world => sem.Takes condition world ∧ sem.Agree old new world

inductive Poses (s : Synthesizer) : Event → Query → (sem.World → Prop) → Prop where
  | comparison {site : Site} {queries : QuerySet} (kind : QueryKind)
      (built : s.synthesize site.condition site.old site.new = .ok queries) :
      Poses s (.comparison site) (queries.get kind)
        (sem.Asserts site.condition (some site.old) (some site.new) kind)
  | depthLimit {condition : Option Expr} {query : Query}
      (built : s.reachability condition = .ok query) :
      Poses s (.depthLimit condition) query (sem.Asserts condition none none .reachability)

def Says (host : Host σ) (query : Query) (status : SolverStatus) : Prop :=
  ∃ answer, Run.Replies host query (.ok answer) ∧ answer.status = status

/-- The host says that a query of the events is unsatisfiable only if no world satisfies it. -/
def UnsatSound (host : Host σ) (s : Synthesizer) (events : List Event) : Prop :=
  ∀ event ∈ events, ∀ query satisfies, sem.Poses s event query satisfies →
    Says host query .unsat → ∀ world, ¬satisfies world

def SatSound (host : Host σ) (s : Synthesizer) (events : List Event) : Prop :=
  ∀ event ∈ events, ∀ query satisfies, sem.Poses s event query satisfies →
    Says host query .sat → ∃ world, satisfies world

def CallFree : Prop :=
  ∀ e : Expr, e.hasCall = false → ∀ first second assignment,
    (sem.Holds (first, assignment) e ↔ sem.Holds (second, assignment) e) ∧
      sem.value (first, assignment) e = sem.value (second, assignment) e

variable {sem}

theorem CallFree.takes (free : sem.CallFree) {condition : Option Expr}
    (callFree : condition.any Expr.hasCall = false) {first : sem.Interpretation}
    {assignment : sem.Assignment} (taken : sem.Takes condition (first, assignment))
    (second : sem.Interpretation) : sem.Takes condition (second, assignment) := by
  intro e member
  cases member
  exact (free e callFree first second assignment).1.mp (taken e rfl)

theorem CallFree.differ (free : sem.CallFree) {old new : Option Expr}
    (oldFree : old.any Expr.hasCall = false) (newFree : new.any Expr.hasCall = false)
    {first : sem.Interpretation} {assignment : sem.Assignment}
    (differ : sem.Differ old new (first, assignment)) (second : sem.Interpretation) :
    sem.Differ old new (second, assignment) := by
  obtain ⟨a, isOld, b, isNew, other⟩ := differ
  cases isOld
  cases isNew
  rw [(free a oldFree first second assignment).2, (free b newFree first second assignment).2]
    at other
  exact ⟨a, rfl, b, rfl, other⟩

end Semantics

namespace Run.Recorded

open Semantics

variable {sem : Semantics.{u}} {σ : Type} {host : Host σ} {setup : Setup} {event : Event}
  {record : Record}

theorem told (recorded : Recorded host setup event record) {kind : QueryKind}
    {status : SolverStatus}
    (given : (record.answers.get? kind).map Answer.status = some status)
    (proper : status ≠ .error) :
    ∃ query, sem.Poses setup.synthesizer event query
      (sem.Asserts record.condition record.old record.new kind) ∧ Says host query status := by
  obtain ⟨answer, answers, rfl⟩ := Option.map_eq_some_iff.mp given
  -- A reply that failed counts as an error, so the status comes from a proper one.
  have proper_reply {query : Query} {reply : Except SolverError Answer}
      (replied : Replies host query reply) (counts : answerOf reply = answer) :
      Says host query answer.status := by
    cases reply with
    | ok own => exact ⟨own, replied, congrArg Answer.status counts⟩
    | error cause => exact absurd (congrArg Answer.status counts).symm proper
  cases recorded with
  | @comparison site queries id progress classification posed asked =>
    rcases asked.replied answers with before | ⟨query, member, same, reply, replied, counts⟩
    · cases kind <;> cases before
    · have chosen : query = queries.get kind := by
        have kinds := Synthesizer.kind_synthesize posed
        obtain ⟨own, rfl⟩ := mem_comparisonQueries member
        rw [← same, kinds]
      subst chosen
      exact ⟨_, .comparison kind posed, proper_reply replied counts⟩
  | @depthLimit condition query id progress classification posed asked =>
    rcases asked.replied answers with before | ⟨other, member, same, reply, replied, counts⟩
    · cases kind <;> cases before
    · have chosen : other = query := by
        split at member
        next => exact List.mem_singleton.mp member
        next => cases member
      subst chosen
      rw [Synthesizer.kind_reachability posed] at same
      subst same
      exact ⟨_, .depthLimit posed, proper_reply replied counts⟩

theorem unsat (recorded : Recorded host setup event record) {events : List Event}
    (sound : sem.UnsatSound host setup.synthesizer events) (member : event ∈ events)
    (kind : QueryKind) (given : (record.answers.get? kind).map Answer.status = some .unsat)
    (world : sem.World) : ¬sem.Asserts record.condition record.old record.new kind world := by
  obtain ⟨query, poses, told⟩ := recorded.told given (by decide)
  exact sound event member query _ poses told world

theorem sat (recorded : Recorded host setup event record) {events : List Event}
    (sound : sem.SatSound host setup.synthesizer events) (member : event ∈ events)
    (kind : QueryKind) (given : (record.answers.get? kind).map Answer.status = some .sat) :
    ∃ world, sem.Asserts record.condition record.old record.new kind world := by
  obtain ⟨query, poses, told⟩ := recorded.told given (by decide)
  exact sound event member query _ poses told

end Run.Recorded

end PathEquiv
