import PathEquiv.Proofs.Expr.Structure
import PathEquiv.Proofs.Run.Worlds

set_option autoImplicit false

namespace PathEquiv

def digitsValue (digits : List Char) : Int :=
  digits.foldl (fun value digit => 10 * value + (digit.toNat - '0'.toNat : Nat)) 0

def SmtSort.literalValue : SmtSort → String → Int
  | .boolean, text => if text = "true" then 1 else 0
  | .integer, text =>
      match text.toList with
      | '-' :: digits => -digitsValue digits
      | digits => digitsValue digits
  | _, _ => 0

def truthValue (b : Bool) : Int :=
  if b then 1 else 0

def Opcode.apply : Opcode → List Int → Int
  | .add, values => values.foldl (· + ·) 0
  | .sub, first :: rest => rest.foldl (· - ·) first
  | .mul, values => values.foldl (· * ·) 1
  | .intDiv, [a, b] => a / b
  | .mod, [a, b] => a % b
  | .neg, [a] => -a
  | .eq, [a, b] => truthValue (a == b)
  | .distinct, values => truthValue values.Nodup
  | .lt, [a, b] => truthValue (a < b)
  | .le, [a, b] => truthValue (a ≤ b)
  | .gt, [a, b] => truthValue (b < a)
  | .ge, [a, b] => truthValue (b ≤ a)
  | .and, values => truthValue (values.all (· != 0))
  | .or, values => truthValue (values.any (· != 0))
  | .not, [a] => truthValue (a == 0)
  | .implies, [a, b] => truthValue (a == 0 || b != 0)
  | .ite, [condition, a, b] => if condition = 0 then b else a
  | _, _ => 0

namespace Expr

mutual

def evaluate (functions : String → List Int → Int) (inputs : String → Int) : Expr → Int
  | .literal value sort => sort.literalValue value
  | .var name _ => inputs name
  | .op opcode operands => opcode.apply (evaluateAll functions inputs operands)
  | .call function _ operands => functions function (evaluateAll functions inputs operands)

def evaluateAll (functions : String → List Int → Int) (inputs : String → Int) :
    List Expr → List Int
  | [] => []
  | e :: es => evaluate functions inputs e :: evaluateAll functions inputs es

end

theorem evaluateAll_eq (functions : String → List Int → Int) (inputs : String → Int)
    (es : List Expr) :
    evaluateAll functions inputs es = es.map (evaluate functions inputs) := by
  induction es with
  | nil => rfl
  | cons e es ih => simp [evaluateAll, ih]

theorem evaluate_of_callFree (first second : String → List Int → Int) (inputs : String → Int)
    (e : Expr) (callFree : e.hasCall = false) :
    e.evaluate first inputs = e.evaluate second inputs := by
  induction e using operandInduction with
  | literal => simp only [evaluate]
  | var => simp only [evaluate]
  | op opcode operands ih =>
    rw [hasCall, anyHasCall_eq, List.any_eq_false] at callFree
    simp only [evaluate, evaluateAll_eq]
    congr 1
    apply List.map_congr_left
    intro e member
    exact ih e member (by simpa using callFree e member)
  | call => cases callFree

end Expr

def integers : Semantics where
  Interpretation := String → List Int → Int
  Assignment := String → Int
  Value := Int
  Holds := fun world e => e.evaluate world.1 world.2 ≠ 0
  value := fun world e => e.evaluate world.1 world.2

theorem integers_callFree : integers.CallFree := by
  intro e callFree first second assignment
  have same := Expr.evaluate_of_callFree first second assignment e callFree
  exact ⟨by simp only [integers, same], same⟩

def scripted (status : Query → SolverStatus) : Host Unit where
  write := fun _ _ outside => (.ok (), outside)
  solve := fun query _ outside =>
    (.ok ⟨status query, none, "", {}⟩, outside)

theorem status_of_told {status : Query → SolverStatus} {query : Query} {said : SolverStatus}
    (told : Semantics.Says (scripted status) query said) : status query = said := by
  obtain ⟨answer, ⟨path, outside, replied⟩, rfl⟩ := told
  cases replied
  rfl

theorem unsatSound_comparison (status : QueryKind → SolverStatus) {s : Synthesizer} {site : Site}
    (right : ∀ kind, status kind = .unsat →
      ∀ world, ¬integers.Asserts site.condition (some site.old) (some site.new) kind world) :
    integers.UnsatSound (scripted fun query => status query.kind) s [.comparison site] := by
  intro event member query satisfies poses told
  have said := status_of_told told
  rw [List.mem_singleton] at member
  subst member
  cases poses with
  | comparison kind built =>
    rw [Synthesizer.kind_synthesize built kind] at said
    exact right kind said

theorem satSound_comparison (status : QueryKind → SolverStatus) {s : Synthesizer} {site : Site}
    (right : ∀ kind, status kind = .sat →
      ∃ world, integers.Asserts site.condition (some site.old) (some site.new) kind world) :
    integers.SatSound (scripted fun query => status query.kind) s [.comparison site] := by
  intro event member query satisfies poses told
  have said := status_of_told told
  rw [List.mem_singleton] at member
  subst member
  cases poses with
  | comparison kind built =>
    rw [Synthesizer.kind_synthesize built kind] at said
    exact right kind said

end PathEquiv
