import Mathlib.Data.List.DropRight
import PathEquiv.Proofs.Text.Search
import PathEquiv.Solver.Process

set_option autoImplicit false

namespace PathEquiv

namespace Text

theorem trimStart_trim (cs : List Char) : trimStart (trim cs) = trim cs := by
  cases trimmed : trim cs with
  | nil => rfl
  | cons c rest =>
    obtain ⟨more, whole⟩ : trim cs <+: cs.dropWhile isBlank :=
      List.rdropWhile_prefix isBlank (cs.dropWhile isBlank)
    have stopped := List.head?_dropWhile_not isBlank cs
    rw [← whole, trimmed] at stopped
    have solid : isBlank c = false := by simpa using stopped
    rw [trimStart, List.dropWhile_cons, solid, if_neg Bool.false_ne_true]

theorem trim_trim (cs : List Char) : trim (trim cs) = trim cs := by
  have ended : trimEnd (trim cs) = trim cs := List.rdropWhile_idempotent isBlank (trimStart cs)
  rw [trim, trimStart_trim, ended]

theorem trim_append_blank (cs : List Char) {c : Char} (blank : isBlank c = true) :
    trim (cs ++ [c]) = trim cs := by
  unfold trim trimStart
  rw [List.dropWhile_append]
  split
  next empty =>
    rw [List.isEmpty_iff.mp empty, List.dropWhile_cons, blank]
    rfl
  next => exact List.rdropWhile_concat_pos isBlank (cs.dropWhile isBlank) c blank

theorem takeWhile_inside {c : Char} (other : c ≠ '\n') (rest : List Char) :
    (c :: rest).takeWhile (· ≠ '\n') = c :: rest.takeWhile (· ≠ '\n') :=
  List.takeWhile_cons_of_pos (decide_eq_true other)

theorem takeWhile_line (cs : List Char) :
    cs.takeWhile (· ≠ '\n') = (lines cs).headD [] ∨
      cs.takeWhile (· ≠ '\n') = (lines cs).headD [] ++ ['\r'] := by
  fun_induction lines cs with
  | case1 => exact .inl rfl
  | case2 => exact .inr rfl
  | case3 => exact .inl rfl
  | case4 c rest paired other ended ih =>
    rw [takeWhile_inside other]
    simpa [ended] using ih
  | case5 c rest paired other line others found ih =>
    rw [takeWhile_inside other]
    simpa [found] using ih

theorem trim_line (cs : List Char) :
    trim ((lines cs).headD []) = trim (cs.takeWhile (· ≠ '\n')) := by
  rcases takeWhile_line cs with whole | returned
  · rw [whole]
  · rw [returned, trim_append_blank _ (by decide)]

end Text

namespace SolverStatus

theorem ofChars_eq_unsat_iff {line : List Char} :
    ofChars line = .unsat ↔ Text.trim line = "unsat".toList := by
  unfold ofChars
  by_cases refuted : Text.trim line = "unsat".toList
  next =>
    rw [refuted]
    decide
  next =>
    simp only [refuted, if_false, iff_false]
    split
    next => decide
    next => split <;> decide

theorem ofChars_eq_error_iff {line : List Char} :
    ofChars line = .error ↔ "(error".toList <+: Text.trim line := by
  rw [← Text.startsWith_iff]
  unfold ofChars
  dsimp only
  cases Text.startsWith "(error".toList (Text.trim line) with
  | true => exact iff_of_true rfl rfl
  | false =>
    simp only [Bool.false_eq_true, if_false, iff_false]
    split
    next => decide
    next => split <;> decide

end SolverStatus

theorem Answer.status_ofOutput (stdout stderr : String) (statistics : Statistics) :
    (ofOutput stdout stderr statistics).status =
      .ofChars (Text.trim (stdout.toList.takeWhile (· ≠ '\n'))) := by
  rw [ofOutput, Text.trim_line]

def Finished.firstLine (finished : Finished) : List Char :=
  Text.trim ((Text.decodeBytes finished.output).toList.takeWhile (· ≠ '\n'))

theorem Finished.trim_firstLine (finished : Finished) :
    Text.trim finished.firstLine = finished.firstLine :=
  Text.trim_trim _

theorem SolverConfig.status_answerOf (config : SolverConfig) (finished : Finished)
    {status : SolverStatus} (known : status ≠ .unknown) :
    (config.answerOf finished).status = status ↔
      finished.ending ≠ none ∧ .ofChars finished.firstLine = status := by
  unfold answerOf Finished.firstLine
  cases finished.ending with
  | none => exact iff_of_false (Ne.symm known) fun ended => ended.1 rfl
  | some ending =>
    cases ending with
    | exited code => simp [Answer.status_ofOutput]
    | signalled number => simp [Answer.status_ofOutput]

abbrev Attempt := Except SolverError Finished

namespace Attempt

/-- The solver came to its end by itself and said that the query has no solution. -/
def Refutes : Attempt → Prop
  | .error _ => False
  | .ok finished => finished.ending ≠ none ∧ finished.firstLine = "unsat".toList

/-- The solver could not be run, or it came to its end and said that it had failed. -/
def Fails : Attempt → Prop
  | .error _ => True
  | .ok finished => finished.ending ≠ none ∧ "(error".toList <+: finished.firstLine

end Attempt

namespace SolverConfig

def attempt (config : SolverConfig) (path : String) (w : Workspace) : Attempt :=
  (w.run config.program (config.arguments path) config.deadlineMs).mapError
    (.launch config.program)

theorem solve_eq (config : SolverConfig) (path : String) (w : Workspace) :
    (config.solve path w).1 = (config.attempt path w).map config.answerOf := by
  unfold solve attempt
  cases w.run config.program (config.arguments path) config.deadlineMs <;> rfl

end SolverConfig

end PathEquiv
