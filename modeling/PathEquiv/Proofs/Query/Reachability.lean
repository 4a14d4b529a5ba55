import PathEquiv.Proofs.Declaration.Inference
import PathEquiv.Proofs.Query.Document

set_option autoImplicit false

namespace PathEquiv

def Text.ended (text : String) : String :=
  if text = "" then "" else text ++ "\n"

theorem join_ended_nonempty (blocks : List String) :
    String.join ((blocks.filter (· ≠ "")).map Text.ended) =
      String.join (blocks.map Text.ended) := by
  induction blocks with
  | nil => rfl
  | cons block blocks ih =>
    rw [List.filter_cons, List.map_cons, String.join_cons, ← ih]
    by_cases empty : block = ""
    next => simp [empty, Text.ended]
    next => simp [empty]

theorem join_ended {blocks : List String} (given : ∀ block ∈ blocks, block ≠ "")
    (some : blocks ≠ []) :
    String.join (blocks.map Text.ended) = String.intercalate "\n" blocks ++ "\n" := by
  induction blocks with
  | nil => exact absurd rfl some
  | cons block blocks ih =>
    have first : Text.ended block = block ++ "\n" := if_neg (given block (by simp))
    by_cases last : blocks = []
    next => simp [last, first]
    next =>
      have rest := ih (fun other member => given other (by simp [member])) last
      rw [List.map_cons, String.join_cons, first, rest, String.intercalate_cons_of_ne_nil last]
      simp [String.append_assoc]

namespace Synthesizer

/-- The block of declarations: the known ones, the inferred ones and the helpers, each ended by a
newline, and one more newline after them all. -/
def declarationBlock (s : Synthesizer) (declarations : List Declaration) : String :=
  let parts := [s.known.text, String.intercalate "\n" (declarations.map Declaration.line),
    String.intercalate "\n" (s.helpers.filter s.wanted)]
  Text.ended (String.join (parts.map Text.ended))

theorem header_eq_declarationBlock (s : Synthesizer) (declarations : List Declaration) :
    s.header declarations = s.declarationBlock declarations := by
  unfold header declarationBlock
  dsimp only
  rw [← join_ended_nonempty]
  split
  next none =>
    rw [none]
    rfl
  next some =>
    rw [join_ended (fun block member => by simpa using List.of_mem_filter member) some]
    simp [Text.ended, String.append_assoc]

def assertedCondition (condition : Option Expr) : String :=
  "; Path Condition:\n(assert " ++ printCondition condition ++ ")\n\n"

theorem preamble_eq (s : Synthesizer) (declarations : List Declaration)
    (condition : Option Expr) :
    s.preamble declarations (printCondition condition) =
      s.declarationBlock declarations ++ assertedCondition condition := by
  rw [← header_eq_declarationBlock]
  unfold preamble assertedCondition
  simp only [String.append_assoc]

theorem reachabilityText_eq (s : Synthesizer) (declarations : List Declaration)
    (condition : Option Expr) :
    s.reachabilityText declarations (printCondition condition) =
      s.declarationBlock declarations ++ (assertedCondition condition ++ "(check-sat)\n") := by
  unfold reachabilityText
  rw [preamble_eq, String.append_assoc]

theorem queryText_preamble (s : Synthesizer) (declarations : List Declaration)
    (condition : Option Expr) (old new : String) (kind : QueryKind) :
    ∃ rest, s.queryText declarations (printCondition condition) old new kind =
      s.declarationBlock declarations ++ assertedCondition condition ++ rest := by
  rw [← preamble_eq]
  cases kind with
  | reachability => exact ⟨"(check-sat)\n", rfl⟩
  | neq =>
    refine ⟨"; Equivalence Check:\n(assert (not (= " ++ old ++ " " ++ new ++
      ")))\n\n(check-sat)\n(get-model)\n", ?_⟩
    simp only [queryText, String.append_assoc]
  | eq =>
    refine ⟨"; Equivalence Check:\n(assert (= " ++ old ++ " " ++ new ++
      "))\n\n(check-sat)\n", ?_⟩
    simp only [queryText, String.append_assoc]

/-- Where the queries of a comparison can be built, so can the reachability query alone. It declares
the unknown symbols of the path condition, in the order of the comparison, and after the
declarations both texts are the same. The other queries of the comparison share all of its text
before `(check-sat)`. -/
theorem reachability_alone_agrees (s : Synthesizer) (condition : Option Expr) (old new : Expr)
    (queries : QuerySet) (built : s.synthesize condition old new = .ok queries) :
    let remainder := assertedCondition condition ++ "(check-sat)\n"
    ∃ query, s.reachability condition = .ok query ∧
      query.declarations.Sublist queries.reachability.declarations ∧
      (∀ d, d ∈ query.declarations ↔
        d ∈ condition.toList.flatMap Expr.uses ∧ s.known.contains d.name = false) ∧
      query.text = s.declarationBlock query.declarations ++ remainder ∧
      queries.reachability.text =
        s.declarationBlock queries.reachability.declarations ++ remainder ∧
      ∀ kind, ∃ rest, (queries.get kind).text =
        s.declarationBlock queries.reachability.declarations ++ assertedCondition condition ++
          rest := by
  intro remainder
  obtain ⟨checked, oldValid, newValid, declarations, inferred, rfl⟩ := synthesize_eq_ok.mp built
  have part : ∀ d, d ∈ condition.toList.flatMap Expr.uses →
      d ∈ (condition.toList ++ [old, new]).flatMap Expr.uses := by
    intro d used
    rw [List.flatMap_append]
    exact List.mem_append_left _ used
  obtain ⟨own, inferred', sublist⟩ := inferred_sublist part inferred
  refine ⟨_, reachability_eq_ok.mpr ⟨checked, own, inferred', rfl⟩, sublist,
    mem_inferFromExprs inferred', reachabilityText_eq s own condition,
    reachabilityText_eq s declarations condition, fun kind => ?_⟩
  rw [get_assemble]
  exact queryText_preamble s declarations condition old.print new.print kind

theorem reachability_alone_agrees_gap :
    let s : Synthesizer := { known := .parse "(declare-const b Bool)", helpers := [] }
    let real := Expr.realVar "REAL_1"
    let condition := Expr.and [.var "b" .boolean, (Expr.call "g" .real [real]).gt real]
    let old := Expr.intVar "INT10"
    let new := Expr.call "f" .integer [.intVar "INT9"]
    ∃ queries, s.synthesize (some condition) old new = .ok queries ∧
      queries.reachability.declarations.map Declaration.name =
        ["INT9", "INT10", "REAL_1", "UF_f", "UF_g"] ∧
      ∃ query, s.reachability (some condition) = .ok query ∧
        query.declarations.Sublist queries.reachability.declarations ∧
        (∀ d, d ∈ query.declarations ↔ d ∈ [⟨"UF_g", [.real], .real⟩, ⟨"REAL_1", [], .real⟩]) ∧
        query.text = s.declarationBlock query.declarations ++
          "; Path Condition:\n(assert (and b (> (UF_g REAL_1) REAL_1)))\n\n(check-sat)\n" := by
  intro s real condition old new
  have symbols : s.known.symbols = ["b"] := by decide +kernel
  have collected : Expr.collectAll [] [condition, old, new] =
      .ok [⟨"INT9", [], .integer⟩, ⟨"UF_f", [.integer], .integer⟩, ⟨"INT10", [], .integer⟩,
        ⟨"REAL_1", [], .real⟩, ⟨"UF_g", [.real], .real⟩, ⟨"b", [], .boolean⟩] := by
    decide +kernel
  have inferred : inferFromExprs s.known [condition, old, new] =
      .ok [⟨"INT9", [], .integer⟩, ⟨"INT10", [], .integer⟩, ⟨"REAL_1", [], .real⟩,
        ⟨"UF_f", [.integer], .integer⟩, ⟨"UF_g", [.real], .real⟩] := by
    rw [inferFromExprs, collected]
    simp only [KnownDeclarations.contains, symbols]
    rw [List.mergeSort_of_pairwise (by decide +kernel),
      List.mergeSort_of_pairwise (by decide +kernel)]
    decide +kernel
  have built : s.synthesize (some condition) old new = .ok (s.assemble _ _ old.print new.print) :=
    synthesize_eq_ok.mpr ⟨rfl, rfl, rfl, _, inferred, rfl⟩
  obtain ⟨query, alone, sublist, members, text, -⟩ :=
    reachability_alone_agrees s (some condition) old new _ built
  have remainder : assertedCondition (some condition) ++ "(check-sat)\n" =
      "; Path Condition:\n(assert (and b (> (UF_g REAL_1) REAL_1)))\n\n(check-sat)\n" := by
    decide +kernel
  refine ⟨_, built, rfl, query, alone, sublist, fun d => (members d).trans ?_, ?_⟩
  next =>
    have free : ((some condition).toList.flatMap Expr.uses).filter
        (fun d => !s.known.contains d.name) =
        [⟨"UF_g", [.real], .real⟩, ⟨"REAL_1", [], .real⟩, ⟨"REAL_1", [], .real⟩] := by
      decide +kernel
    have kept := congrArg (d ∈ ·) free
    simpa using kept
  next => rw [text, remainder]

end Synthesizer

end PathEquiv
