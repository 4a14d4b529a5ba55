import PathEquiv.Proofs.Declaration.Introduced
import PathEquiv.Proofs.Query.Document

set_option autoImplicit false

namespace PathEquiv

theorem introducedIn_joined (blocks : List String) (others : ∀ block ∈ blocks.tail, Opens block) :
    introducedIn ((String.intercalate "\n" blocks).toList ++ ['\n', '\n']) =
      blocks.flatMap fun block => introducedIn block.toList := by
  induction blocks with
  | nil => decide
  | cons first blocks ih =>
    cases blocks with
    | nil =>
      have blank : ['\n', '\n'].all Text.isBlank = true := by decide
      simpa using introducedIn_append_blank (List.all_eq_true.mp blank) first.toList
    | cons second blocks =>
      obtain ⟨cs, opening⟩ := others second (by simp)
      have rest := ih fun block member => others block (by simp [List.mem_of_mem_tail member])
      -- The next block opens a list, so the last command of the first one ends before it.
      obtain ⟨more, start⟩ : ∃ more,
          (String.intercalate "\n" (second :: blocks)).toList ++ ['\n', '\n'] = '(' :: more := by
        cases blocks <;> exact ⟨_, by simp [opening]; rfl⟩
      have text : (String.intercalate "\n" (first :: second :: blocks)).toList ++ ['\n', '\n'] =
          first.toList ++ '\n' :: '(' :: more := by
        simp [← start]
      have skipped : introducedIn ('\n' :: '(' :: more) = introducedIn ('(' :: more) :=
        introducedIn_skip ['\n'] _ (by decide)
      rw [text, introducedIn_append (separates_list more), skipped, ← start, rest]
      rfl

theorem introducedIn_nonempty (blocks : List String) :
    (blocks.filter (· ≠ "")).flatMap (fun block => introducedIn block.toList) =
      blocks.flatMap fun block => introducedIn block.toList := by
  induction blocks with
  | nil => rfl
  | cons block blocks ih => by_cases empty : block = "" <;> simp_all [introducedIn]

theorem introducedIn_header (s : Synthesizer) (declarations : List Declaration)
    (helpers : String.intercalate "\n" (s.helpers.filter s.wanted) = "" ∨
      Opens (String.intercalate "\n" (s.helpers.filter s.wanted))) :
    introducedIn (s.header declarations).toList =
      introducedIn s.known.text.toList ++
        (introducedIn (Declaration.block declarations).toList ++
          introducedIn (String.intercalate "\n" (s.helpers.filter s.wanted)).toList) := by
  let rest := [Declaration.block declarations,
    String.intercalate "\n" (s.helpers.filter s.wanted)]
  have opening : ∀ block ∈ rest.filter (· ≠ ""), Opens block := by
    intro block member
    rw [List.mem_filter] at member
    obtain ⟨listed, nonempty⟩ := member
    simp only [rest, List.mem_cons, List.not_mem_nil, or_false] at listed
    have nonempty : block ≠ "" := by simpa using nonempty
    rcases listed with rfl | rfl
    · exact (opens_block declarations).resolve_left nonempty
    · exact helpers.resolve_left nonempty
  have tail : ∀ block ∈ ((s.known.text :: rest).filter (· ≠ "")).tail, Opens block := by
    intro block member
    apply opening
    rw [List.filter_cons] at member
    split at member
    next => exact member
    next => exact List.mem_of_mem_tail member
  have joined := introducedIn_joined _ tail
  rw [introducedIn_nonempty] at joined
  have parts : (s.known.text :: rest).flatMap (fun block => introducedIn block.toList) =
      introducedIn s.known.text.toList ++
        (introducedIn (Declaration.block declarations).toList ++
          introducedIn (String.intercalate "\n" (s.helpers.filter s.wanted)).toList) := by
    simp [rest]
  rw [parts] at joined
  rw [← joined]
  unfold Synthesizer.header
  dsimp only
  split
  next none =>
    have empty : (s.known.text :: rest).filter (· ≠ "") = [] := none
    rw [empty]
    decide
  next =>
    rw [String.toList_append]
    rfl

theorem introducedIn_helpers (known : KnownDeclarations) :
    let s : Synthesizer := { known }
    let block := String.intercalate "\n" (s.helpers.filter s.wanted)
    (block = "" ∨ Opens block) ∧
      introducedIn block.toList = if known.contains "pow" then [] else ["pow".toList] := by
  intro s block
  have found : introducedIn powTree.render.toList = ["pow".toList] := by decide +kernel
  have filtered : block = String.intercalate "\n"
      (if known.contains "pow" then [] else [powTree.render]) := by
    rw [← filter_helpers]
  rw [filtered]
  split
  next => exact ⟨.inl rfl, rfl⟩
  next =>
    rw [String.intercalate_singleton]
    exact ⟨.inr ⟨_, by rw [render_powTree]; rfl⟩, found⟩

theorem introducedSymbols_header (text : String) (declarations : List Declaration)
    (simple : ∀ d ∈ declarations, isSimpleSymbol d.name.toList = true) :
    let s : Synthesizer := { known := .parse text }
    introducedSymbols (s.header declarations) =
      introducedSymbols text ++ (declarations.map Declaration.name ++
        if s.known.contains "pow" then [] else ["pow"]) := by
  intro s
  obtain ⟨opening, helper⟩ := introducedIn_helpers s.known
  have head := introducedIn_header s declarations opening
  rw [helper] at head
  rw [← introducedSymbols_parse text, ← introducedSymbols_block declarations simple]
  simp only [introducedSymbols, head, List.map_append]
  split <;> rfl

namespace Synthesizer

/-- The head of a query introduces the symbol: it is known, or declared, or that of a helper. -/
def Introduces (s : Synthesizer) (declarations : List Declaration) (name : String) : Prop :=
  s.known.contains name = true ∨ name ∈ declarations.map Declaration.name ∨
    ∃ helper ∈ s.helpers, s.wanted helper = true ∧ introducedSymbol? helper = some name

theorem mem_introducedSymbols_header {text : String} {declarations : List Declaration}
    (simple : ∀ d ∈ declarations, isSimpleSymbol d.name.toList = true) {name : String}
    (introduces : ({ known := .parse text } : Synthesizer).Introduces declarations name) :
    name ∈ introducedSymbols
      (({ known := .parse text } : Synthesizer).header declarations) := by
  rw [introducedSymbols_header text declarations simple, List.mem_append, List.mem_append]
  rcases introduces with known | declared | ⟨helper, listed, wanted, symbol⟩
  · exact .inl ((contains_parse text name).mp known)
  · exact .inr (.inl declared)
  · have kept := List.mem_filter.mpr ⟨listed, wanted⟩
    rw [filter_helpers] at kept
    split at kept
    next => cases kept
    next unknown =>
      cases List.mem_singleton.mp kept
      cases symbol.symm.trans introducedSymbol_pow
      exact .inr (.inr (by simp [unknown]))

end Synthesizer

end PathEquiv
