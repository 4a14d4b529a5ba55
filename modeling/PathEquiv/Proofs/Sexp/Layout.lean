import PathEquiv.Proofs.Sexp.Reading

set_option autoImplicit false

namespace PathEquiv.Sexp

def isGap (cs : List Char) : Bool :=
  cs.all Text.isBlank

def isAtom : Sexp → Bool
  | .atom _ => true
  | .list _ => false

mutual

inductive Spells : Sexp → List Char → Prop
  | atom {text : String} (token : readable (.atom text) = true) : Spells (.atom text) text.toList
  | list {items : List Sexp} {cs : List Char} (gap : List Char) (blank : isGap gap = true)
      (inside : SpellsAll items cs) : Spells (.list items) ('(' :: (gap ++ cs) ++ [')'])

inductive SpellsAll : List Sexp → List Char → Prop
  | nil : SpellsAll [] []
  | cons {item : Sexp} {items : List Sexp} {cs rest : List Char} (first : Spells item cs)
      (gap : List Char) (blank : isGap gap = true)
      (apart : item.isAtom = true → items.head?.any isAtom = true → gap ≠ [])
      (others : SpellsAll items rest) : SpellsAll (item :: items) (cs ++ gap ++ rest)

end

-- Here white space may also stand before the first expression.
def IsText (items : List Sexp) (cs : List Char) : Prop :=
  ∃ gap rest, isGap gap = true ∧ SpellsAll items rest ∧ cs = gap ++ rest

theorem Passes.gap {gap : List Char} (blank : isGap gap = true) : Passes gap [] := by
  induction gap with
  | nil => exact Passes.nil
  | cons c gap ih =>
    simp only [isGap, List.all_cons, Bool.and_eq_true] at blank
    exact (Passes.blank c blank.1).append (ih blank.2)

theorem Passes.append_gap {cs gap : List Char} {found : List Sexp} (passes : Passes cs found)
    (blank : isGap gap = true) : Passes (cs ++ gap) found := by
  simpa using passes.append (Passes.gap blank)

theorem Reads.append_gap {cs gap : List Char} {found : List Sexp} (reads : Reads cs found)
    (blank : isGap gap = true) (nonempty : gap ≠ []) : Passes (cs ++ gap) found := by
  cases gap with
  | nil => exact absurd rfl nonempty
  | cons c gap =>
    simp only [isGap, List.all_cons, Bool.and_eq_true] at blank
    simpa using (reads.blank c blank.1).append_gap blank.2

-- Both statements go on from a text read before. An atom needs it to be ended; a list does not,
-- and the list itself is ended by its parenthesis.
mutual

theorem reads_spelled : (tree : Sexp) → {cs before : List Char} → {found : List Sexp} →
    Spells tree cs → Reads before found → (tree.isAtom = true → Passes before found) →
    Reads (before ++ cs) (found ++ [tree]) ∧
      (tree.isAtom = false → Passes (before ++ cs) (found ++ [tree]))
  | .atom text, _, _, _, spelled, _, ended => by
    cases spelled with
    | atom token =>
      simp only [readable, Bool.and_eq_true, decide_eq_true_eq] at token
      refine ⟨(ended rfl).append_reads (Reads.atom text token.1 token.2), ?_⟩
      intro list
      cases list
  | .list items, _, _, _, spelled, reads, _ => by
    cases spelled with
    | list gap blank inside =>
      have opened := Passes.gap blank
      have passes := reads.append_list
        (reads_spelledAll items inside opened.reads fun _ => opened)
      exact ⟨passes.reads, fun _ => passes⟩

theorem reads_spelledAll : (items : List Sexp) → {cs before : List Char} → {found : List Sexp} →
    SpellsAll items cs → Reads before found →
    (items.head?.any isAtom = true → Passes before found) →
    Reads (before ++ cs) (found ++ items)
  | [], _, _, _, spelled, reads, _ => by
    cases spelled
    simpa using reads
  | item :: items, _, before, found, spelled, reads, ended => by
    cases spelled with
    | @cons _ _ own rest first gap blank apart others =>
      obtain ⟨ownReads, ownPasses⟩ := reads_spelled item first reads ended
      have gapReads : Reads (before ++ own ++ gap) (found ++ [item]) := by
        by_cases empty : gap = []
        next => simpa [empty] using ownReads
        next => exact (ownReads.append_gap blank empty).reads
      have gapPasses : items.head?.any isAtom = true →
          Passes (before ++ own ++ gap) (found ++ [item]) := by
        intro next
        cases atom : item.isAtom with
        | true => exact ownReads.append_gap blank (apart atom next)
        | false => exact (ownPasses atom).append_gap blank
      simpa using reads_spelledAll items others gapReads gapPasses

end

theorem IsText.reads {items : List Sexp} {cs : List Char} (text : IsText items cs) :
    Reads cs items := by
  obtain ⟨gap, rest, blank, spelled, rfl⟩ := text
  have opened := Passes.gap blank
  exact reads_spelledAll items spelled opened.reads fun _ => opened

end PathEquiv.Sexp
