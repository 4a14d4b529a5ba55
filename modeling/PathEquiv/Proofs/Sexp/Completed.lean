import PathEquiv.Proofs.Sexp.Layout

set_option autoImplicit false

namespace PathEquiv.Sexp

def lists (items : List Sexp) : List Sexp :=
  items.filter (!·.isAtom)

namespace Reader

def bottom (r : Reader) : List Sexp :=
  r.outer.getLast?.getD r.items

def completed (r : Reader) : List Sexp :=
  lists r.bottom

theorem completed_flush (r : Reader) : r.flush.completed = r.completed := by
  unfold flush
  split
  next => rfl
  next =>
    unfold completed bottom
    cases r.outer.getLast? with
    | some frame => rfl
    | none => simp [lists, isAtom]

theorem completed_openList (r : Reader) : r.openList.completed = r.completed := by
  simp [completed, bottom, openList, List.getLast?_cons]

theorem completed_closeList (r : Reader) : r.completed <:+ r.closeList.completed := by
  unfold closeList
  split
  next => exact List.suffix_refl _
  next before outer shape =>
    unfold completed bottom
    cases outer with
    | nil =>
      rw [shape]
      exact (List.suffix_cons _ before).filter _
    | cons frame frames => simp [shape, List.getLast?_cons]

theorem completed_step (r : Reader) (c : Char) : r.completed <:+ (r.step c).completed := by
  have steps := r.steps c
  generalize r.step c = next at steps
  cases steps with
  | grows => exact List.suffix_refl _
  | opens =>
    simp only [completed_openList, completed_flush]
    exact List.suffix_refl _
  | closes =>
    have closed := r.flush.completed_closeList
    rwa [completed_flush] at closed
  | ends =>
    simp only [completed_flush]
    exact List.suffix_refl _

theorem completed_step_blank (r : Reader) {c : Char} (blank : Text.isBlank c = true) :
    (r.step c).completed = r.completed := by
  have steps := r.steps c
  generalize r.step c = next at steps
  cases steps with
  | grows => rfl
  | opens => rw [completed_openList, completed_flush]
  | closes _ closing =>
    have solid : Text.isBlank ')' = false := by decide
    rw [closing, solid] at blank
    cases blank
  | ends => exact completed_flush r

theorem completed_foldl (r : Reader) (cs : List Char) :
    r.completed <:+ (cs.foldl step r).completed := by
  induction cs generalizing r with
  | nil => exact List.suffix_refl _
  | cons c cs ih => exact (r.completed_step c).trans (ih (r.step c))

theorem completed_foldl_gap (r : Reader) {gap : List Char} (blank : isGap gap = true) :
    (gap.foldl step r).completed = r.completed := by
  induction gap generalizing r with
  | nil => rfl
  | cons c gap ih =>
    simp only [isGap, List.all_cons, Bool.and_eq_true] at blank
    rw [List.foldl_cons, ih _ blank.2, completed_step_blank r blank.1]

theorem lists_finish (r : Reader) : lists r.finish = r.completed.reverse := by
  rw [← completed_flush, completed, lists, lists, ← List.filter_reverse]
  rfl

end Reader

theorem lists_readChars (cs : List Char) :
    lists (readChars cs) = (cs.foldl Reader.step {}).completed.reverse :=
  Reader.lists_finish _

theorem lists_readChars_prefix (cs rest : List Char) :
    lists (readChars cs) <+: lists (readChars (cs ++ rest)) := by
  rw [lists_readChars, lists_readChars, List.reverse_prefix, List.foldl_append]
  exact Reader.completed_foldl _ rest

theorem lists_readChars_gap (cs : List Char) {gap : List Char} (blank : isGap gap = true) :
    lists (readChars (cs ++ gap)) = lists (readChars cs) := by
  rw [lists_readChars, lists_readChars, List.foldl_append, Reader.completed_foldl_gap _ blank]

end PathEquiv.Sexp
