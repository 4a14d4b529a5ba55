import Mathlib.Data.List.Induction
import PathEquiv.Proofs.Sexp.Layout

set_option autoImplicit false

namespace PathEquiv.Sexp

def inQuotes (cs : List Char) : Bool :=
  cs.count '"' % 2 = 1

/-- White space and parentheses stand only between a quote that opens a string and the next one. -/
def Enclosed (cs : List Char) : Prop :=
  ∀ i < cs.length, cs[i]?.any isBreak = true → inQuotes (cs.take i) = true

instance : DecidablePred Enclosed := fun cs =>
  inferInstanceAs (Decidable (∀ i < cs.length, cs[i]?.any isBreak = true →
    inQuotes (cs.take i) = true))

theorem inQuotes_concat (cs : List Char) (c : Char) :
    inQuotes (cs ++ [c]) = (inQuotes cs ^^ (c = '"')) := by
  by_cases quote : c = '"'
  next =>
    simp only [inQuotes, quote, List.count_append, List.count_singleton_self, decide_true,
      Bool.xor_true, ← decide_not, decide_eq_decide]
    omega
  next => simp [inQuotes, quote, List.count_append]

theorem enclosed_concat {cs : List Char} {c : Char} :
    Enclosed (cs ++ [c]) ↔ Enclosed cs ∧ (isBreak c = true → inQuotes cs = true) := by
  constructor
  next =>
    intro whole
    constructor
    next =>
      intro i inside
      have here := whole i (by simp; omega)
      rwa [List.getElem?_append_left inside, List.take_append_of_le_length (by omega)] at here
    next => simpa using whole cs.length (by simp)
  next =>
    rintro ⟨start, last⟩ i inside
    rw [List.length_append, List.length_singleton] at inside
    rcases Nat.lt_succ_iff_lt_or_eq.mp inside with before | rfl
    · rw [List.getElem?_append_left before, List.take_append_of_le_length (by omega)]
      exact start i before
    · simpa using last

theorem Enclosed.plain {before after : List Char} {c : Char}
    (enclosed : Enclosed (before ++ c :: after)) (outside : inQuotes before = false) :
    isBreak c = false := by
  simpa [outside] using enclosed before.length (by simp)

-- The text before `cs` is there to tell whether `cs` starts inside of a string.
theorem unbroken_of_enclosed (before cs : List Char) (enclosed : Enclosed (before ++ cs))
    (paired : inQuotes (before ++ cs) = false) : unbroken (inQuotes before) cs = true := by
  induction cs generalizing before with
  | nil =>
    rw [List.append_nil] at paired
    rw [paired]
    rfl
  | cons c cs ih =>
    have rest := ih (before ++ [c]) (by simpa using enclosed) (by simpa using paired)
    rw [inQuotes_concat] at rest
    cases string : inQuotes before with
    | true =>
      rw [string] at rest
      by_cases quote : c = '"' <;> simpa [unbroken, quote] using rest
    | false =>
      rw [string] at rest
      by_cases quote : c = '"'
      next => simpa [unbroken, quote] using rest
      next =>
        have plain := enclosed.plain string
        simp only [isBreak, Bool.or_eq_false_iff, decide_eq_false_iff_not] at plain
        simpa [unbroken, quote, plain] using rest

inductive WellFormed : Sexp → Prop
  | atom {text : String} (nonempty : text.toList ≠ []) (paired : inQuotes text.toList = false)
      (enclosed : Enclosed text.toList) : WellFormed (.atom text)
  | list {items : List Sexp} (each : ∀ item ∈ items, WellFormed item) : WellFormed (.list items)

theorem allReadable_of_forall {items : List Sexp} (each : ∀ item ∈ items, item.readable = true) :
    allReadable items = true := by
  induction items with
  | nil => rfl
  | cons item items ih =>
    rw [allReadable, each item (by simp), ih fun other member => each other (by simp [member])]
    rfl

theorem WellFormed.readable {tree : Sexp} (formed : tree.WellFormed) : tree.readable = true := by
  induction formed with
  | atom nonempty paired enclosed =>
    have whole := unbroken_of_enclosed [] _ enclosed paired
    rw [Sexp.readable, Bool.and_eq_true, decide_eq_true_eq]
    exact ⟨nonempty, whole⟩
  | list each ih =>
    rw [Sexp.readable]
    exact allReadable_of_forall ih

theorem renderAll_eq (items : List Sexp) : renderAll items = items.map render := by
  induction items with
  | nil => rfl
  | cons item items ih => rw [renderAll, ih, List.map_cons]

theorem WellFormed.reads {tree : Sexp} (formed : tree.WellFormed) :
    Reads tree.render.toList [tree] :=
  reads_render tree formed.readable

theorem reads_joined {trees : List Sexp} (formed : ∀ tree ∈ trees, tree.WellFormed) :
    Reads (String.intercalate " " (trees.map render)).toList trees := by
  have whole := allReadable_of_forall fun tree member => (formed tree member).readable
  simpa [renderAll_eq] using reads_renderAll trees whole

/-- Rendered trees in a row, with white space between any two of them. -/
inductive Row : List Sexp → List Char → Prop
  | nil : Row [] []
  | last (tree : Sexp) : Row [tree] tree.render.toList
  | cons (tree : Sexp) {gap : List Char} (blank : isGap gap = true) (apart : gap ≠ [])
      {others : List Sexp} {rest : List Char} (row : Row others rest) :
      Row (tree :: others) (tree.render.toList ++ gap ++ rest)

theorem Row.reads {trees : List Sexp} {cs : List Char} (row : Row trees cs)
    (formed : ∀ tree ∈ trees, tree.WellFormed) : Reads cs trees := by
  induction row with
  | nil => exact Passes.nil.reads
  | last tree => exact (formed tree (by simp)).reads
  | cons tree blank apart row ih =>
    have first := (formed tree (by simp)).reads.append_gap blank apart
    exact first.append_reads (ih fun other member => formed other (by simp [member]))

theorem Reader.flush_pending {r : Reader} (pending : r.atom ≠ []) :
    r.flush =
      { r with items := .atom (String.ofList r.atom.reverse) :: r.items, atom := [] } := by
  unfold Reader.flush
  split
  next empty => exact absurd empty pending
  next => rfl

theorem ne_nil_of_inQuotes {cs : List Char} (unclosed : inQuotes cs.reverse = true) : cs ≠ [] := by
  rintro rfl
  cases unclosed

structure Reader.Tidy (r : Reader) : Prop where
  items : ∀ item ∈ r.items, item.WellFormed
  outer : ∀ items ∈ r.outer, ∀ item ∈ items, item.WellFormed
  enclosed : Enclosed r.atom.reverse
  string : r.inString = inQuotes r.atom.reverse

namespace Reader.Tidy

variable {r : Reader}

theorem initial : Tidy {} where
  items := by simp
  outer := by simp
  enclosed := by decide
  string := rfl

theorem flush (tidy : r.Tidy) (outside : r.inString = false) : r.flush.Tidy := by
  unfold Reader.flush
  split
  next => exact tidy
  next ended =>
    have last : (Sexp.atom (String.ofList r.atom.reverse)).WellFormed := by
      refine .atom ?_ ?_ ?_
      next => simpa using ended
      next => rw [String.toList_ofList, ← tidy.string, outside]
      next => simpa using tidy.enclosed
    exact ⟨List.forall_mem_cons.mpr ⟨last, tidy.items⟩, tidy.outer, initial.enclosed, outside⟩

theorem openList (tidy : r.Tidy) : r.openList.Tidy :=
  ⟨by simp [Reader.openList], List.forall_mem_cons.mpr ⟨tidy.items, tidy.outer⟩, tidy.enclosed,
    tidy.string⟩

theorem closeList (tidy : r.Tidy) : r.closeList.Tidy := by
  unfold Reader.closeList
  split
  next => exact tidy
  next before outer shape =>
    have frames := tidy.outer
    rw [shape, List.forall_mem_cons] at frames
    have closed : (Sexp.list r.items.reverse).WellFormed :=
      .list fun item member => tidy.items item (List.mem_reverse.mp member)
    exact ⟨List.forall_mem_cons.mpr ⟨closed, frames.1⟩, frames.2, tidy.enclosed, tidy.string⟩

theorem step (tidy : r.Tidy) (c : Char) : (r.step c).Tidy := by
  have steps := r.steps c
  generalize r.step c = next at steps
  cases steps with
  | grows enclosed =>
    refine ⟨tidy.items, tidy.outer, ?_, ?_⟩
    next =>
      rw [List.reverse_cons, enclosed_concat, ← tidy.string]
      exact ⟨tidy.enclosed, enclosed⟩
    next => rw [List.reverse_cons, inQuotes_concat, ← tidy.string]
  | opens outside => exact (tidy.flush outside).openList
  | closes outside => exact (tidy.flush outside).closeList
  | ends outside => exact tidy.flush outside

theorem foldl (tidy : r.Tidy) (cs : List Char) : (cs.foldl Reader.step r).Tidy := by
  induction cs generalizing r with
  | nil => exact tidy
  | cons c cs ih => exact ih (tidy.step c)

theorem finish (tidy : r.Tidy) :
    ∃ trees rest, r.finish = trees ++ rest ∧ (∀ tree ∈ trees, tree.WellFormed) ∧
      (rest = [] ∨ ∃ text, rest = [.atom text] ∧ Enclosed text.toList ∧
        inQuotes text.toList = true) := by
  have frames : r.flush.outer = r.outer := by
    unfold Reader.flush
    split <;> rfl
  cases last : r.outer.getLast? with
  | some frame =>
    have finished : r.finish = frame.reverse := by simp [Reader.finish, frames, last]
    refine ⟨frame.reverse, [], by simpa using finished, ?_, .inl rfl⟩
    intro tree member
    exact tidy.outer frame (List.mem_of_getLast? last) tree (List.mem_reverse.mp member)
  | none =>
    have finished : r.finish = r.flush.items.reverse := by simp [Reader.finish, frames, last]
    cases string : r.inString with
    | false =>
      refine ⟨r.flush.items.reverse, [], by simpa using finished, ?_, .inl rfl⟩
      intro tree member
      exact (tidy.flush string).items tree (List.mem_reverse.mp member)
    | true =>
      have unclosed : inQuotes r.atom.reverse = true := tidy.string.symm.trans string
      have flushed := Reader.flush_pending (ne_nil_of_inQuotes unclosed)
      refine ⟨r.items.reverse, [.atom (String.ofList r.atom.reverse)], ?_, ?_, .inr ⟨_, rfl, ?_⟩⟩
      next => rw [finished, flushed, List.reverse_cons]
      next => exact fun tree member => tidy.items tree (List.mem_reverse.mp member)
      next => simpa using ⟨tidy.enclosed, unclosed⟩

end Reader.Tidy

theorem Reader.step_enclosed {r : Reader} {c : Char}
    (enclosed : isBreak c = true → r.inString = true) :
    r.step c = { r with atom := c :: r.atom, inString := r.inString ^^ (c = '"') } := by
  have steps := r.steps c
  have inside (outside : r.inString = false) (stop : isBreak c = true) : False := by
    rw [enclosed stop] at outside
    cases outside
  generalize r.step c = next at steps
  cases steps with
  | grows => rfl
  | opens outside opening => exact (inside outside (by simp [isBreak, opening])).elim
  | closes outside closing => exact (inside outside (by simp [isBreak, closing])).elim
  | ends outside blank => exact (inside outside (by simp [isBreak, blank])).elim

theorem foldl_step_enclosed {cs : List Char} (enclosed : Enclosed cs) (items : List Sexp)
    (outer : List (List Sexp)) :
    cs.foldl Reader.step (.between items outer) =
      { items, outer, atom := cs.reverse, inString := inQuotes cs } := by
  induction cs using List.reverseRecOn with
  | nil => rfl
  | append_singleton cs c ih =>
    obtain ⟨start, last⟩ := enclosed_concat.mp enclosed
    rw [List.foldl_append, ih start, List.foldl_cons, List.foldl_nil, Reader.step_enclosed last,
      inQuotes_concat, List.reverse_append, List.reverse_singleton, List.singleton_append]

theorem exists_passes_joined {trees : List Sexp} (formed : ∀ tree ∈ trees, tree.WellFormed)
    (last : String) :
    ∃ start, (String.intercalate " " (trees.map render ++ [last])).toList = start ++ last.toList ∧
      Passes start trees := by
  induction trees with
  | nil => exact ⟨[], by simp, Passes.nil⟩
  | cons tree trees ih =>
    obtain ⟨start, joined, passes⟩ := ih fun other member => formed other (by simp [member])
    have first := (formed tree (by simp)).reads.blank ' ' (by decide)
    refine ⟨tree.render.toList ++ [' '] ++ start, ?_, first.append passes⟩
    have apart : trees.map render ++ [last] ≠ [] := by simp
    rw [List.map_cons, List.cons_append, String.intercalate_cons_of_ne_nil apart]
    simp [joined]

theorem readAll_joined (text : String) :
    readAll (String.intercalate " " ((readAll text).map render)) = readAll text := by
  obtain ⟨trees, rest, finished, formed, shape⟩ := (Reader.Tidy.initial.foldl text.toList).finish
  have found : readAll text = trees ++ rest := finished
  rw [found]
  rcases shape with rfl | ⟨last, rfl, enclosed, unclosed⟩
  · rw [List.append_nil]
    exact (reads_joined formed).readChars
  · -- The text that is read again ends inside of the same string.
    obtain ⟨start, joined, passes⟩ := exists_passes_joined formed last
    have state : (start ++ last.toList).foldl Reader.step {} =
        { items := trees.reverse, atom := last.toList.reverse, inString := true } := by
      have started := passes [] []
      rw [List.append_nil] at started
      rw [List.foldl_append]
      exact started ▸ unclosed ▸ foldl_step_enclosed enclosed trees.reverse []
    have pending : last.toList.reverse ≠ [] := ne_nil_of_inQuotes (by simpa using unclosed)
    rw [readAll, List.map_append, List.map_singleton, render, joined, readChars, state,
      Reader.finish, Reader.flush_pending pending]
    simp

/-- Well-formed trees are read back from their renderings, alone or in a row, and reading once more
what was read from a text, rendered, gives the same trees whatever the text was. -/
theorem rendered_reads_back :
    (∀ tree : Sexp, tree.WellFormed → readAll tree.render = [tree]) ∧
    (∀ (trees : List Sexp) (text : String), (∀ tree ∈ trees, tree.WellFormed) →
      Row trees text.toList → readAll text = trees) ∧
    ∀ text : String, readAll (String.intercalate " " ((readAll text).map render)) = readAll text :=
  ⟨fun _ formed => formed.reads.readChars, fun _ _ formed row => (row.reads formed).readChars,
    readAll_joined⟩

theorem rendered_reads_back_unclosed :
    let tree : Sexp := .list [.atom "s", .list [], .atom "a\"( \"\"\"b"]
    let broken := ") x (y \"( z\")w\"( \"\"v u"
    tree.WellFormed ∧ readAll tree.render = [tree] ∧
      readAll (tree.render ++ "\t\n" ++ tree.render) = [tree, tree] ∧
      (readAll broken).map render = ["x", "(y \"( z\")", "w\"( \"\"v u"] ∧
      readAll (String.intercalate " " ((readAll broken).map render)) = readAll broken := by
  intro tree broken
  obtain ⟨alone, inRow, anyText⟩ := rendered_reads_back
  have formed : tree.WellFormed := by
    refine .list (List.forall_mem_cons.mpr ⟨?_, List.forall_mem_cons.mpr ⟨.list (by simp),
      List.forall_mem_cons.mpr ⟨?_, by simp⟩⟩⟩)
    next => exact .atom (by decide) (by decide) (by decide)
    next => exact .atom (by decide) (by decide) (by decide)
  have row : Row [tree, tree] (tree.render ++ "\t\n" ++ tree.render).toList := by
    rw [String.toList_append, String.toList_append]
    exact .cons tree (by decide) (by decide) (.last tree)
  exact ⟨formed, alone tree formed, inRow [tree, tree] _ (by simp [formed]) row,
    by decide +kernel, anyText broken⟩

end PathEquiv.Sexp
