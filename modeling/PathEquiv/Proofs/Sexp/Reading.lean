import PathEquiv.Sexp

set_option autoImplicit false

namespace PathEquiv.Sexp

def Reader.between (items : List Sexp) (outer : List (List Sexp)) : Reader :=
  { items, outer }

/-- Between two items the text is read as `found`, and the reader is between two items again. -/
def Passes (cs : List Char) (found : List Sexp) : Prop :=
  ∀ items outer, cs.foldl Reader.step (.between items outer) =
    .between (found.reverse ++ items) outer

/-- Between two items the text is read as `found`. Its last item may be an atom that goes on. -/
def Reads (cs : List Char) (found : List Sexp) : Prop :=
  ∀ items outer,
    (cs.foldl Reader.step (.between items outer)).inString = false ∧
    (cs.foldl Reader.step (.between items outer)).flush =
      .between (found.reverse ++ items) outer

@[simp] theorem Reader.flush_between (items : List Sexp) (outer : List (List Sexp)) :
    (Reader.between items outer).flush = .between items outer := rfl

theorem Reader.step_blank (r : Reader) (outside : r.inString = false) (c : Char)
    (blank : Text.isBlank c = true) : r.step c = r.flush := by
  have quote : c ≠ '"' := by rintro rfl; revert blank; decide
  have opening : c ≠ '(' := by rintro rfl; revert blank; decide
  have closing : c ≠ ')' := by rintro rfl; revert blank; decide
  simp [Reader.step, outside, quote, opening, closing, blank]

theorem Reader.step_open (r : Reader) (outside : r.inString = false) (items : List Sexp)
    (outer : List (List Sexp)) (before : r.flush = .between items outer) :
    r.step '(' = .between [] (items :: outer) := by
  simp [Reader.step, outside, before, Reader.openList, Reader.between]

theorem Reader.step_close (r : Reader) (outside : r.inString = false)
    (items before : List Sexp) (outer : List (List Sexp))
    (inside : r.flush = .between items (before :: outer)) :
    r.step ')' = .between (.list items.reverse :: before) outer := by
  simp [Reader.step, outside, inside, Reader.closeList, Reader.between]

def isBreak (c : Char) : Bool :=
  Text.isBlank c || c = '(' || c = ')'

/-- What one character does. It goes into the atom, or else it ends the atom outside of strings, and
a parenthesis then opens or closes a list. -/
inductive Reader.Steps (r : Reader) (c : Char) : Reader → Prop
  | grows (enclosed : isBreak c = true → r.inString = true) :
      Steps r c { r with atom := c :: r.atom, inString := r.inString ^^ (c = '"') }
  | opens (outside : r.inString = false) (opening : c = '(') : Steps r c r.flush.openList
  | closes (outside : r.inString = false) (closing : c = ')') : Steps r c r.flush.closeList
  | ends (outside : r.inString = false) (blank : Text.isBlank c = true) : Steps r c r.flush

theorem Reader.steps (r : Reader) (c : Char) : r.Steps c (r.step c) := by
  obtain ⟨items, outer, atom, inString⟩ := r
  by_cases inner : isBreak c = true → inString = true
  next =>
    have grown : Reader.step ⟨items, outer, atom, inString⟩ c =
        ⟨items, outer, c :: atom, inString ^^ (c = '"')⟩ := by
      cases inString with
      | true => by_cases quote : c = '"' <;> simp [step, quote]
      | false =>
        have plain : isBreak c = false := by simpa using inner
        simp only [isBreak, Bool.or_eq_false_iff, decide_eq_false_iff_not] at plain
        by_cases quote : c = '"' <;> simp [step, quote, plain]
    rw [grown]
    exact .grows inner
  next =>
    rw [Classical.not_imp, Bool.not_eq_true] at inner
    obtain ⟨stop, rfl⟩ := inner
    by_cases opening : c = '('
    next =>
      rw [opening]
      exact .opens rfl rfl
    next =>
      by_cases closing : c = ')'
      next =>
        rw [closing]
        exact .closes rfl rfl
      next =>
        have blank : Text.isBlank c = true := by simpa [isBreak, opening, closing] using stop
        rw [step_blank _ rfl c blank]
        exact .ends rfl blank

theorem Passes.nil : Passes [] [] := by
  intro items outer
  rfl

theorem Passes.reads {cs : List Char} {found : List Sexp} (passes : Passes cs found) :
    Reads cs found := by
  intro items outer
  rw [passes items outer]
  exact ⟨rfl, rfl⟩

theorem Passes.append {cs ds : List Char} {first second : List Sexp}
    (passes : Passes cs first) (next : Passes ds second) : Passes (cs ++ ds) (first ++ second) := by
  intro items outer
  simp [List.foldl_append, passes items outer, next (first.reverse ++ items) outer]

theorem Passes.append_reads {cs ds : List Char} {first second : List Sexp}
    (passes : Passes cs first) (reads : Reads ds second) : Reads (cs ++ ds) (first ++ second) := by
  intro items outer
  simpa [List.foldl_append, passes items outer] using reads (first.reverse ++ items) outer

theorem Reads.blank {cs : List Char} {found : List Sexp} (reads : Reads cs found) (c : Char)
    (blank : Text.isBlank c = true) : Passes (cs ++ [c]) found := by
  intro items outer
  obtain ⟨outside, flushed⟩ := reads items outer
  rw [List.foldl_append, List.foldl_cons, List.foldl_nil, Reader.step_blank _ outside c blank,
    flushed]

theorem Passes.blank (c : Char) (blank : Text.isBlank c = true) : Passes [c] [] :=
  Passes.nil.reads.blank c blank

theorem Reads.append_list {cs ds : List Char} {found inner : List Sexp} (reads : Reads cs found)
    (inside : Reads ds inner) : Passes (cs ++ ('(' :: ds ++ [')'])) (found ++ [.list inner]) := by
  intro items outer
  obtain ⟨outside, flushed⟩ := reads items outer
  obtain ⟨innerOutside, innerFlushed⟩ := inside [] ((found.reverse ++ items) :: outer)
  rw [List.append_nil] at innerFlushed
  rw [List.foldl_append, List.cons_append, List.foldl_cons,
    Reader.step_open _ outside _ _ flushed, List.foldl_append, List.foldl_cons, List.foldl_nil,
    Reader.step_close _ innerOutside _ _ _ innerFlushed]
  simp

theorem Reads.list {cs : List Char} {found : List Sexp} (reads : Reads cs found) :
    Passes ('(' :: cs ++ [')']) [.list found] :=
  Passes.nil.reads.append_list reads

/-- A text that the reader takes as a part of one atom: outside of strings it has neither white
space nor parentheses, and no string is left open. -/
def unbroken : (inString : Bool) → List Char → Bool
  | inString, [] => !inString
  | true, c :: cs => unbroken (c ≠ '"') cs
  | false, c :: cs =>
      if c = '"' then unbroken true cs
      else !Text.isBlank c && c ≠ '(' && c ≠ ')' && unbroken false cs

theorem foldl_step_unbroken (cs : List Char) (r : Reader)
    (whole : unbroken r.inString cs = true) :
    cs.foldl Reader.step r = { r with atom := cs.reverse ++ r.atom, inString := false } := by
  induction cs generalizing r with
  | nil =>
    cases r
    simp_all [unbroken]
  | cons c cs ih =>
    obtain ⟨items, outer, atom, inString⟩ := r
    -- The reader goes on with `c` in its atom, inside or outside of a string.
    have next : ∀ after, unbroken after cs = true →
        Reader.step ⟨items, outer, atom, inString⟩ c = ⟨items, outer, c :: atom, after⟩ →
        (c :: cs).foldl Reader.step ⟨items, outer, atom, inString⟩ =
          ⟨items, outer, (c :: cs).reverse ++ atom, false⟩ := by
      intro after rest stepped
      rw [List.foldl_cons, stepped, ih _ rest]
      simp
    cases inString with
    | true => exact next (c ≠ '"') whole rfl
    | false =>
      by_cases quote : c = '"'
      · exact next true (by simpa [unbroken, quote] using whole) (by simp [Reader.step, quote])
      · simp only [unbroken, quote, if_false, Bool.and_eq_true, Bool.not_eq_true',
          decide_eq_true_eq] at whole
        obtain ⟨⟨⟨blank, opening⟩, closing⟩, rest⟩ := whole
        exact next false rest (by simp [Reader.step, quote, opening, closing, blank])

theorem Reads.atom (text : String) (nonempty : text.toList ≠ [])
    (whole : unbroken false text.toList = true) : Reads text.toList [.atom text] := by
  intro items outer
  have read := foldl_step_unbroken text.toList (.between items outer) whole
  rw [read]
  refine ⟨rfl, ?_⟩
  cases reversed : text.toList.reverse with
  | nil => simp_all
  | cons c cs =>
    have back : (c :: cs).reverse = text.toList := by rw [← reversed, List.reverse_reverse]
    simp [Reader.flush, Reader.between, back]

theorem Reads.join {α : Type} (sep : Char) (blank : Text.isBlank sep = true) (text : α → String)
    (found : α → List Sexp) (parts : List α)
    (reads : ∀ part ∈ parts, Reads (text part).toList (found part)) :
    Reads (String.intercalate (String.singleton sep) (parts.map text)).toList
      (parts.flatMap found) := by
  induction parts with
  | nil => exact Passes.nil.reads
  | cons part parts ih =>
    have first := reads part (by simp)
    have rest := ih fun other member => reads other (by simp [member])
    cases parts with
    | nil => simpa using first
    | cons second others =>
      -- The separator ends the last atom of the first text.
      have joined := (first.blank sep blank).append_reads rest
      simpa using joined

theorem Reads.readChars {cs : List Char} {found : List Sexp} (reads : Reads cs found) :
    readChars cs = found := by
  obtain ⟨-, flushed⟩ := reads [] []
  have finished : Sexp.readChars cs =
      ((cs.foldl Reader.step (.between [] [])).flush.outer.getLast?.getD
        (cs.foldl Reader.step (.between [] [])).flush.items).reverse := rfl
  rw [finished, flushed]
  simp [Reader.between]

theorem Reads.joinNonempty (sep : Char) (blank : Text.isBlank sep = true)
    (parts : List (String × List Sexp)) (reads : ∀ part ∈ parts, Reads part.1.toList part.2) :
    Reads (String.intercalate (String.singleton sep)
      ((parts.map Prod.fst).filter (· ≠ ""))).toList (parts.flatMap Prod.snd) := by
  have joined := Reads.join sep blank Prod.fst Prod.snd (parts.filter (·.1 ≠ ""))
    fun part member => reads part (List.mem_filter.mp member).1
  have texts : (parts.map Prod.fst).filter (· ≠ "") =
      (parts.filter (·.1 ≠ "")).map Prod.fst := by
    simp [List.filter_map, Function.comp_def]
  have found : (parts.filter (·.1 ≠ "")).flatMap Prod.snd = parts.flatMap Prod.snd := by
    clear joined texts
    induction parts with
    | nil => rfl
    | cons part parts ih =>
      have rest := ih fun other member => reads other (by simp [member])
      -- An empty text is read as nothing, so leaving it out loses nothing.
      by_cases empty : part.1 = ""
      · have here := reads part (by simp)
        rw [empty] at here
        have nothing : part.2 = [] := here.readChars.symm
        simpa [empty, nothing] using rest
      · simpa [empty] using rest
  rw [texts, ← found]
  exact joined

mutual

def readable : Sexp → Bool
  | .atom text => text.toList ≠ [] && unbroken false text.toList
  | .list items => allReadable items

def allReadable : List Sexp → Bool
  | [] => true
  | item :: items => readable item && allReadable items

end

mutual

theorem reads_render : (tree : Sexp) → tree.readable = true → Reads tree.render.toList [tree]
  | .atom text, whole => by
    simp only [readable, Bool.and_eq_true, decide_eq_true_eq] at whole
    rw [render]
    exact Reads.atom text whole.1 whole.2
  | .list items, whole => by
    have inside := reads_renderAll items whole
    have text : (Sexp.list items).render.toList =
        '(' :: (String.intercalate " " (renderAll items)).toList ++ [')'] := by
      rw [render]
      simp
    rw [text]
    exact inside.list.reads

theorem reads_renderAll : (items : List Sexp) → allReadable items = true →
    Reads (String.intercalate " " (renderAll items)).toList items
  | [], _ => Passes.nil.reads
  | item :: items, whole => by
    simp only [allReadable, Bool.and_eq_true] at whole
    have first := reads_render item whole.1
    have rest := reads_renderAll items whole.2
    cases items with
    | nil => simpa [renderAll] using first
    | cons second others =>
      have joined := (first.blank ' ' (by decide)).append_reads rest
      simpa [renderAll] using joined

end

end PathEquiv.Sexp
