import PathEquiv.Proofs.Sexp.Completed
import PathEquiv.Proofs.Solver.Answer
import PathEquiv.Proofs.Solver.Model

set_option autoImplicit false

namespace PathEquiv

def constantDefinition (name sort : String) (value : Sexp) : List Sexp :=
  [.atom "define-fun", .atom name, .list [], .atom sort, value]

/-- A constant of the name is defined in the expression. In a definition nothing else is looked
for. -/
inductive Sexp.Binds (name : String) : Sexp → Prop
  | definition (sort : String) (value : Sexp) :
      Binds name (.list (constantDefinition name sort value))
  | inside {items : List Sexp} {item : Sexp}
      (other : ∀ name sort value, items ≠ constantDefinition name sort value)
      (member : item ∈ items) (inner : Binds name item) : Binds name (.list items)

theorem Sexp.binds_definition {name own sort : String} {value : Sexp} :
    Binds name (.list (constantDefinition own sort value)) ↔ name = own := by
  constructor
  next =>
    intro bound
    cases bound with
    | definition => rfl
    | inside other => exact absurd rfl (other own sort value)
  next =>
    rintro rfl
    exact .definition sort value

namespace Model

theorem binding_eq_some_iff {items : List Sexp} {name : String} {v : ModelValue} :
    binding? items = some (name, v) ↔
      ∃ sort value, items = constantDefinition name sort value ∧ v = .read sort value := by
  constructor
  next =>
    intro found
    unfold binding? at found
    split at found
    next own sort value =>
      cases found
      exact ⟨sort, value, rfl, rfl⟩
    next => cases found
  next =>
    rintro ⟨sort, value, rfl, rfl⟩
    rfl

/-- One model comes after another: the bound names have values, and all others what they had. -/
structure Gains (before after : Model) (bound : String → Prop) : Prop where
  gained : ∀ name, bound name → ∃ v, after.get? name = some v
  kept : ∀ name, ¬bound name → after.get? name = before.get? name

theorem Gains.trans {first second third : Model} {bound later : String → Prop}
    (gains : Gains first second bound) (next : Gains second third later) :
    Gains first third fun name => bound name ∨ later name := by
  constructor
  next =>
    intro name either
    by_cases rebound : later name
    next => exact next.gained name rebound
    next =>
      rw [next.kept name rebound]
      exact gains.gained name (either.resolve_right rebound)
  next =>
    intro name neither
    rw [not_or] at neither
    rw [next.kept name neither.2, gains.kept name neither.1]

theorem Gains.of_iff {before after : Model} {bound other : String → Prop}
    (gains : Gains before after bound) (agree : ∀ name, other name ↔ bound name) :
    Gains before after other := by
  constructor
  next => exact fun name new => gains.gained name ((agree name).mp new)
  next => exact fun name old => gains.kept name fun new => old ((agree name).mpr new)

theorem Gains.exists_iff {before after : Model} {bound : String → Prop}
    (gains : Gains before after bound) (name : String) :
    (∃ v, after.get? name = some v) ↔ (∃ v, before.get? name = some v) ∨ bound name := by
  by_cases new : bound name
  next => exact iff_of_true (gains.gained name new) (.inr new)
  next =>
    rw [gains.kept name new]
    exact (or_iff_left new).symm

theorem gains_insert (m : Model) (name : String) (value : ModelValue) :
    Gains m (m.insert name value) (· = name) := by
  constructor
  next =>
    rintro other rfl
    exact ⟨value, by rw [get_insert, if_pos rfl]⟩
  next =>
    intro other apart
    rw [get_insert, if_neg apart]

mutual

theorem gains_addFrom : (tree : Sexp) → (m : Model) → Gains m (m.addFrom tree) (tree.Binds ·)
  | .atom text, m => by
    refine ⟨fun name bound => ?_, fun name _ => rfl⟩
    cases bound
  | .list items, m => by
    cases found : binding? items with
    | some entry =>
      obtain ⟨own, v⟩ := entry
      obtain ⟨sort, value, rfl, rfl⟩ := binding_eq_some_iff.mp found
      exact (gains_insert m own (.read sort value)).of_iff fun _ => Sexp.binds_definition
    | none =>
      have other (name sort : String) (value : Sexp) :
          items ≠ constantDefinition name sort value := by
        rintro rfl
        cases found
      rw [addFrom, found]
      refine (gains_addFromAll items m).of_iff fun name => ?_
      constructor
      next =>
        intro bound
        cases bound with
        | definition sort value => exact absurd rfl (other name sort value)
        | inside _ member inner => exact ⟨_, member, inner⟩
      next =>
        rintro ⟨item, member, inner⟩
        exact .inside other member inner

theorem gains_addFromAll : (items : List Sexp) → (m : Model) →
    Gains m (m.addFromAll items) fun name => ∃ item ∈ items, item.Binds name
  | [], m => ⟨by simp, fun _ _ => rfl⟩
  | item :: items, m =>
    ((gains_addFrom item m).trans (gains_addFromAll items (m.addFrom item))).of_iff
      fun _ => by simp

end

theorem addFromAll_append (m : Model) (items others : List Sexp) :
    m.addFromAll (items ++ others) = (m.addFromAll items).addFromAll others := by
  induction items generalizing m with
  | nil => rfl
  | cons item items ih => rw [List.cons_append, addFromAll, addFromAll, ih]

theorem addFromAll_lists (m : Model) (items : List Sexp) :
    m.addFromAll (Sexp.lists items) = m.addFromAll items := by
  induction items generalizing m with
  | nil => rfl
  | cons item items ih =>
    cases item with
    | atom text => exact ih m
    | list inner =>
      have kept : Sexp.lists (.list inner :: items) = .list inner :: Sexp.lists items := rfl
      rw [kept, addFromAll, addFromAll, ih]

theorem parse_eq (text : String) :
    parse text = addFromAll {} (Sexp.lists (Sexp.readAll text)) :=
  (addFromAll_lists {} (Sexp.readAll text)).symm

/-- What is read from the start of a text stays when the text goes on: its lists come first, and
each name that they bind is bound, with the same value unless a later list binds it again. -/
theorem truncated_text_fabricates_nothing (start rest : String) :
    ∃ later, Sexp.lists (Sexp.readAll (start ++ rest)) =
        Sexp.lists (Sexp.readAll start) ++ later ∧
      ∀ name,
        ((∃ v, (parse (start ++ rest)).get? name = some v) ↔
          (∃ v, (parse start).get? name = some v) ∨ ∃ tree ∈ later, tree.Binds name) ∧
        ((∀ tree ∈ later, ¬tree.Binds name) →
          (parse (start ++ rest)).get? name = (parse start).get? name) := by
  obtain ⟨later, split⟩ := Sexp.lists_readChars_prefix start.toList rest.toList
  have read : Sexp.lists (Sexp.readAll (start ++ rest)) =
      Sexp.lists (Sexp.readAll start) ++ later := by
    rw [Sexp.readAll, String.toList_append]
    exact split.symm
  have gains := gains_addFromAll later (parse start)
  have extended : parse (start ++ rest) = (parse start).addFromAll later := by
    rw [parse_eq, read, addFromAll_append, ← parse_eq]
  rw [← extended] at gains
  refine ⟨later, read, fun name => ⟨gains.exists_iff name, ?_⟩⟩
  intro unbound
  apply gains.kept name
  rintro ⟨tree, member, bound⟩
  exact unbound tree member bound

-- The cut is between the two quotes of a doubled one.
set_option maxRecDepth 2000 in
theorem truncated_text_fabricates_nothing_quoted :
    let start := "(define-fun x () Int 1)(define-fun s () String \"a\""
    let rest := "\"b\")"
    let x : Sexp := .list (constantDefinition "x" "Int" (.atom "1"))
    let s : Sexp := .list (constantDefinition "s" "String" (.atom "\"a\"\"b\""))
    Sexp.lists (Sexp.readAll start) = [x] ∧ Sexp.lists (Sexp.readAll (start ++ rest)) = [x, s] ∧
      (parse (start ++ rest)).get? "x" = (parse start).get? "x" ∧
      (parse start).get? "x" = some (.int 1) ∧ (parse start).get? "s" = none ∧
      ∃ v, (parse (start ++ rest)).get? "s" = some v := by
  intro start rest x s
  have first : Sexp.lists (Sexp.readAll start) = [x] := by
    simp only [start]
    rfl
  have whole : Sexp.lists (Sexp.readAll (start ++ rest)) = [x, s] := by
    simp only [start, rest]
    rfl
  obtain ⟨later, split, names⟩ := truncated_text_fabricates_nothing start rest
  have next : later = [s] := by
    rw [first, whole] at split
    exact (List.cons.inj split).2.symm
  have unbound : ∀ tree ∈ later, ¬tree.Binds "x" := by
    rw [next, List.forall_mem_singleton, Sexp.binds_definition]
    decide
  have bound : ∃ tree ∈ later, tree.Binds "s" :=
    ⟨s, by rw [next]; exact List.mem_singleton_self s, Sexp.binds_definition.mpr rfl⟩
  exact ⟨first, whole, (names "x").2 unbound, by decide +kernel, by decide +kernel,
    (names "s").1.mpr (.inr bound)⟩

end Model

namespace Text

theorem lines_inside {c : Char} (feed : c ≠ '\n') (plain : c ≠ '\r') (rest : List Char) :
    lines (c :: rest) = (c :: (lines rest).headD []) :: (lines rest).tail := by
  rw [lines.eq_4 _ _ (by simp [plain]) (by simp [feed])]
  cases lines rest <;> rfl

theorem lines_feed (rest : List Char) : lines ('\n' :: rest) = [] :: lines rest := rfl

-- Without carriage returns a text is made of line feeds and of what stands inside of lines.
@[elab_as_elim]
theorem line_induction {motive : List Char → Prop} {cs : List Char} (plain : '\r' ∉ cs)
    (nil : motive []) (feed : ∀ rest, motive rest → motive ('\n' :: rest))
    (inside : ∀ c rest, c ≠ '\n' → c ≠ '\r' → motive rest → motive (c :: rest)) : motive cs := by
  induction cs with
  | nil => exact nil
  | cons c rest ih =>
    rw [List.mem_cons, not_or] at plain
    by_cases ends : c = '\n'
    next =>
      rw [ends]
      exact feed rest (ih plain.2)
    next => exact inside c rest ends (Ne.symm plain.1) (ih plain.2)

def withReturns (cs : List Char) : List Char :=
  cs.flatMap fun c => if c = '\n' then ['\r', '\n'] else [c]

theorem lines_withReturns {cs : List Char} (plain : '\r' ∉ cs) :
    lines (withReturns cs) = lines cs := by
  refine line_induction plain rfl (fun rest ih => ?_) (fun c rest noFeed noReturn ih => ?_)
  next =>
    rw [lines_feed, ← ih]
    rfl
  next =>
    have kept : withReturns (c :: rest) = c :: withReturns rest := by simp [withReturns, noFeed]
    rw [kept, lines_inside noFeed noReturn, lines_inside noFeed noReturn, ih]

def pastFirstLine (cs : List Char) : List Char :=
  (cs.dropWhile (· ≠ '\n')).tail

theorem tail_lines {cs : List Char} (plain : '\r' ∉ cs) :
    (lines cs).tail = lines (pastFirstLine cs) := by
  refine line_induction plain rfl (fun rest _ => rfl) (fun c rest noFeed noReturn ih => ?_)
  have passed : pastFirstLine (c :: rest) = pastFirstLine rest := by simp [pastFirstLine, noFeed]
  rw [lines_inside noFeed noReturn, List.tail_cons, ih, passed]

theorem trimEnd_append_gap (cs : List Char) {gap : List Char} (blank : Sexp.isGap gap = true) :
    trimEnd (cs ++ gap) = trimEnd cs := by
  have passed : ∀ c ∈ gap.reverse, isBlank c = true := by
    intro c member
    exact List.all_eq_true.mp blank c (List.mem_reverse.mp member)
  rw [trimEnd, List.reverse_append, List.dropWhile_append_of_pos passed, trimEnd]

theorem exists_gap_trimEnd (cs : List Char) :
    ∃ gap, Sexp.isGap gap = true ∧ cs = trimEnd cs ++ gap := by
  refine ⟨cs.rtakeWhile isBlank, ?_, List.rdropWhile_append_rtakeWhile.symm⟩
  rw [Sexp.isGap, List.all_eq_true]
  intro c member
  exact List.mem_takeWhile_imp (List.mem_reverse.mp member)

end Text

namespace Answer

theorem joinLines_extend (c : Char) (line : List Char) (others : List (List Char)) :
    joinLines ((c :: line) :: others) = c :: joinLines (line :: others) := by
  cases others <;> simp [joinLines]

theorem joinLines_blank (line : List Char) (others : List (List Char)) :
    joinLines ([] :: line :: others) = '\n' :: joinLines (line :: others) := by
  simp [joinLines]

-- Of a text only its last line feed is missing between its lines.
theorem exists_gap_joinLines {cs : List Char} (plain : '\r' ∉ cs) :
    ∃ gap, Sexp.isGap gap = true ∧ cs = joinLines (Text.lines cs) ++ gap := by
  refine Text.line_induction plain ⟨[], rfl, rfl⟩ (fun rest ih => ?_)
    (fun c rest noFeed noReturn ih => ?_)
  next =>
    obtain ⟨gap, blank, whole⟩ := ih
    rw [Text.lines_feed]
    cases found : Text.lines rest with
    | nil =>
      have longer : Sexp.isGap ('\n' :: gap) = true := blank
      refine ⟨'\n' :: gap, longer, ?_⟩
      rw [found] at whole
      exact congrArg ('\n' :: ·) whole
    | cons line others =>
      refine ⟨gap, blank, ?_⟩
      rw [joinLines_blank, ← found, List.cons_append, ← whole]
  next =>
    obtain ⟨gap, blank, whole⟩ := ih
    refine ⟨gap, blank, ?_⟩
    rw [Text.lines_inside noFeed noReturn]
    cases found : Text.lines rest with
    | nil =>
      rw [found] at whole
      exact congrArg (c :: ·) whole
    | cons line others =>
      rw [List.headD_cons, List.tail_cons, joinLines_extend, ← found, List.cons_append, ← whole]

theorem modelOf_lines {cs : List Char} (plain : '\r' ∉ cs) :
    modelOf (Text.lines cs) = if cs.all Text.isBlank then none
      else some (String.ofList (Text.trimEnd cs ++ ['\n'])) := by
  obtain ⟨gap, blank, whole⟩ := exists_gap_joinLines plain
  have blanks : cs.all Text.isBlank = (joinLines (Text.lines cs)).all Text.isBlank := by
    have parts := congrArg (List.all · Text.isBlank) whole
    rwa [List.all_append, show gap.all Text.isBlank = true from blank, Bool.and_true] at parts
  have trimmed : Text.trimEnd cs = Text.trimEnd (joinLines (Text.lines cs)) :=
    (congrArg Text.trimEnd whole).trans (Text.trimEnd_append_gap _ blank)
  rw [blanks, trimmed]
  rfl

end Answer

theorem Model.parse_trimEnd (cs : List Char) :
    parse (String.ofList (Text.trimEnd cs ++ ['\n'])) = parse (String.ofList cs) := by
  obtain ⟨gap, blank, whole⟩ := Text.exists_gap_trimEnd cs
  have ended : Sexp.isGap ['\n'] = true := by decide
  have same : Sexp.lists (Sexp.readChars (Text.trimEnd cs ++ ['\n'])) =
      Sexp.lists (Sexp.readChars cs) := by
    rw [Sexp.lists_readChars_gap _ ended, ← Sexp.lists_readChars_gap _ blank, ← whole]
  rw [parse_eq, parse_eq, Sexp.readAll, Sexp.readAll, String.toList_ofList, String.toList_ofList,
    same]

namespace Answer

theorem model_of_sat {stdout stderr : String} {statistics : Statistics}
    (sat : (ofOutput stdout stderr statistics).status = .sat) :
    (ofOutput stdout stderr statistics).model = modelOf (Text.lines stdout.toList).tail := by
  simp only [ofOutput] at sat ⊢
  rw [if_pos sat]

/-- Line ends may be written with carriage returns, and the values of a satisfiable query are those
in the text after the first line, however that text is laid out or cut short. -/
theorem output_loses_nothing (stdout stderr : String) (statistics : Statistics)
    (plain : '\r' ∉ stdout.toList) :
    ofOutput (String.ofList (Text.withReturns stdout.toList)) stderr statistics =
        ofOutput stdout stderr statistics ∧
      ((ofOutput stdout stderr statistics).status = .sat →
        (ofOutput stdout stderr statistics).witness? =
          let rest := String.ofList (Text.pastFirstLine stdout.toList)
          if Text.allBlank rest then none else some (Model.parse rest)) := by
  constructor
  next => rw [ofOutput, ofOutput, String.toList_ofList, Text.lines_withReturns plain]
  next =>
    intro sat
    have pastPlain : '\r' ∉ Text.pastFirstLine stdout.toList := by
      intro member
      exact plain ((List.dropWhile_suffix _).mem (List.mem_of_mem_tail member))
    have model : (ofOutput stdout stderr statistics).model =
        modelOf (Text.lines (Text.pastFirstLine stdout.toList)) := by
      rw [model_of_sat sat, Text.tail_lines plain]
    rw [witness?, model, modelOf_lines pastPlain]
    simp only [Text.allBlank, String.toList_ofList]
    split
    next => rfl
    next => rw [Option.map_some, Model.parse_trimEnd]

-- The white space at the end belongs to a string that was never closed.
theorem output_loses_nothing_truncated :
    let rest := "(define-fun x () Int 1)\n(define-fun s () String \"a \n \t"
    let answer := ofOutput ("sat\n" ++ rest) "" {}
    '\r' ∉ ("sat\n" ++ rest).toList ∧ answer.status = .sat ∧
      ofOutput "sat\r\n(define-fun x () Int 1)\r\n(define-fun s () String \"a \r\n \t" "" {} =
        answer ∧
      answer.model = some "(define-fun x () Int 1)\n(define-fun s () String \"a\n" ∧
      answer.witness? = some (Model.parse rest) := by
  intro rest answer
  have plain : '\r' ∉ ("sat\n" ++ rest).toList := by decide +kernel
  have sat : answer.status = .sat := by decide +kernel
  obtain ⟨ends, values⟩ := output_loses_nothing ("sat\n" ++ rest) "" {} plain
  have returns : String.ofList (Text.withReturns ("sat\n" ++ rest).toList) =
      "sat\r\n(define-fun x () Int 1)\r\n(define-fun s () String \"a \r\n \t" := by decide +kernel
  have past : String.ofList (Text.pastFirstLine ("sat\n" ++ rest).toList) = rest := by
    decide +kernel
  have solid : ¬Text.allBlank rest := by decide +kernel
  have read := values sat
  rw [past] at read
  exact ⟨plain, sat, returns ▸ ends, by decide +kernel, read.trans (if_neg solid)⟩

end Answer

end PathEquiv
