import PathEquiv.Proofs.Containers
import PathEquiv.Proofs.Expr.Tree
import PathEquiv.Proofs.Json.Tokens
import PathEquiv.Proofs.Sexp.Layout
import PathEquiv.Solver.Model

set_option autoImplicit false

namespace PathEquiv

namespace Model

theorem lookup_insertValue (name other : String) (value : ModelValue)
    (values : List (String × ModelValue)) :
    (insertValue name value values).lookup other =
      if other = name then some value else values.lookup other := by
  induction values with
  | nil => rw [insertValue, lookup_cons_eq]
  | cons entry values ih =>
    obtain ⟨key, old⟩ := entry
    rw [insertValue]
    by_cases replaced : name = key
    next =>
      rw [if_pos replaced, lookup_cons_eq, lookup_cons_eq, replaced]
      split <;> rfl
    next =>
      rw [if_neg replaced]
      by_cases before : name < key
      next => rw [if_pos before, lookup_cons_eq]
      next =>
        rw [if_neg before, lookup_cons_eq, lookup_cons_eq, ih]
        by_cases here : other = key
        next =>
          have later : other ≠ name := fun same => replaced (same.symm.trans here)
          rw [if_pos here, if_neg later, if_pos here]
        next => rw [if_neg here, if_neg here]

theorem get_insert (m : Model) (name other : String) (value : ModelValue) :
    (m.insert name value).get? other = if other = name then some value else m.get? other :=
  lookup_insertValue name other value m.values

def Ordered (m : Model) : Prop :=
  m.values.Pairwise fun a b => a.1 < b.1

theorem mem_insertValue {name : String} {value : ModelValue} {values : List (String × ModelValue)}
    {entry : String × ModelValue} (member : entry ∈ insertValue name value values) :
    entry = (name, value) ∨ entry ∈ values := by
  induction values with
  | nil => exact .inl (by simpa [insertValue] using member)
  | cons head values ih =>
    rw [insertValue] at member
    split at member
    next =>
      rcases List.mem_cons.mp member with same | later
      · exact .inl same
      · exact .inr (by simp [later])
    next =>
      split at member
      next => exact List.mem_cons.mp member
      next =>
        rcases List.mem_cons.mp member with first | later
        · exact .inr (by simp [first])
        · exact (ih later).imp_right (List.mem_cons_of_mem head)

theorem ordered_insertValue (name : String) (value : ModelValue)
    {values : List (String × ModelValue)} (ordered : values.Pairwise fun a b => a.1 < b.1) :
    (insertValue name value values).Pairwise fun a b => a.1 < b.1 := by
  induction values with
  | nil => simp [insertValue]
  | cons head values ih =>
    obtain ⟨above, rest⟩ := List.pairwise_cons.mp ordered
    rw [insertValue]
    by_cases same : name = head.1
    next =>
      rw [if_pos same, List.pairwise_cons]
      exact ⟨fun entry member => same ▸ above entry member, rest⟩
    next =>
      rw [if_neg same]
      by_cases before : name < head.1
      next =>
        rw [if_pos before, List.pairwise_cons]
        refine ⟨fun entry member => ?_, ordered⟩
        rcases List.mem_cons.mp member with rfl | later
        · exact before
        · exact String.lt_trans before (above entry later)
      next =>
        rw [if_neg before, List.pairwise_cons]
        refine ⟨fun entry member => ?_, ih rest⟩
        rcases mem_insertValue member with rfl | later
        · apply String.not_le.mp
          intro below
          exact same (String.le_antisymm below (String.not_lt.mp before))
        · exact above entry later

end Model

namespace ModelValue

/-- The integer that an expression spells: a number of 64 bits, or a minus sign applied to one whose
opposite has 64 bits too. -/
inductive IsInteger : Sexp → Int → Prop
  | atom {text : String} {n : Int} (number : Text.int64? text.toList = some n) :
      IsInteger (.atom text) n
  | negated {text : String} {n : Int} (number : Text.int64? text.toList = some n)
      (bound : -9223372036854775808 < n) : IsInteger (.list [.atom "-", .atom text]) (-n)

/-- The minus sign applied to the least number, whose opposite has more than 64 bits. -/
def Overflows (value : Sexp) : Prop :=
  ∃ text : String, value = .list [.atom "-", .atom text] ∧
    Text.int64? text.toList = some (-9223372036854775808)

inductive Given : String → Sexp → ModelValue → Prop
  | int {value : Sexp} {n : Int} (number : IsInteger value n) : Given "Int" value (.int n)
  | real (value : Sexp) : Given "Real" value (.real value.render)
  | true : Given "Bool" (.atom "true") (.bool true)
  | false : Given "Bool" (.atom "false") (.bool false)
  | other {sort : String} {value : Sexp} (noInteger : sort = "Int" → ∀ n, ¬IsInteger value n)
      (noReal : sort ≠ "Real")
      (noTruth : sort = "Bool" → value ≠ .atom "true" ∧ value ≠ .atom "false") :
      Given sort value (.other value.render)

theorem integer_eq_some_iff {value : Sexp} (fits : ¬Overflows value) {n : Int} :
    integer? value = some n ↔ IsInteger value n := by
  constructor
  next =>
    intro read
    unfold integer? at read
    split at read
    next text => exact .atom read
    next text =>
      obtain ⟨m, number, rfl⟩ := Option.map_eq_some_iff.mp read
      have bound := (Text.int64_bounds number).1
      have other : m ≠ -9223372036854775808 := by
        rintro rfl
        exact fits ⟨text, rfl, number⟩
      exact .negated number (by omega)
    next => cases read
  next =>
    intro number
    cases number with
    | atom number => exact number
    | negated number => simp [integer?, number]

theorem atom_of_render {value : Sexp} (unlisted : value.render.toList.head? ≠ some '(') :
    value = .atom value.render := by
  cases value with
  | atom text => rfl
  | list items =>
    rw [Sexp.render] at unlisted
    simp at unlisted

theorem given_iff {sort : String} {value : Sexp} (fits : sort = "Int" → ¬Overflows value)
    {v : ModelValue} : Given sort value v ↔ v = .read sort value := by
  -- A list is rendered with its parentheses, so only an atom can read as a truth value.
  have truth {text : String} (rendered : value.render = text)
      (unlisted : text.toList.head? ≠ some '(') : value = .atom text :=
    rendered ▸ atom_of_render (rendered ▸ unlisted)
  constructor
  next =>
    intro given
    cases given with
    | int number => simp [read, (integer_eq_some_iff (fits rfl)).mpr number]
    | real => rfl
    | true => rfl
    | false => rfl
    | other noInteger noReal noTruth =>
      unfold read
      split
      next =>
        split
        next n read => exact absurd ((integer_eq_some_iff (fits rfl)).mp read) (noInteger rfl n)
        next => rfl
      next => exact absurd rfl noReal
      next =>
        split
        next rendered => exact absurd (truth rendered (by decide)) (noTruth rfl).1
        next rendered => exact absurd (truth rendered (by decide)) (noTruth rfl).2
        next => rfl
      next => rfl
  next =>
    rintro rfl
    unfold read
    split
    next =>
      split
      next n read => exact .int ((integer_eq_some_iff (fits rfl)).mp read)
      next unread =>
        refine .other (fun _ n number => ?_) (by decide) (fun same => absurd same (by decide))
        rw [(integer_eq_some_iff (fits rfl)).mpr number] at unread
        cases unread
    next => exact .real value
    next =>
      split
      next rendered => exact truth rendered (by decide) ▸ .true
      next rendered => exact truth rendered (by decide) ▸ .false
      next noTrue noFalse =>
        refine .other (fun same => absurd same (by decide)) (by decide) (fun _ => ⟨?_, ?_⟩)
        · rintro rfl
          exact noTrue rfl
        · rintro rfl
          exact noFalse rfl
    next noInt noReal noBool =>
      exact .other (fun same => absurd same noInt) noReal (fun same => absurd same noBool)

end ModelValue

inductive Sexp.DefinitionFree : Sexp → Prop
  | atom (text : String) : DefinitionFree (.atom text)
  | list {items : List Sexp} (head : items.head? ≠ some (.atom "define-fun"))
      (each : ∀ item ∈ items, DefinitionFree item) : DefinitionFree (.list items)

structure FunctionDefinition where
  name : String
  parameters : List Sexp
  sort : Sexp
  body : Sexp
  takesSome : parameters ≠ []
  parametersFree : (Sexp.list parameters).DefinitionFree
  sortFree : sort.DefinitionFree
  bodyFree : body.DefinitionFree

inductive ModelEntry where
  | constant (name sort : String) (value : Sexp)
  | function (definition : FunctionDefinition)

def ModelEntry.tree : ModelEntry → Sexp
  | .constant name sort value =>
      .list [.atom "define-fun", .atom name, .list [], .atom sort, value]
  | .function f => .list [.atom "define-fun", .atom f.name, .list f.parameters, f.sort, f.body]

/-- How the entries of a model stand in its text: by themselves, in a list, or in a list after the
word `model`. -/
inductive ModelFrame where
  | bare
  | enclosed
  | labelled

def ModelFrame.items : ModelFrame → List Sexp → List Sexp
  | .bare, entries => entries
  | .enclosed, entries => [.list entries]
  | .labelled, entries => [.list (.atom "model" :: entries)]

namespace Model

theorem binding_eq_none {items : List Sexp} (head : items.head? ≠ some (.atom "define-fun")) :
    binding? items = none := by
  unfold binding?
  split
  next => simp at head
  next => rfl

theorem addFromAll_unchanged {items : List Sexp}
    (each : ∀ item ∈ items, ∀ m : Model, m.addFrom item = m) (m : Model) :
    m.addFromAll items = m := by
  induction items with
  | nil => rfl
  | cons item items ih =>
    rw [addFromAll, each item (by simp)]
    exact ih fun other member => each other (by simp [member])

theorem addFrom_free {tree : Sexp} (free : tree.DefinitionFree) (m : Model) :
    m.addFrom tree = m := by
  induction free generalizing m with
  | atom => rfl
  | list head each ih =>
    rw [addFrom, binding_eq_none head]
    exact addFromAll_unchanged ih m

def addEntry (m : Model) : ModelEntry → Model
  | .constant name sort value => m.insert name (.read sort value)
  | .function _ => m

theorem addFrom_tree (m : Model) (entry : ModelEntry) :
    m.addFrom entry.tree = m.addEntry entry := by
  cases entry with
  | constant name sort value => simp [ModelEntry.tree, addFrom, binding?, addEntry]
  | function f =>
    have none : binding? [.atom "define-fun", .atom f.name, .list f.parameters, f.sort, f.body] =
        none := by
      unfold binding?
      split
      next same =>
        simp only [List.cons.injEq, Sexp.list.injEq] at same
        exact absurd same.2.2.1 f.takesSome
      next => rfl
    have parts : ∀ item ∈ [.atom "define-fun", .atom f.name, .list f.parameters, f.sort, f.body],
        item.DefinitionFree := by
      simp [Sexp.DefinitionFree.atom, f.parametersFree, f.sortFree, f.bodyFree]
    rw [ModelEntry.tree, addFrom, none]
    exact addFromAll_unchanged (fun item member => addFrom_free (parts item member)) m

theorem addFromAll_trees (m : Model) (entries : List ModelEntry) :
    m.addFromAll (entries.map ModelEntry.tree) = entries.foldl addEntry m := by
  induction entries generalizing m with
  | nil => rfl
  | cons entry entries ih =>
    rw [List.map_cons, addFromAll, addFrom_tree, ih, List.foldl_cons]

theorem addFromAll_items (m : Model) (frame : ModelFrame) (entries : List ModelEntry) :
    m.addFromAll (frame.items (entries.map ModelEntry.tree)) = entries.foldl addEntry m := by
  have listed : (entries.map ModelEntry.tree).head? ≠ some (.atom "define-fun") := by
    cases entries with
    | nil => simp
    | cons entry entries => cases entry <;> simp [ModelEntry.tree]
  cases frame with
  | bare => exact addFromAll_trees m entries
  | enclosed =>
    rw [ModelFrame.items, addFromAll, addFromAll, addFrom, binding_eq_none listed]
    exact addFromAll_trees m entries
  | labelled =>
    have other : (.atom "model" :: entries.map ModelEntry.tree : List Sexp).head? ≠
        some (.atom "define-fun") := by simp
    rw [ModelFrame.items, addFromAll, addFromAll, addFrom, binding_eq_none other]
    exact addFromAll_trees m entries

theorem get_addEntry_of_ne {name : String} {entry : ModelEntry}
    (other : ∀ sort value, entry ≠ .constant name sort value) (m : Model) :
    (m.addEntry entry).get? name = m.get? name := by
  cases entry with
  | constant own sort value =>
    have apart : name ≠ own := fun same => other sort value (same ▸ rfl)
    rw [addEntry, get_insert, if_neg apart]
  | function => rfl

theorem get_foldl_of_absent {name : String} {entries : List ModelEntry}
    (absent : ∀ sort value, .constant name sort value ∉ entries) (m : Model) :
    (entries.foldl addEntry m).get? name = m.get? name := by
  induction entries generalizing m with
  | nil => rfl
  | cons entry entries ih =>
    have first : ∀ sort value, entry ≠ .constant name sort value := by
      intro sort value same
      exact absent sort value (by simp [same])
    have rest : ∀ sort value, .constant name sort value ∉ entries := by
      intro sort value member
      exact absent sort value (by simp [member])
    rw [List.foldl_cons, ih rest, get_addEntry_of_ne first]

theorem ordered_foldl (entries : List ModelEntry) {m : Model} (ordered : m.Ordered) :
    (entries.foldl addEntry m).Ordered := by
  induction entries generalizing m with
  | nil => exact ordered
  | cons entry entries ih =>
    rw [List.foldl_cons]
    apply ih
    cases entry with
    | constant name sort value => exact ordered_insertValue name (.read sort value) ordered
    | function => exact ordered

end Model

namespace ModelEntry

def IsLast (entries : List ModelEntry) (name sort : String) (value : Sexp) : Prop :=
  ∃ before after, entries = before ++ constant name sort value :: after ∧
    ∀ sort value, constant name sort value ∉ after

theorem exists_last {entries : List ModelEntry} {name : String}
    (defined : ∃ sort value, constant name sort value ∈ entries) :
    ∃ sort value, IsLast entries name sort value := by
  induction entries with
  | nil =>
    obtain ⟨sort, value, member⟩ := defined
    cases member
  | cons entry entries ih =>
    by_cases later : ∃ sort value, constant name sort value ∈ entries
    next =>
      obtain ⟨sort, value, before, after, rfl, absent⟩ := ih later
      exact ⟨sort, value, entry :: before, after, rfl, absent⟩
    next =>
      simp only [not_exists] at later
      obtain ⟨sort, value, member⟩ := defined
      rcases List.mem_cons.mp member with rfl | rest
      · exact ⟨sort, value, [], entries, rfl, later⟩
      · exact absurd rest (later sort value)

end ModelEntry

namespace Model

theorem get_foldl_of_last {entries : List ModelEntry} {name sort : String} {value : Sexp}
    (last : ModelEntry.IsLast entries name sort value) (m : Model) :
    (entries.foldl addEntry m).get? name = some (.read sort value) := by
  obtain ⟨before, after, rfl, absent⟩ := last
  rw [List.foldl_append, List.foldl_cons, get_foldl_of_absent absent, addEntry, get_insert,
    if_pos rfl]

theorem parse_of_reads {text : String} {items : List Sexp} (reads : Sexp.Reads text.toList items) :
    parse text = addFromAll {} items := by
  rw [parse, Sexp.readAll, reads.readChars]

/-- Whatever white space stands in the text of a model, and however its entries are framed, it
gives each constant the value of its last definition and has no other names. -/
theorem parse_recovers_constants (entries : List ModelEntry) (frame : ModelFrame) (text : String)
    (written : Sexp.IsText (frame.items (entries.map ModelEntry.tree)) text.toList)
    (fits : ∀ name value, .constant name "Int" value ∈ entries → ¬ModelValue.Overflows value) :
    (parse text).Ordered ∧
      (∀ name, (∃ v, (parse text).get? name = some v) ↔
        ∃ sort value, .constant name sort value ∈ entries) ∧
      ∀ name sort value, ModelEntry.IsLast entries name sort value →
        ∀ v, (parse text).get? name = some v ↔ ModelValue.Given sort value v := by
  have parsed : parse text = entries.foldl addEntry {} := by
    rw [parse_of_reads written.reads, addFromAll_items]
  rw [parsed]
  refine ⟨ordered_foldl entries List.Pairwise.nil, ?_, ?_⟩
  next =>
    intro name
    constructor
    next =>
      rintro ⟨v, found⟩
      by_contra undefined
      simp only [not_exists] at undefined
      rw [get_foldl_of_absent undefined] at found
      cases found
    next =>
      intro defined
      obtain ⟨sort, value, last⟩ := ModelEntry.exists_last defined
      exact ⟨_, get_foldl_of_last last {}⟩
  next =>
    intro name sort value last v
    have member : .constant name sort value ∈ entries := by
      obtain ⟨before, after, rfl, -⟩ := last
      simp
    have given := ModelValue.given_iff (v := v) fun same => fits name value (same ▸ member)
    rw [get_foldl_of_last last, Option.some.injEq, given]
    exact eq_comm

def successorDefinition : FunctionDefinition where
  name := "f"
  parameters := [.list [.atom "a", .atom "Int"]]
  sort := .atom "Int"
  body := .list [.atom "+", .atom "a", .atom "1"]
  takesSome := by simp
  parametersFree :=
    have parameter : (Sexp.list [.atom "a", .atom "Int"]).DefinitionFree :=
      .list (by simp) (by simp [Sexp.DefinitionFree.atom])
    .list (by simp) (by simpa using parameter)
  sortFree := .atom "Int"
  bodyFree := .list (by simp) (by simp [Sexp.DefinitionFree.atom])

theorem parse_recovers_constants_shadowed :
    let entries : List ModelEntry :=
      [.constant "x" "Int" (.atom "7"), .function successorDefinition,
        .constant "s" "String" (.atom "\"( \""), .constant "x" "Int" (.list [.atom "-", .atom "8"])]
    let text := "(model\n(define-fun x()Int 7)\t(define-fun f((a Int))Int(+ a 1))" ++
      "(define-fun s () String \"( \" )\r\n (define-fun\tx () Int(-  8)) )"
    Sexp.IsText (ModelFrame.labelled.items (entries.map ModelEntry.tree)) text.toList ∧
      (parse text).get? "x" = some (.int (-8)) ∧ (parse text).get? "f" = none ∧
      (parse text).get? "s" = some (.other "\"( \"") := by
  intro entries text
  have older : Sexp.Spells (ModelEntry.tree (.constant "x" "Int" (.atom "7")))
      "(define-fun x()Int 7)".toList :=
    .list [] rfl (.cons (.atom rfl) [' '] rfl (by decide) (.cons (.atom rfl) [] rfl (by decide)
      (.cons (.list [] rfl .nil) [] rfl (by decide) (.cons (.atom rfl) [' '] rfl (by decide)
        (.cons (.atom rfl) [] rfl (by decide) .nil)))))
  have parameter : Sexp.Spells (.list [.atom "a", .atom "Int"]) "(a Int)".toList :=
    .list [] rfl (.cons (.atom rfl) [' '] rfl (by decide)
      (.cons (.atom rfl) [] rfl (by decide) .nil))
  have body : Sexp.Spells successorDefinition.body "(+ a 1)".toList :=
    .list [] rfl (.cons (.atom rfl) [' '] rfl (by decide) (.cons (.atom rfl) [' '] rfl (by decide)
      (.cons (.atom rfl) [] rfl (by decide) .nil)))
  have function : Sexp.Spells (ModelEntry.tree (.function successorDefinition))
      "(define-fun f((a Int))Int(+ a 1))".toList :=
    .list [] rfl (.cons (.atom rfl) [' '] rfl (by decide) (.cons (.atom rfl) [] rfl (by decide)
      (.cons (.list [] rfl (.cons parameter [] rfl (by decide) .nil)) [] rfl (by decide)
        (.cons (.atom rfl) [] rfl (by decide) (.cons body [] rfl (by decide) .nil)))))
  have quoted : Sexp.Spells (ModelEntry.tree (.constant "s" "String" (.atom "\"( \"")))
      "(define-fun s () String \"( \" )".toList :=
    .list [] rfl (.cons (.atom rfl) [' '] rfl (by decide) (.cons (.atom rfl) [' '] rfl (by decide)
      (.cons (.list [] rfl .nil) [' '] rfl (by decide) (.cons (.atom rfl) [' '] rfl (by decide)
        (.cons (.atom rfl) [' '] rfl (by decide) .nil)))))
  have negative : Sexp.Spells (.list [.atom "-", .atom "8"]) "(-  8)".toList :=
    .list [] rfl (.cons (.atom rfl) [' ', ' '] rfl (by decide)
      (.cons (.atom rfl) [] rfl (by decide) .nil))
  have newer : Sexp.Spells (ModelEntry.tree (.constant "x" "Int" (.list [.atom "-", .atom "8"])))
      "(define-fun\tx () Int(-  8))".toList :=
    .list [] rfl (.cons (.atom rfl) ['\t'] rfl (by decide) (.cons (.atom rfl) [' '] rfl (by decide)
      (.cons (.list [] rfl .nil) [' '] rfl (by decide) (.cons (.atom rfl) [] rfl (by decide)
        (.cons negative [] rfl (by decide) .nil)))))
  have written : Sexp.IsText (ModelFrame.labelled.items (entries.map ModelEntry.tree))
      text.toList := by
    refine ⟨[], _, rfl, .cons (.list [] rfl (.cons (.atom rfl) ['\n'] rfl (by decide)
      (.cons older ['\t'] rfl (by decide) (.cons function [] rfl (by decide)
        (.cons quoted ['\r', '\n', ' '] rfl (by decide)
          (.cons newer [' '] rfl (by decide) .nil)))))) [] rfl (by decide) .nil, ?_⟩
    decide +kernel
  have fits : ∀ name value, .constant name "Int" value ∈ entries → ¬ModelValue.Overflows value := by
    rintro name value member ⟨text, shape, least⟩
    have number : value = .atom "7" ∨ value = .list [.atom "-", .atom "8"] := by
      simp [entries] at member
      grind
    rcases number with rfl | rfl
    · cases shape
    · cases shape
      revert least
      decide +kernel
  obtain ⟨-, names, values⟩ := parse_recovers_constants entries .labelled text written fits
  refine ⟨written, ?_, ?_, ?_⟩
  next =>
    refine (values "x" "Int" (.list [.atom "-", .atom "8"]) ?_ (.int (-8))).mpr ?_
    · exact ⟨entries.take 3, [], rfl, by simp⟩
    · exact .int (.negated (by decide +kernel) (by decide))
  next =>
    by_contra found
    obtain ⟨v, found⟩ := Option.ne_none_iff_exists'.mp found
    obtain ⟨sort, value, member⟩ := (names "f").mp ⟨v, found⟩
    simp [entries] at member
  next =>
    refine (values "s" "String" (.atom "\"( \"") ?_ (.other "\"( \"")).mpr ?_
    · exact ⟨entries.take 2, entries.drop 3, rfl, by simp [entries]⟩
    · exact .other (by simp) (by decide) (by simp)

end Model

namespace Expr

theorem tree_int_ofNat (n : Nat) : (Expr.int (.ofNat n)).tree = .atom (Text.natText n) := by
  rw [Expr.int, Expr.tree, SmtSort.literalTree, Text.intText]
  unfold signedTree
  split
  next digits negative => exact absurd negative (Text.natText_ne_cons (by decide) n digits)
  next => simp

theorem tree_int_negSucc (n : Nat) :
    (Expr.int (.negSucc n)).tree = .list [.atom "-", .atom (Text.natText (n + 1))] := by
  rw [Expr.int, Expr.tree, SmtSort.literalTree]
  simp [signedTree, Text.intText_negSucc]

theorem valid_int (n : Int) : (Expr.int n).Valid := by
  apply Expr.valid_literal.mpr
  rw [SmtSort.spells]
  cases n with
  | ofNat n =>
    have positive := magnitude_of_positive fun digits negative =>
      Text.natText_ne_cons (by decide) n digits negative
    rw [Text.intText, positive]
    exact Text.isDigits_natText n
  | negSucc n =>
    rw [Text.intText_negSucc]
    exact Text.isDigits_natText (n + 1)

end Expr

theorem passes_definition {name sort : String} (simple : isSimpleSymbol name.toList = true)
    (plain : Sexp.Reads sort.toList [.atom sort]) {e : Expr} (valid : e.Valid) :
    Sexp.Passes ("(define-fun " ++ name ++ " () " ++ sort ++ " " ++ e.print ++ ")").toList
      [ModelEntry.tree (.constant name sort e.tree)] := by
  have blank : Text.isBlank ' ' = true := by decide
  have command := (reads_word "define-fun" (by decide)).blank ' ' blank
  have noParameters := Sexp.Passes.nil.reads.list.append (Sexp.Passes.blank ' ' blank)
  have parts := command.append (((reads_symbol name simple).blank ' ' blank).append
    (noParameters.append (plain.blank ' ' blank)))
  simpa [ModelEntry.tree] using (parts.append_reads (reads_print e valid)).list

theorem Model.parse_definition {name sort : String} (simple : isSimpleSymbol name.toList = true)
    (plain : Sexp.Reads sort.toList [.atom sort]) {e : Expr} (valid : e.Valid) :
    parse ("(define-fun " ++ name ++ " () " ++ sort ++ " " ++ e.print ++ ")") =
      { values := [(name, .read sort e.tree)] } := by
  rw [parse_of_reads (passes_definition simple plain valid).reads, addFromAll, addFromAll,
    addFrom_tree]
  rfl

theorem ModelValue.read_int_tree {n : Int} (lower : -9223372036854775808 ≤ n)
    (upper : n < 9223372036854775808) :
    ModelValue.read "Int" (Expr.int n).tree =
      if n = -9223372036854775808 then .other "(- 9223372036854775808)" else .int n := by
  cases n with
  | ofNat n =>
    have fits : n < 9223372036854775808 := by
      rw [Int.ofNat_eq_natCast] at upper
      omega
    have other : Int.ofNat n ≠ -9223372036854775808 := by
      rw [Int.ofNat_eq_natCast]
      omega
    have number : integer? (.atom (Text.natText n)) = some (n : Int) := by
      rw [integer?, Text.int64_natText, if_pos fits]
    rw [Expr.tree_int_ofNat, if_neg other]
    simp [read, number]
  | negSucc n =>
    have number : integer? (.list [.atom "-", .atom (Text.natText (n + 1))]) =
        if n + 1 < 9223372036854775808 then some (.negSucc n) else none := by
      rw [integer?, Text.int64_natText]
      split <;> rfl
    rw [Expr.tree_int_negSucc]
    by_cases fits : n + 1 < 9223372036854775808
    next =>
      have other : Int.negSucc n ≠ -9223372036854775808 := by omega
      rw [if_neg other]
      simp [read, number, fits]
    next =>
      have least : n + 1 = 9223372036854775808 := by omega
      have same : Int.negSucc n = -9223372036854775808 := by omega
      have digits : Text.natText 9223372036854775808 = "9223372036854775808" := by decide +kernel
      rw [if_neg fits, least, digits] at number
      rw [if_pos same, least, digits]
      simp [read, number, Sexp.render, Sexp.renderAll]

/-- A printed integer is read back from the definition of a constant, the least one of 64 bits
excepted: of it only the spelling is left. -/
theorem Model.printed_integer_read_back_iff (name : String)
    (simple : isSimpleSymbol name.toList = true) (n : Int64) :
    let text := "(define-fun " ++ name ++ " () Int " ++ (Expr.int n.toInt).print ++ ")"
    (parse text).values = [(name, if n = Int64.minValue then .other "(- 9223372036854775808)"
      else .int n.toInt)] ∧
      ((parse text).int? name = some n.toInt ↔ n ≠ Int64.minValue) := by
  intro text
  have least : n.toInt = -9223372036854775808 ↔ n = Int64.minValue := by
    rw [← Int64.toInt_inj, Int64.toInt_minValue]
    omega
  have parsed : (parse text).values = [(name, if n = Int64.minValue then
      .other "(- 9223372036854775808)" else .int n.toInt)] := by
    have lower := n.le_toInt
    have upper := n.toInt_lt
    have read := ModelValue.read_int_tree (n := n.toInt) (by omega) (by omega)
    simp only [least] at read
    have parts : text = "(define-fun " ++ name ++ " () " ++ "Int" ++ " " ++
        (Expr.int n.toInt).print ++ ")" := by
      apply String.toList_inj.mp
      simp [text]
    rw [parts, parse_definition simple (reads_word "Int" (by decide)) (Expr.valid_int n.toInt),
      read]
  refine ⟨parsed, ?_⟩
  rw [int?, get?, parsed, List.lookup_cons_self]
  by_cases same : n = Int64.minValue
  next => simp [same]
  next => simp [same]

theorem Model.printed_integer_read_back_negative :
    let n : Int64 := -9223372036854775807
    isSimpleSymbol "x!0".toList = true ∧
      (parse ("(define-fun " ++ "x!0" ++ " () Int " ++ (Expr.int n.toInt).print ++ ")")).int?
        "x!0" = some n.toInt := by
  intro n
  have simple : isSimpleSymbol "x!0".toList = true := by decide
  have other : n ≠ Int64.minValue := by decide
  exact ⟨simple, (printed_integer_read_back_iff "x!0" simple n).2.mpr other⟩

theorem Model.least_integer_not_read_back :
    isSimpleSymbol "x".toList = true ∧
      (parse ("(define-fun x () Int " ++ (Expr.int Int64.minValue.toInt).print ++ ")")).int? "x" =
        none := by
  decide +kernel

end PathEquiv
