import PathEquiv.Proofs.Solver.Model
import PathEquiv.Proofs.Text.Search
import PathEquiv.Run.Artifact
import PathEquiv.Solver.Config

set_option autoImplicit false

namespace PathEquiv

inductive Placeholder where
  | query
  | seconds
  | millis
  deriving DecidableEq

namespace Placeholder

def text : Placeholder → String
  | query => queryPlaceholder
  | seconds => secondsPlaceholder
  | millis => millisPlaceholder

def all : List Placeholder :=
  [query, seconds, millis]

-- `skip` counts the characters of the current placeholder still to be passed over.
def fillFrom (value : Placeholder → List Char) : (skip : Nat) → List Char → List Char
  | _, [] => []
  | skip + 1, _ :: rest => fillFrom value skip rest
  | 0, c :: rest =>
      match all.find? fun p => Text.startsWith p.text.toList (c :: rest) with
      | some p => value p ++ fillFrom value (p.text.toList.length - 1) rest
      | none => c :: fillFrom value 0 rest

/-- Fills in all placeholders in one scan from left to right. Values are not looked at again. -/
def fill (value : Placeholder → List Char) (cs : List Char) : List Char :=
  fillFrom value 0 cs

def values (path seconds millis : List Char) : Placeholder → List Char
  | .query => path
  | .seconds => seconds
  | .millis => millis

def name (p : Placeholder) : List Char :=
  p.text.toList.tail

theorem toList_text (p : Placeholder) : p.text.toList = '\x7b' :: p.name := by
  cases p <;> rfl

theorem brace_not_mem_name (p : Placeholder) : '\x7b' ∉ p.name := by
  cases p <;> decide

theorem digit_not_mem_name {c : Char} (digit : Text.isDecimalDigit c = true) (p : Placeholder) :
    c ∉ p.name := by
  have free : p.name.all (fun c => !Text.isDecimalDigit c) = true := by
    cases p <;> decide
  intro member
  have other := List.all_eq_true.mp free c member
  rw [digit] at other
  cases other

theorem not_prefix_of_ne (p : Placeholder) {c : Char} (other : c ≠ '\x7b') (rest : List Char) :
    ¬p.text.toList <+: c :: rest := by
  intro starts
  rw [toList_text, List.cons_prefix_cons] at starts
  exact other starts.1.symm

theorem startsWith_text (p q : Placeholder) (rest : List Char) :
    Text.startsWith p.text.toList (q.text.toList ++ rest) = decide (p = q) := by
  cases p <;> cases q <;> rfl

theorem fill_text (value : Placeholder → List Char) (p : Placeholder) (rest : List Char) :
    fill value (p.text.toList ++ rest) = value p ++ fill value rest := by
  cases p <;> rfl

theorem fill_char (value : Placeholder → List Char) {c : Char} {rest : List Char}
    (plain : ∀ p : Placeholder, ¬p.text.toList <+: c :: rest) :
    fill value (c :: rest) = c :: fill value rest := by
  have none : all.find? (fun p => Text.startsWith p.text.toList (c :: rest)) = none := by
    rw [List.find?_eq_none]
    intro p _ starts
    exact plain p (Text.startsWith_iff.mp starts)
  rw [fill, fillFrom, none]
  rfl

theorem scan_induction {motive : List Char → Prop} (nil : motive [])
    (placeholder : ∀ (p : Placeholder) rest, motive rest → motive (p.text.toList ++ rest))
    (char : ∀ c rest, (∀ p : Placeholder, ¬p.text.toList <+: c :: rest) → motive rest →
      motive (c :: rest)) : (cs : List Char) → motive cs
  | [] => nil
  | c :: rest => by
    by_cases found : ∃ p : Placeholder, p.text.toList <+: c :: rest
    next =>
      obtain ⟨p, after, shape⟩ := found
      have shorter : after.length < (c :: rest).length := by
        rw [← shape, toList_text, List.length_append, List.length_cons]
        omega
      rw [← shape]
      exact placeholder p after (scan_induction nil placeholder char after)
    next => exact char c rest (not_exists.mp found) (scan_induction nil placeholder char rest)
  termination_by cs => cs.length
  decreasing_by
    · exact shorter
    · exact Nat.lt_succ_self rest.length

def only (p : Placeholder) (value : List Char) (q : Placeholder) : List Char :=
  if q = p then value else q.text.toList

theorem replaceAll_text (p q : Placeholder) (value rest : List Char) :
    Text.replaceAll p.text.toList value (q.text.toList ++ rest) =
      p.only value q ++ Text.replaceAll p.text.toList value rest := by
  cases p <;> cases q <;> rfl

theorem replaceAll_eq_fill (p : Placeholder) (value cs : List Char) :
    Text.replaceAll p.text.toList value cs = fill (only p value) cs := by
  induction cs using scan_induction with
  | nil => rfl
  | placeholder q rest ih => rw [fill_text, replaceAll_text, ih]
  | char c rest plain ih =>
    have here : ¬Text.startsWith p.text.toList (c :: rest) := fun starts =>
      plain p (Text.startsWith_iff.mp starts)
    rw [fill_char _ plain, ← ih, Text.replaceAll, Text.replaceFrom, if_neg here]
    rfl

theorem fill_plain (value : Placeholder → List Char) {xs : List Char} (plain : '\x7b' ∉ xs)
    (rest : List Char) : fill value (xs ++ rest) = xs ++ fill value rest := by
  induction xs with
  | nil => rfl
  | cons x xs ih =>
    rw [List.mem_cons, not_or] at plain
    have passed (p : Placeholder) := p.not_prefix_of_ne (Ne.symm plain.1) (xs ++ rest)
    rw [List.cons_append, fill_char _ passed, ih plain.2, List.cons_append]

-- A placeholder whose value is its own text is scanned as any text is.
theorem fill_kept {value : Placeholder → List Char} {c : Char} {rest : List Char}
    (kept : ∀ p : Placeholder, p.text.toList <+: c :: rest → value p = p.text.toList) :
    fill value (c :: rest) = c :: fill value rest := by
  by_cases found : ∃ p : Placeholder, p.text.toList <+: c :: rest
  next =>
    obtain ⟨p, starts⟩ := found
    obtain ⟨after, shape⟩ := starts
    have parts := shape
    rw [toList_text, List.cons_append, List.cons.injEq] at parts
    rw [← shape, fill_text, kept p ⟨after, shape⟩, ← parts.1, ← parts.2,
      fill_plain value p.brace_not_mem_name, toList_text]
    rfl
  next => exact fill_char value (not_exists.mp found)

/-- No value starts with a character of a placeholder after its first, so that filling in values
does not complete a placeholder. -/
def Apart (value : Placeholder → List Char) : Prop :=
  ∀ p, ∃ c rest, value p = c :: rest ∧ ∀ q : Placeholder, c ∉ q.name

theorem prefix_fill {value : Placeholder → List Char} (apart : Apart value) (q : Placeholder)
    {part : List Char} (within : part ⊆ q.name) (cs : List Char) :
    part <+: fill value cs ↔ part <+: cs := by
  induction cs using scan_induction generalizing part with
  | nil => rfl
  | placeholder p rest ih =>
    obtain ⟨c, others, shape, free⟩ := apart p
    have first := Text.prefix_separated (fun member => free q (within member)) []
      (others ++ fill value rest)
    have second := Text.prefix_separated (fun member => q.brace_not_mem_name (within member)) []
      (p.name ++ rest)
    rw [fill_text, shape, toList_text]
    exact first.trans second.symm
  | char c rest plain ih =>
    rw [fill_char value plain]
    cases part with
    | nil => simp
    | cons d part =>
      rw [List.cons_prefix_cons, List.cons_prefix_cons, ih (List.subset_of_cons_subset within)]

theorem text_prefix_fill {value : Placeholder → List Char} (apart : Apart value) (p : Placeholder)
    (c : Char) (cs : List Char) :
    p.text.toList <+: c :: fill value cs ↔ p.text.toList <+: c :: cs := by
  rw [toList_text, List.cons_prefix_cons, List.cons_prefix_cons,
    prefix_fill apart p (List.Subset.refl _)]

theorem fill_fill {value next combined : Placeholder → List Char} (apart : Apart value)
    (pieces : ∀ p rest, fill next (value p ++ rest) = combined p ++ fill next rest)
    (cs : List Char) : fill next (fill value cs) = fill combined cs := by
  induction cs using scan_induction with
  | nil => rfl
  | placeholder p rest ih => rw [fill_text, pieces, ih, fill_text]
  | char c rest plain ih =>
    have passed : ∀ p : Placeholder, ¬p.text.toList <+: c :: fill value rest := by
      intro p starts
      exact plain p ((text_prefix_fill apart p c rest).mp starts)
    rw [fill_char value plain, fill_char next passed, ih, fill_char combined plain]

section

variable {s m : List Char} (secondsDigits : Text.isDigits s = true)
  (millisDigits : Text.isDigits m = true)

def times (seconds millis : List Char) : Placeholder → List Char :=
  values query.text.toList seconds millis

theorem exists_digit_cons {cs : List Char} (digits : Text.isDigits cs = true) :
    ∃ c rest, cs = c :: rest ∧ ∀ q : Placeholder, c ∉ q.name := by
  obtain ⟨given, each⟩ := Text.isDigits_iff.mp digits
  obtain ⟨c, rest, rfl⟩ := List.exists_cons_of_ne_nil given
  exact ⟨c, rest, rfl, digit_not_mem_name (each c (by simp))⟩

theorem exists_text_cons (p : Placeholder) :
    ∃ c rest, p.text.toList = c :: rest ∧ ∀ q : Placeholder, c ∉ q.name :=
  ⟨'\x7b', p.name, p.toList_text, brace_not_mem_name⟩

include secondsDigits in
theorem apart_only_seconds : Apart (only .seconds s) := by
  intro p
  cases p with
  | query => exact exists_text_cons .query
  | seconds => exact exists_digit_cons secondsDigits
  | millis => exact exists_text_cons .millis

include secondsDigits millisDigits in
theorem apart_times : Apart (times s m) := by
  intro p
  cases p with
  | query => exact exists_text_cons .query
  | seconds => exact exists_digit_cons secondsDigits
  | millis => exact exists_digit_cons millisDigits

include secondsDigits in
theorem fill_millis_fill_seconds (cs : List Char) :
    fill (only .millis m) (fill (only .seconds s) cs) = fill (times s m) cs := by
  apply fill_fill (apart_only_seconds secondsDigits)
  intro p rest
  cases p with
  | query => exact fill_text _ .query rest
  | seconds => exact fill_plain _ (Text.not_mem_of_isDigits (by decide) secondsDigits) rest
  | millis => exact fill_text _ .millis rest

def TimeFree (cs : List Char) : Prop :=
  ∀ p : Placeholder, p ≠ .query → ¬p.text.toList <:+: cs

theorem TimeFree.of_append (xs : List Char) {rest : List Char} (free : TimeFree (xs ++ rest)) :
    TimeFree rest :=
  fun p time occurs => free p time (occurs.trans (List.suffix_append xs rest).isInfix)

theorem TimeFree.not_prefix {c : Char} {rest : List Char} (free : TimeFree (c :: rest))
    {p : Placeholder} (time : p ≠ .query) : ¬p.text.toList <+: c :: rest :=
  fun starts => free p time starts.isInfix

theorem timeFree_cons {c : Char} {rest : List Char}
    (here : ∀ p : Placeholder, p ≠ .query → ¬p.text.toList <+: c :: rest) (free : TimeFree rest) :
    TimeFree (c :: rest) := by
  intro p time occurs
  rcases List.infix_cons_iff.mp occurs with starts | later
  · exact here p time starts
  · exact free p time later

theorem timeFree_plain {xs rest : List Char} (plain : '\x7b' ∉ xs) (free : TimeFree rest) :
    TimeFree (xs ++ rest) := by
  induction xs with
  | nil => exact free
  | cons x xs ih =>
    rw [List.mem_cons, not_or] at plain
    exact timeFree_cons (fun p _ => p.not_prefix_of_ne (Ne.symm plain.1) _) (ih plain.2)

theorem timeFree_query {rest : List Char} (free : TimeFree rest) :
    TimeFree (query.text.toList ++ rest) := by
  have named := timeFree_plain query.brace_not_mem_name free
  rw [toList_text]
  refine timeFree_cons (fun p time starts => ?_) named
  have same := startsWith_text p .query rest
  rw [Text.startsWith_iff.mpr (toList_text .query ▸ starts)] at same
  exact time (of_decide_eq_true same.symm)

include secondsDigits millisDigits in
theorem timeFree_fill (cs : List Char) : TimeFree (fill (times s m) cs) := by
  induction cs using scan_induction with
  | nil =>
    intro p _ occurs
    rw [toList_text] at occurs
    exact absurd (List.infix_nil.mp occurs) (List.cons_ne_nil _ _)
  | placeholder p rest ih =>
    rw [fill_text]
    cases p with
    | query => exact timeFree_query ih
    | seconds => exact timeFree_plain (Text.not_mem_of_isDigits (by decide) secondsDigits) ih
    | millis => exact timeFree_plain (Text.not_mem_of_isDigits (by decide) millisDigits) ih
  | char c rest plain ih =>
    rw [fill_char _ plain]
    refine timeFree_cons (fun p _ starts => ?_) ih
    exact plain p ((text_prefix_fill (apart_times secondsDigits millisDigits) p c rest).mp starts)

-- Before `rest` stands a text of the path: it is kept unless a time is filled in.
include secondsDigits millisDigits in
theorem fill_times_append (xs : List Char) {rest : List Char}
    (free : TimeFree (xs ++ fill (times s m) rest)) :
    fill (times s m) (xs ++ rest) = xs ++ fill (times s m) rest := by
  induction xs with
  | nil => rfl
  | cons x xs ih =>
    have later := ih (TimeFree.of_append [x] free)
    rw [List.cons_append, ← later] at free
    rw [List.cons_append, List.cons_append, ← later]
    apply fill_kept
    intro p starts
    have apart := apart_times secondsDigits millisDigits
    by_cases path : p = .query
    next =>
      rw [path]
      rfl
    next => exact absurd ((text_prefix_fill apart p x _).mpr starts) (free.not_prefix path)

include secondsDigits millisDigits in
theorem fill_times_fill_path {path cs : List Char}
    (free : TimeFree (fill (values path s m) cs)) :
    fill (times s m) (fill (only .query path) cs) = fill (values path s m) cs := by
  induction cs using scan_induction with
  | nil => rfl
  | placeholder p rest ih =>
    rw [fill_text] at free
    have later := ih (free.of_append _)
    rw [fill_text, fill_text, ← later]
    cases p with
    | query =>
      rw [← later] at free
      exact fill_times_append secondsDigits millisDigits path free
    | seconds => exact fill_text _ .seconds _
    | millis => exact fill_text _ .millis _
  | char c rest plain ih =>
    rw [fill_char _ plain] at free
    have later := ih (TimeFree.of_append [c] free)
    rw [← later] at free
    rw [fill_char _ plain, fill_char _ plain, ← later]
    exact fill_times_append secondsDigits millisDigits [c] free

include secondsDigits millisDigits in
theorem fill_times_fill_path_iff (path cs : List Char) :
    fill (times s m) (fill (only .query path) cs) = fill (values path s m) cs ↔
      TimeFree (fill (values path s m) cs) := by
  constructor
  next =>
    intro same
    rw [← same]
    exact timeFree_fill secondsDigits millisDigits _
  next => exact fill_times_fill_path secondsDigits millisDigits

end

end Placeholder

def filled (path seconds millis argument : String) : String :=
  String.ofList (Placeholder.fill
    (Placeholder.values path.toList seconds.toList millis.toList) argument.toList)

def holdsTime (text : String) : Bool :=
  Text.hasPart secondsPlaceholder text || Text.hasPart millisPlaceholder text

theorem timeFree_iff (text : String) :
    Placeholder.TimeFree text.toList ↔ holdsTime text = false := by
  rw [holdsTime, Bool.or_eq_false_iff, ← Bool.not_eq_true, ← Bool.not_eq_true,
    Text.hasPart_iff, Text.hasPart_iff]
  constructor
  next => exact fun free => ⟨free .seconds (by decide), free .millis (by decide)⟩
  next =>
    intro both p time
    cases p with
    | query => exact absurd rfl time
    | seconds => exact both.1
    | millis => exact both.2

theorem replaced_eq (p : Placeholder) (value text : String) :
    Text.replaced p.text value text =
      String.ofList (Placeholder.fill (p.only value.toList) text.toList) := by
  rw [Text.replaced, Placeholder.replaceAll_eq_fill]

theorem only_query (path : List Char) :
    Placeholder.query.only path =
      Placeholder.values path secondsPlaceholder.toList millisPlaceholder.toList := by
  funext p
  cases p <;> rfl

theorem filled_query (path seconds millis : String) :
    filled path seconds millis queryPlaceholder = path := by
  have text := Placeholder.fill_text
    (Placeholder.values path.toList seconds.toList millis.toList) .query []
  rw [List.append_nil] at text
  apply String.toList_inj.mp
  rw [filled, String.toList_ofList]
  exact text.trans (List.append_nil path.toList)

namespace SolverConfig

theorem fillIn_eq (config : SolverConfig) (path argument : String) :
    config.fillIn path argument =
      filled queryPlaceholder (Text.natText config.seconds)
        (Text.natText (config.seconds * 1000))
        (filled path secondsPlaceholder millisPlaceholder argument) := by
  have digits := Text.isDigits_natText config.seconds
  calc config.fillIn path argument
      = Text.replaced Placeholder.millis.text (Text.natText (config.seconds * 1000))
          (Text.replaced Placeholder.seconds.text (Text.natText config.seconds)
            (Text.replaced Placeholder.query.text path argument)) := rfl
    _ = String.ofList (Placeholder.fill
          (Placeholder.millis.only (Text.natText (config.seconds * 1000)).toList)
          (Placeholder.fill (Placeholder.seconds.only (Text.natText config.seconds).toList)
            (Placeholder.fill (Placeholder.query.only path.toList) argument.toList))) := by
        simp only [replaced_eq, String.toList_ofList]
    _ = filled queryPlaceholder (Text.natText config.seconds)
          (Text.natText (config.seconds * 1000))
          (filled path secondsPlaceholder millisPlaceholder argument) := by
        rw [Placeholder.fill_millis_fill_seconds digits, only_query, filled, filled,
          String.toList_ofList]
        rfl

theorem fillIn_eq_filled_iff (config : SolverConfig) (path argument : String) :
    let wanted := filled path (Text.natText config.seconds) (Text.natText (config.seconds * 1000))
      argument
    config.fillIn path argument = wanted ↔ holdsTime wanted = false := by
  intro wanted
  have agree := Placeholder.fill_times_fill_path_iff (Text.isDigits_natText config.seconds)
    (Text.isDigits_natText (config.seconds * 1000)) path.toList argument.toList
  rw [only_query] at agree
  rw [← timeFree_iff, fillIn_eq, ← String.toList_inj]
  simp only [wanted, filled, String.toList_ofList]
  exact agree

/-- A solver gets one argument for each of the template. Each is what filling in all placeholders at
once gives, exactly if that does not hold a placeholder for a time; the path of the query is passed
on unchanged exactly if it does not hold one. -/
theorem arguments_filled_at_once_iff (config : SolverConfig) (path : String) :
    let seconds := Text.natText (max 1 config.timeoutSecs)
    let millis := Text.natText (max 1 config.timeoutSecs * 1000)
    (config.arguments path).length = config.template.length ∧
      ∀ (i : Nat) (argument : String), config.template[i]? = some argument →
        ∃ given, (config.arguments path)[i]? = some given ∧
          given = filled queryPlaceholder seconds millis
            (filled path secondsPlaceholder millisPlaceholder argument) ∧
          (given = filled path seconds millis argument ↔
            holdsTime (filled path seconds millis argument) = false) ∧
          (argument = queryPlaceholder → (given = path ↔ holdsTime path = false)) := by
  intro seconds millis
  refine ⟨List.length_map _, ?_⟩
  intro i argument found
  have given : (config.arguments path)[i]? = some (config.fillIn path argument) := by
    rw [arguments, List.getElem?_map, found]
    rfl
  have agree := config.fillIn_eq_filled_iff path argument
  refine ⟨config.fillIn path argument, given, config.fillIn_eq path argument, agree, ?_⟩
  rintro rfl
  rwa [filled_query] at agree

theorem arguments_filled_at_once_braces :
    let config : SolverConfig :=
      { args := ["\x7b\x7btimeout_ms\x7d=\x7bquery\x7d", "\x7bquery\x7d"], timeoutSecs := 5 }
    let path := "/tmp/\x7bquery\x7d\x7btimeout_/q.txt"
    config.template[1]? = some queryPlaceholder ∧ holdsTime path = false ∧
      (config.arguments path)[0]? = some "\x7b5000=/tmp/\x7bquery\x7d\x7btimeout_/q.txt" ∧
      (config.arguments path)[1]? = some path := by
  intro config path
  have placeholder : config.template[1]? = some queryPlaceholder := by decide +kernel
  have free : holdsTime path = false := by decide +kernel
  obtain ⟨-, each⟩ := arguments_filled_at_once_iff config path
  obtain ⟨first, firstFound, -, firstAgree, -⟩ :=
    each 0 "\x7b\x7btimeout_ms\x7d=\x7bquery\x7d" (by decide +kernel)
  obtain ⟨second, secondFound, -, -, secondAgree⟩ := each 1 queryPlaceholder placeholder
  rw [firstAgree.mpr (by decide +kernel)] at firstFound
  rw [(secondAgree rfl).mpr free] at secondFound
  refine ⟨placeholder, free, firstFound.trans ?_, secondFound⟩
  decide +kernel

/-- The file of a query is looked for elsewhere when the directory of the run holds a placeholder
for a time. -/
theorem path_taken_for_time :
    let store := ArtifactStore.ofRunId "/tmp/\x7btimeout_secs\x7d" "run"
    let path := store.path (.partition 1 (.toSolve .neq))
    let config : SolverConfig := {}
    path = "/tmp/\x7btimeout_secs\x7d/run-P1-ToSolve.txt" ∧
      queryPlaceholder ∈ config.template ∧
      config.template.map (filled path "1" "1000") = ["-smt2", path, "-T:1"] ∧
      config.arguments path = ["-smt2", "/tmp/1/run-P1-ToSolve.txt", "-T:1"] := by
  decide +kernel

end SolverConfig

end PathEquiv
