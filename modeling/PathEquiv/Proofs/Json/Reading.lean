import Mathlib.Data.List.DropRight
import PathEquiv.Proofs.Json.Tokens

set_option autoImplicit false

namespace PathEquiv.Json

theorem items_eq_some {fuel depth : Nat} {cs rest : List Char} {items : List Json} :
    items? (fuel + 1) depth cs = some (items, rest) ↔
      ∃ item after, value? fuel depth (skipGaps cs) = some (item, after) ∧
        (skipGaps after = ']' :: rest ∧ items = [item] ∨
          ∃ more others, skipGaps after = ',' :: more ∧
            items? fuel depth more = some (others, rest) ∧ items = item :: others) := by
  rw [items?]
  constructor
  next =>
    intro read
    split at read
    next => cases read
    next item after found =>
      refine ⟨item, after, found, ?_⟩
      split at read
      next close =>
        cases read
        exact .inl ⟨close, rfl⟩
      next more comma =>
        obtain ⟨inner, later, same⟩ := Option.map_eq_some_iff.mp read
        cases same
        exact .inr ⟨more, inner.1, comma, later, rfl⟩
      next => cases read
  next =>
    rintro ⟨item, after, found, ending⟩
    simp only [found]
    rcases ending with ⟨close, rfl⟩ | ⟨more, others, comma, later, rfl⟩
    · simp only [close]
    · simp only [comma, later, Option.map_some]

theorem fields_eq_some {fuel depth : Nat} {cs rest : List Char} {fields : List (String × Json)} :
    fields? (fuel + 1) depth cs = some (fields, rest) ↔
      ∃ start name colon text value after, skipGaps cs = '"' :: start ∧
        stringBody start = some (name, colon) ∧ skipGaps colon = ':' :: text ∧
        value? fuel depth (skipGaps text) = some (value, after) ∧
        (skipGaps after = '}' :: rest ∧ fields = [(String.ofList name, value)] ∨
          ∃ more others, skipGaps after = ',' :: more ∧
            fields? fuel depth more = some (others, rest) ∧
            fields = (String.ofList name, value) :: others) := by
  rw [fields?]
  constructor
  next =>
    intro read
    split at read
    next start opening =>
      split at read
      next => cases read
      next name colon body =>
        split at read
        next text marked =>
          split at read
          next => cases read
          next value after found =>
            refine ⟨start, name, colon, text, value, after, opening, body, marked, found, ?_⟩
            simp only at read
            split at read
            next close =>
              cases read
              exact .inl ⟨close, rfl⟩
            next more comma =>
              obtain ⟨inner, later, same⟩ := Option.map_eq_some_iff.mp read
              cases same
              exact .inr ⟨more, inner.1, comma, later, rfl⟩
            next => cases read
        next => cases read
    next => cases read
  next =>
    rintro ⟨start, name, colon, text, value, after, opening, body, marked, found, ending⟩
    simp only [opening, body, marked, found]
    rcases ending with ⟨close, rfl⟩ | ⟨more, others, comma, later, rfl⟩
    · simp only [close]
    · simp only [comma, later, Option.map_some]

theorem skipGaps_append {gap : List Char} (gaps : ∀ c ∈ gap, isGap c = true) (cs : List Char) :
    skipGaps (gap ++ cs) = skipGaps cs :=
  List.dropWhile_append_of_pos gaps

theorem skipGaps_cons {c : Char} (solid : isGap c = false) (cs : List Char) :
    skipGaps (c :: cs) = c :: cs := by
  simp [skipGaps, solid]

theorem skipGaps_skipGaps (cs : List Char) : skipGaps (skipGaps cs) = skipGaps cs :=
  List.dropWhile_idempotent isGap cs

/-- A text that is read as the value, whatever follows it. -/
structure Reads (text : List Char) (value : Json) : Prop where
  starts : ∃ c more, text = c :: more ∧ isGap c = false ∧ c ≠ ']'
  value : ∀ fuel depth rest, 2 * text.length ≤ fuel → value.depth ≤ depth →
    endsNumber rest = true → value? fuel depth (text ++ rest) = some (value, rest)

theorem Reads.skipGaps {text : List Char} {value : Json} (reads : Reads text value)
    (rest : List Char) : skipGaps (text ++ rest) = text ++ rest := by
  obtain ⟨c, more, rfl, solid, -⟩ := reads.starts
  exact skipGaps_cons solid _

structure Layout where
  beforeRow : List Char
  beforeEnd : List Char
  beforeValue : List Char
  blank : ∀ c ∈ beforeRow ++ beforeEnd ++ beforeValue, isGap c = true

namespace Layout

variable (layout : Layout)

theorem rowGaps : ∀ c ∈ layout.beforeRow, isGap c = true :=
  fun c member => layout.blank c (by simp [member])

theorem endGaps : ∀ c ∈ layout.beforeEnd, isGap c = true :=
  fun c member => layout.blank c (by simp [member])

theorem valueGaps : ∀ c ∈ layout.beforeValue, isGap c = true :=
  fun c member => layout.blank c (by simp [member])

def rows (closing : Char) : List Char → List (List Char) → List Char
  | row, [] => layout.beforeRow ++ (row ++ (layout.beforeEnd ++ [closing]))
  | row, next :: others => layout.beforeRow ++ (row ++ ',' :: rows closing next others)

def field (write : Json → List Char) (field : String × Json) : List Char :=
  '"' :: (field.1.toList.flatMap escapeChar ++ '"' :: ':' ::
    (layout.beforeValue ++ write field.2))

theorem endsNumber_end {closing : Char} (ends : endsNumber [closing] = true) (rest : List Char) :
    endsNumber (layout.beforeEnd ++ closing :: rest) = true := by
  have gaps := layout.endGaps
  cases shape : layout.beforeEnd with
  | nil => exact ends
  | cons c more =>
    rw [shape] at gaps
    have gap := gaps c (by simp)
    simp only [isGap, Bool.or_eq_true, beq_iff_eq] at gap
    rcases gap with ((rfl | rfl) | rfl) | rfl <;> rfl

theorem skipGaps_end {closing : Char} (solid : isGap closing = false) (rest : List Char) :
    skipGaps (layout.beforeEnd ++ closing :: rest) = closing :: rest := by
  rw [skipGaps_append layout.endGaps, skipGaps_cons solid]

variable {write : Json → List Char} {depth : Nat} (rest : List Char)

theorem items_item {item : Json} {items : List Json} {after : List Char} {fuel : Nat}
    (first : Reads (write item) item) (shallow : item.depth ≤ depth)
    (enough : 2 * (write item).length ≤ fuel) (ends : endsNumber after = true)
    (ending : items = [] ∧ skipGaps after = ']' :: rest ∨
      ∃ more, skipGaps after = ',' :: more ∧ items? fuel depth more = some (items, rest)) :
    items? (fuel + 1) depth (layout.beforeRow ++ (write item ++ after)) =
      some (item :: items, rest) := by
  have value : value? fuel depth (skipGaps (layout.beforeRow ++ (write item ++ after))) =
      some (item, after) := by
    rw [skipGaps_append layout.rowGaps, first.skipGaps]
    exact first.value fuel depth after enough shallow ends
  refine items_eq_some.mpr ⟨item, after, value, ?_⟩
  rcases ending with ⟨rfl, close⟩ | ⟨more, comma, later⟩
  · exact .inl ⟨close, rfl⟩
  · exact .inr ⟨more, items, comma, later, rfl⟩

theorem items_rows {items : List Json} {item : Json}
    (reads : ∀ j ∈ item :: items, Reads (write j) j ∧ j.depth ≤ depth) {fuel : Nat}
    (enough : 2 * (layout.rows ']' (write item) (items.map write)).length ≤ fuel) :
    items? fuel depth (layout.rows ']' (write item) (items.map write) ++ rest) =
      some (item :: items, rest) := by
  obtain ⟨first, shallow⟩ := reads item (by simp)
  -- A row takes one step of fuel, which the mark after it pays for.
  induction items generalizing item fuel with
  | nil =>
    rw [List.map_nil, rows] at enough ⊢
    simp only [List.length_append, List.length_cons, List.append_assoc] at enough ⊢
    cases fuel with
    | zero => omega
    | succ fuel =>
      exact layout.items_item rest first shallow (by omega) (layout.endsNumber_end rfl rest)
        (.inl ⟨rfl, layout.skipGaps_end (by decide) rest⟩)
  | cons next others ih =>
    rw [List.map_cons, rows] at enough ⊢
    simp only [List.length_append, List.length_cons, List.append_assoc] at enough ⊢
    cases fuel with
    | zero => omega
    | succ fuel =>
      obtain ⟨nextReads, nextShallow⟩ := reads next (by simp)
      have later : items? fuel depth (layout.rows ']' (write next) (others.map write) ++ rest) =
          some (next :: others, rest) :=
        ih (fun j member => reads j (by simp [member])) (by omega) nextReads nextShallow
      exact layout.items_item rest first shallow (by omega) rfl
        (.inr ⟨_, skipGaps_cons (by decide) _, later⟩)

theorem fields_field {field : String × Json} {fields : List (String × Json)} {after : List Char}
    {fuel : Nat} (first : Reads (write field.2) field.2) (shallow : field.2.depth ≤ depth)
    (enough : 2 * (write field.2).length ≤ fuel) (ends : endsNumber after = true)
    (ending : fields = [] ∧ skipGaps after = '}' :: rest ∨
      ∃ more, skipGaps after = ',' :: more ∧ fields? fuel depth more = some (fields, rest)) :
    fields? (fuel + 1) depth (layout.beforeRow ++ (layout.field write field ++ after)) =
      some (field :: fields, rest) := by
  have opening : skipGaps (layout.beforeRow ++ (layout.field write field ++ after)) =
      '"' :: (field.1.toList.flatMap escapeChar ++ '"' :: ':' ::
        (layout.beforeValue ++ (write field.2 ++ after))) := by
    rw [skipGaps_append layout.rowGaps, Layout.field, List.cons_append,
      skipGaps_cons (by decide)]
    simp
  have value : value? fuel depth (skipGaps (layout.beforeValue ++ (write field.2 ++ after))) =
      some (field.2, after) := by
    rw [skipGaps_append layout.valueGaps, first.skipGaps]
    exact first.value fuel depth after enough shallow ends
  have own : (String.ofList field.1.toList, field.2) = field := by simp
  refine fields_eq_some.mpr ⟨_, _, _, _, _, _, opening, stringBody_escaped _ _,
    skipGaps_cons (by decide) _, value, ?_⟩
  rw [own]
  rcases ending with ⟨rfl, close⟩ | ⟨more, comma, later⟩
  · exact .inl ⟨close, rfl⟩
  · exact .inr ⟨more, fields, comma, later, rfl⟩

theorem length_field (field : String × Json) :
    (write field.2).length ≤ (layout.field write field).length := by
  simp only [Layout.field, List.length_append, List.length_cons]
  omega

theorem fields_rows {fields : List (String × Json)} {field : String × Json}
    (reads : ∀ f ∈ field :: fields, Reads (write f.2) f.2 ∧ f.2.depth ≤ depth) {fuel : Nat}
    (enough : 2 * (layout.rows '}' (layout.field write field)
      (fields.map (layout.field write))).length ≤ fuel) :
    fields? fuel depth (layout.rows '}' (layout.field write field)
        (fields.map (layout.field write)) ++ rest) =
      some (field :: fields, rest) := by
  obtain ⟨first, shallow⟩ := reads field (by simp)
  have shorter : (write field.2).length ≤ (layout.field write field).length :=
    layout.length_field field
  induction fields generalizing field fuel with
  | nil =>
    rw [List.map_nil, rows] at enough ⊢
    simp only [List.length_append, List.length_cons, List.append_assoc] at enough ⊢
    cases fuel with
    | zero => omega
    | succ fuel =>
      exact layout.fields_field rest first shallow (by omega) (layout.endsNumber_end rfl rest)
        (.inl ⟨rfl, layout.skipGaps_end (by decide) rest⟩)
  | cons next others ih =>
    rw [List.map_cons, rows] at enough ⊢
    simp only [List.length_append, List.length_cons, List.append_assoc] at enough ⊢
    cases fuel with
    | zero => omega
    | succ fuel =>
      obtain ⟨nextReads, nextShallow⟩ := reads next (by simp)
      have later : fields? fuel depth (layout.rows '}' (layout.field write next)
          (others.map (layout.field write)) ++ rest) = some (next :: others, rest) :=
        ih (fun f member => reads f (by simp [member])) (by omega) nextReads nextShallow
          (layout.length_field next)
      exact layout.fields_field rest first shallow (by omega) rfl
        (.inr ⟨_, skipGaps_cons (by decide) _, later⟩)

theorem rows_starts {row : List Char} (rows : List (List Char)) (closing : Char) {c : Char}
    {more : List Char} (shape : row = c :: more) (solid : isGap c = false) (rest : List Char) :
    ∃ others, skipGaps (layout.rows closing row rows ++ rest) = c :: others := by
  obtain ⟨after, text⟩ : ∃ after, layout.rows closing row rows =
      layout.beforeRow ++ (row ++ after) := by
    cases rows <;> exact ⟨_, rfl⟩
  rw [text, shape, List.append_assoc, skipGaps_append layout.rowGaps]
  exact ⟨_, skipGaps_cons solid _⟩

end Layout

theorem items_skipGaps (fuel depth : Nat) (cs : List Char) :
    items? fuel depth (skipGaps cs) = items? fuel depth cs := by
  cases fuel with
  | zero => rfl
  | succ fuel => simp only [items?, skipGaps_skipGaps]

theorem fields_skipGaps (fuel depth : Nat) (cs : List Char) :
    fields? fuel depth (skipGaps cs) = fields? fuel depth cs := by
  cases fuel with
  | zero => rfl
  | succ fuel => simp only [fields?, skipGaps_skipGaps]

theorem depthItems_le {items : List Json} {limit : Nat} :
    depthItems items ≤ limit ↔ ∀ item ∈ items, item.depth ≤ limit := by
  induction items with
  | nil => simp [depthItems]
  | cons item items ih => rw [depthItems, Nat.max_le, ih, List.forall_mem_cons]

theorem depthFields_le {fields : List (String × Json)} {limit : Nat} :
    depthFields fields ≤ limit ↔ ∀ field ∈ fields, field.2.depth ≤ limit := by
  induction fields with
  | nil => simp [depthFields]
  | cons field fields ih => rw [depthFields, Nat.max_le, ih, List.forall_mem_cons]

namespace Layout

def enclosed (layout : Layout) (opening closing : Char) : List (List Char) → List Char
  | [] => [opening, closing]
  | row :: others => opening :: layout.rows closing row others

theorem reads_array (layout : Layout) {write : Json → List Char} {items : List Json}
    (each : ∀ item ∈ items, Reads (write item) item) :
    Reads (layout.enclosed '[' ']' (items.map write)) (.arr items) where
  starts := by
    cases items with
    | nil => exact ⟨'[', [']'], rfl, by decide, by decide⟩
    | cons => exact ⟨'[', _, rfl, by decide, by decide⟩
  value := by
    intro fuel depth rest enough shallow ends
    rw [Json.depth] at shallow
    obtain ⟨inner, rfl⟩ := Nat.exists_eq_add_of_le' (Nat.le_of_add_left_le shallow)
    have allShallow := depthItems_le.mp (Nat.le_of_add_le_add_right shallow)
    cases items with
    | nil =>
      cases fuel with
      | zero => simp [enclosed] at enough
      | succ fuel => rfl
    | cons item items =>
      rw [List.map_cons, enclosed, List.length_cons] at enough
      cases fuel with
      | zero => omega
      | succ fuel =>
        obtain ⟨c, more, shape, solid, opens⟩ := (each item (by simp)).starts
        obtain ⟨others, start⟩ := layout.rows_starts (items.map write) ']' shape solid rest
        have read : items? fuel inner (layout.rows ']' (write item) (items.map write) ++ rest) =
            some (item :: items, rest) :=
          layout.items_rows rest (fun j member => ⟨each j member, allShallow j member⟩) (by omega)
        -- The reader skips white space to tell an empty array, and then once more.
        rw [← items_skipGaps, start] at read
        simp [enclosed, value?, start, opens, read]

theorem reads_object (layout : Layout) {write : Json → List Char} {fields : List (String × Json)}
    (each : ∀ field ∈ fields, Reads (write field.2) field.2) :
    Reads (layout.enclosed '{' '}' (fields.map (layout.field write))) (.obj fields) where
  starts := by
    cases fields with
    | nil => exact ⟨'{', ['}'], rfl, by decide, by decide⟩
    | cons => exact ⟨'{', _, rfl, by decide, by decide⟩
  value := by
    intro fuel depth rest enough shallow ends
    rw [Json.depth] at shallow
    obtain ⟨inner, rfl⟩ := Nat.exists_eq_add_of_le' (Nat.le_of_add_left_le shallow)
    have allShallow := depthFields_le.mp (Nat.le_of_add_le_add_right shallow)
    cases fields with
    | nil =>
      cases fuel with
      | zero => simp [enclosed] at enough
      | succ fuel => rfl
    | cons field fields =>
      rw [List.map_cons, enclosed, List.length_cons] at enough
      cases fuel with
      | zero => omega
      | succ fuel =>
        let row := layout.field write
        have shape : row field = '"' :: _ := rfl
        obtain ⟨others, start⟩ := layout.rows_starts (fields.map row) '}' shape (by decide) rest
        have read : fields? fuel inner (layout.rows '}' (row field) (fields.map row) ++ rest) =
            some (field :: fields, rest) :=
          layout.fields_rows rest (fun f member => ⟨each f member, allShallow f member⟩) (by omega)
        rw [← fields_skipGaps, start] at read
        simp only [row] at start read
        simp [enclosed, value?, start, read]

theorem rows_join (layout : Layout) {lead indent : String}
    (gap : layout.beforeRow = lead.toList ++ indent.toList) (closing : Char) (row : String)
    (others : List String) :
    layout.rows closing row.toList (others.map String.toList) =
      lead.toList ++
        ((String.intercalate ("," ++ lead) ((row :: others).map (indent ++ ·))).toList ++
          (layout.beforeEnd ++ [closing])) := by
  induction others generalizing row with
  | nil => simp [rows, gap]
  | cons next others ih =>
    rw [List.map_cons, rows, ih next]
    simp [gap]

end Layout

inductive Plain : Json → Prop
  | null : Plain .null
  | bool (value : Bool) : Plain (.bool value)
  | nat {n : Nat} (small : n < Nat.pow 2 64) : Plain (.int n)
  | str (value : String) : Plain (.str value)
  | arr {items : List Json} (each : ∀ item ∈ items, Plain item) : Plain (.arr items)
  | obj {fields : List (String × Json)} (each : ∀ field ∈ fields, Plain field.2) :
      Plain (.obj fields)

theorem reads_null : Reads "null".toList .null where
  starts := ⟨'n', ['u', 'l', 'l'], by decide, by decide, by decide⟩
  value := by
    intro fuel depth rest enough _ _
    cases fuel with
    | zero => simp at enough
    | succ fuel => simp [value?]

theorem reads_bool (value : Bool) : Reads (compact (.bool value)).toList (.bool value) where
  starts := by
    cases value with
    | false => exact ⟨'f', ['a', 'l', 's', 'e'], by decide, by decide, by decide⟩
    | true => exact ⟨'t', ['r', 'u', 'e'], by decide, by decide, by decide⟩
  value := by
    intro fuel depth rest enough _ _
    cases fuel with
    | zero => cases value <;> simp [compact] at enough
    | succ fuel => cases value <;> simp [compact, value?]

theorem reads_nat {n : Nat} (small : n < Nat.pow 2 64) :
    Reads (Text.natText n).toList (.int n) := by
  obtain ⟨c, more, shape, digit⟩ := Text.natText_cons n
  -- A value is told by its first character, and a digit is none of the marks.
  have other (d : Char) (noDigit : Text.isDecimalDigit d = false) : c ≠ d := by
    rintro rfl
    rw [digit] at noDigit
    cases noDigit
  constructor
  next =>
    refine ⟨c, more, shape, ?_, other ']' (by decide)⟩
    simp only [isGap, Bool.or_eq_false_iff, beq_eq_false_iff_ne]
    exact ⟨⟨⟨other ' ' (by decide), other '\n' (by decide)⟩, other '\t' (by decide)⟩,
      other '\r' (by decide)⟩
  next =>
    intro fuel depth rest enough _ ends
    have number := number_natText ends small
    rw [shape] at enough number ⊢
    cases fuel with
    | zero => simp at enough
    | succ fuel =>
      rw [← number]
      simp [value?, other 'n' (by decide), other 't' (by decide), other 'f' (by decide),
        other '"' (by decide), other '[' (by decide), other '{' (by decide)]

theorem toList_quoted (s : String) (rest : List Char) :
    (quoted s).toList ++ rest = '"' :: (s.toList.flatMap escapeChar ++ '"' :: rest) := by
  simp [quoted]

theorem reads_str (s : String) : Reads (quoted s).toList (.str s) where
  starts := ⟨'"', s.toList.flatMap escapeChar ++ ['"'], by simp [quoted], by decide, by decide⟩
  value := by
    intro fuel depth rest enough _ _
    rw [toList_quoted]
    cases fuel with
    | zero => simp [quoted] at enough
    | succ fuel => simp [value?, stringBody_escaped]

theorem compactItems_eq (items : List Json) : compactItems items = items.map compact := by
  induction items with
  | nil => rfl
  | cons item items ih => simp [compactItems, ih]

theorem compactFields_eq (fields : List (String × Json)) :
    compactFields fields = fields.map fun field => quoted field.1 ++ ":" ++ compact field.2 := by
  induction fields with
  | nil => rfl
  | cons field fields ih => simp [compactFields, ih]

theorem prettyItems_eq (level : Nat) (items : List Json) :
    prettyItems level items = items.map (prettyAt level) := by
  induction items with
  | nil => rfl
  | cons item items ih => simp [prettyItems, ih]

theorem prettyFields_eq (level : Nat) (fields : List (String × Json)) :
    prettyFields level fields =
      fields.map fun field => quoted field.1 ++ ": " ++ prettyAt level field.2 := by
  induction fields with
  | nil => rfl
  | cons field fields ih => simp [prettyFields, ih]

namespace Layout

def compact : Layout where
  beforeRow := []
  beforeEnd := []
  beforeValue := []
  blank := by simp

def pretty (level : Nat) : Layout where
  beforeRow := '\n' :: List.replicate (2 * (level + 1)) ' '
  beforeEnd := '\n' :: List.replicate (2 * level) ' '
  beforeValue := [' ']
  blank := by
    have blank : isGap '\n' = true ∧ isGap ' ' = true := by decide
    simp only [List.mem_append, List.mem_cons, List.mem_replicate]
    rintro c (((rfl | ⟨-, rfl⟩) | rfl | ⟨-, rfl⟩) | rfl | none) <;> simp_all

end Layout

theorem enclosed_compact (opening closing : Char) (rows : List String) :
    (String.singleton opening ++ String.intercalate "," rows ++ String.singleton closing).toList =
      Layout.compact.enclosed opening closing (rows.map String.toList) := by
  cases rows with
  | nil => simp [Layout.enclosed]
  | cons row others =>
    have gap : Layout.compact.beforeRow = "".toList ++ "".toList := rfl
    rw [List.map_cons, Layout.enclosed, Layout.compact.rows_join gap]
    simp [Layout.compact]

theorem enclosed_pretty (level : Nat) (opening closing : Char) (rows : List String) :
    (block level (String.singleton opening) (String.singleton closing) rows).toList =
      (Layout.pretty level).enclosed opening closing (rows.map String.toList) := by
  cases rows with
  | nil => simp [block, Layout.enclosed]
  | cons row others =>
    have gap : (Layout.pretty level).beforeRow = "\n".toList ++ (indent (level + 1)).toList := by
      simp [Layout.pretty, indent]
    rw [List.map_cons, Layout.enclosed, (Layout.pretty level).rows_join gap]
    simp [Layout.pretty, block, indent]

theorem reads_compact {value : Json} (plain : Plain value) :
    Reads value.compact.toList value := by
  induction plain with
  | null => exact reads_null
  | bool value => exact reads_bool value
  | nat small => exact reads_nat small
  | str value => exact reads_str value
  | @arr items _ each =>
    have rows : (items.map compact).map String.toList =
        items.map fun item => item.compact.toList := by
      simp
    have text : (compact (.arr items)).toList =
        Layout.compact.enclosed '[' ']' (items.map fun item => item.compact.toList) := by
      rw [compact, compactItems_eq, ← rows, ← enclosed_compact]
      rfl
    rw [text]
    exact Layout.compact.reads_array each
  | @obj fields _ each =>
    let row := Layout.compact.field fun value => value.compact.toList
    have rows : (fields.map fun field =>
        quoted field.1 ++ ":" ++ compact field.2).map String.toList = fields.map row := by
      simp [row, Layout.field, toList_quoted, Layout.compact]
    have text : (compact (.obj fields)).toList =
        Layout.compact.enclosed '{' '}' (fields.map row) := by
      rw [compact, compactFields_eq, ← rows, ← enclosed_compact]
      rfl
    rw [text]
    exact Layout.compact.reads_object each

theorem reads_pretty {value : Json} (plain : Plain value) (level : Nat) :
    Reads (prettyAt level value).toList value := by
  induction plain generalizing level with
  | null => exact reads_null
  | bool value => exact reads_bool value
  | nat small => exact reads_nat small
  | str value => exact reads_str value
  | @arr items _ each =>
    have rows : (items.map (prettyAt (level + 1))).map String.toList =
        items.map fun item => (prettyAt (level + 1) item).toList := by
      simp
    have text : (prettyAt level (.arr items)).toList = (Layout.pretty level).enclosed '[' ']'
        (items.map fun item => (prettyAt (level + 1) item).toList) := by
      rw [prettyAt, prettyItems_eq, ← rows, ← enclosed_pretty]
      rfl
    rw [text]
    exact (Layout.pretty level).reads_array fun item member => each item member (level + 1)
  | @obj fields _ each =>
    let row := (Layout.pretty level).field fun value => (prettyAt (level + 1) value).toList
    have rows : (fields.map fun field =>
        quoted field.1 ++ ": " ++ prettyAt (level + 1) field.2).map String.toList =
          fields.map row := by
      simp [row, Layout.field, toList_quoted, Layout.pretty]
    have text : (prettyAt level (.obj fields)).toList =
        (Layout.pretty level).enclosed '{' '}' (fields.map row) := by
      rw [prettyAt, prettyFields_eq, ← rows, ← enclosed_pretty]
      rfl
    rw [text]
    exact (Layout.pretty level).reads_object fun field member => each field member (level + 1)

end PathEquiv.Json
