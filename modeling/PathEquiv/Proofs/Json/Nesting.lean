import PathEquiv.Proofs.Json.Reading

set_option autoImplicit false

namespace PathEquiv.Json

/-- A reader that gives nothing deeper than it may, and gives the same at every depth that its
result stays within. -/
def Limited {α : Type} (nesting : α → Nat) (read : Nat → Option (α × List Char)) : Prop :=
  ∀ depth value rest, read depth = some (value, rest) →
    nesting value ≤ depth ∧ ∀ other, nesting value ≤ other → read other = some (value, rest)

theorem limited_flat {α : Type} {nesting : α → Nat} {result : Option (α × List Char)}
    (flat : ∀ value rest, result = some (value, rest) → nesting value = 0) :
    Limited nesting fun _ => result := by
  intro depth value rest read
  exact ⟨by rw [flat value rest read]; exact Nat.zero_le _, fun other _ => read⟩

theorem depth_numeral {numeral : Numeral} {spelling : List Char} {value : Json}
    (read : numeral.value? spelling = some value) : value.depth = 0 := by
  grind [Numeral.value?, depth]

theorem depth_number {cs rest : List Char} {value : Json}
    (read : number? cs = some (value, rest)) : value.depth = 0 := by
  simp only [number?, Option.bind_eq_bind, Option.bind_eq_some_iff] at read
  obtain ⟨found, -, own, number, same⟩ := read
  cases same
  exact depth_numeral number

theorem limited_nested {α : Type} {nesting : α → Nat} {read : Nat → Option (α × List Char)}
    (limited : Limited nesting read) {enclose : α → Json}
    (deeper : ∀ inner, (enclose inner).depth = nesting inner + 1)
    {outer : Nat → Option (Json × List Char)} (none : outer 0 = none)
    (step : ∀ depth, outer (depth + 1) =
      (read depth).map fun found => (enclose found.1, found.2)) :
    Limited Json.depth outer := by
  intro depth value rest found
  cases depth with
  | zero => simp [none] at found
  | succ depth =>
    rw [step, Option.map_eq_some_iff] at found
    obtain ⟨inner, innerRead, same⟩ := found
    cases same
    obtain ⟨within, stable⟩ := limited depth inner.1 inner.2 innerRead
    rw [deeper]
    refine ⟨Nat.succ_le_succ within, fun other enough => ?_⟩
    cases other with
    | zero => omega
    | succ other => rw [step, stable other (by omega), Option.map_some]

section Step

variable {fuel : Nat}

theorem limited_array (items : ∀ cs, Limited depthItems (items? fuel · cs)) (cs : List Char) :
    Limited Json.depth (value? (fuel + 1) · ('[' :: cs)) := by
  have none : value? (fuel + 1) 0 ('[' :: cs) = none := by simp [value?]
  have deeper : ∀ items, (Json.arr items).depth = depthItems items + 1 := fun _ => rfl
  cases shape : skipGaps cs with
  | nil => exact limited_nested (items []) deeper none fun depth => by simp [value?, shape]
  | cons c more =>
    by_cases close : c = ']'
    next =>
      have empty : Limited depthItems fun _ => some ([], more) :=
        limited_flat (by simp [depthItems])
      exact limited_nested empty deeper none fun depth => by simp [value?, shape, close]
    next =>
      exact limited_nested (items (c :: more)) deeper none fun depth => by
        simp [value?, shape, close]

theorem limited_object (fields : ∀ cs, Limited depthFields (fields? fuel · cs)) (cs : List Char) :
    Limited Json.depth (value? (fuel + 1) · ('{' :: cs)) := by
  have none : value? (fuel + 1) 0 ('{' :: cs) = none := by simp [value?]
  have deeper : ∀ fields, (Json.obj fields).depth = depthFields fields + 1 := fun _ => rfl
  cases shape : skipGaps cs with
  | nil => exact limited_nested (fields []) deeper none fun depth => by simp [value?, shape]
  | cons c more =>
    by_cases close : c = '}'
    next =>
      have empty : Limited depthFields fun _ => some ([], more) :=
        limited_flat (by simp [depthFields])
      exact limited_nested empty deeper none fun depth => by simp [value?, shape, close]
    next =>
      exact limited_nested (fields (c :: more)) deeper none fun depth => by
        simp [value?, shape, close]

theorem limited_value (items : ∀ cs, Limited depthItems (items? fuel · cs))
    (fields : ∀ cs, Limited depthFields (fields? fuel · cs)) (cs : List Char) :
    Limited Json.depth (value? (fuel + 1) · cs) := by
  unfold value?
  split
  next => exact limited_flat (by simp [Json.depth])
  next => exact limited_flat (by simp [Json.depth])
  next => exact limited_flat (by simp [Json.depth])
  next =>
    refine limited_flat fun value rest read => ?_
    obtain ⟨found, -, same⟩ := Option.map_eq_some_iff.mp read
    cases same
    rfl
  next rest => exact limited_array items rest
  next rest => exact limited_object fields rest
  next => exact limited_flat fun value rest => depth_number

theorem limited_items (values : ∀ cs, Limited Json.depth (value? fuel · cs))
    (items : ∀ cs, Limited depthItems (items? fuel · cs)) (cs : List Char) :
    Limited depthItems (items? (fuel + 1) · cs) := by
  intro depth value rest read
  obtain ⟨item, after, found, ending⟩ := items_eq_some.mp read
  obtain ⟨within, stable⟩ := values _ depth item after found
  rcases ending with ⟨close, rfl⟩ | ⟨more, others, comma, later, rfl⟩
  · simp only [depthItems, Nat.max_zero] at *
    exact ⟨within, fun other enough =>
      items_eq_some.mpr ⟨item, after, stable other enough, .inl ⟨close, rfl⟩⟩⟩
  · obtain ⟨othersWithin, othersStable⟩ := items _ depth others rest later
    rw [depthItems]
    refine ⟨Nat.max_le.mpr ⟨within, othersWithin⟩, fun other enough => ?_⟩
    obtain ⟨itemEnough, othersEnough⟩ := Nat.max_le.mp enough
    exact items_eq_some.mpr ⟨item, after, stable other itemEnough,
      .inr ⟨more, others, comma, othersStable other othersEnough, rfl⟩⟩

theorem limited_fields (values : ∀ cs, Limited Json.depth (value? fuel · cs))
    (fields : ∀ cs, Limited depthFields (fields? fuel · cs)) (cs : List Char) :
    Limited depthFields (fields? (fuel + 1) · cs) := by
  intro depth found rest read
  obtain ⟨start, name, colon, text, value, after, opening, body, marked, valueRead, ending⟩ :=
    fields_eq_some.mp read
  obtain ⟨within, stable⟩ := values _ depth value after valueRead
  rcases ending with ⟨close, rfl⟩ | ⟨more, others, comma, later, rfl⟩
  · simp only [depthFields, Nat.max_zero]
    exact ⟨within, fun other enough => fields_eq_some.mpr ⟨start, name, colon, text, value, after,
      opening, body, marked, stable other enough, .inl ⟨close, rfl⟩⟩⟩
  · obtain ⟨othersWithin, othersStable⟩ := fields _ depth others rest later
    rw [depthFields]
    refine ⟨Nat.max_le.mpr ⟨within, othersWithin⟩, fun other enough => ?_⟩
    obtain ⟨valueEnough, othersEnough⟩ := Nat.max_le.mp enough
    exact fields_eq_some.mpr ⟨start, name, colon, text, value, after, opening, body, marked,
      stable other valueEnough,
      .inr ⟨more, others, comma, othersStable other othersEnough, rfl⟩⟩

end Step

theorem limited (fuel : Nat) :
    (∀ cs, Limited Json.depth (value? fuel · cs)) ∧
      (∀ cs, Limited depthItems (items? fuel · cs)) ∧
      (∀ cs, Limited depthFields (fields? fuel · cs)) := by
  induction fuel with
  | zero =>
    exact ⟨fun _ => limited_flat (by simp), fun _ => limited_flat (by simp),
      fun _ => limited_flat (by simp)⟩
  | succ fuel ih =>
    obtain ⟨values, items, fields⟩ := ih
    exact ⟨limited_value items fields, limited_items values items, limited_fields values fields⟩

theorem Reads.document {text : String} {value : Json} (reads : Reads text.toList value) :
    document? text = if value.depth ≤ documentDepth then some value else none := by
  let fuel := 2 * text.toList.length + 2
  have start := reads.skipGaps []
  have whole (depth : Nat) (enough : value.depth ≤ depth) :
      value? fuel depth text.toList = some (value, []) := by
    simpa using reads.value fuel depth [] (by omega) enough rfl
  rw [List.append_nil] at start
  simp only [document?, read?, start]
  split
  next refused =>
    have deep : ¬value.depth ≤ documentDepth := by
      intro shallow
      rw [whole documentDepth shallow] at refused
      cases refused
    rw [if_neg deep]
  next other rest found =>
    -- A result within the limit would be read at any greater depth, where the value itself is.
    obtain ⟨within, stable⟩ := (limited fuel).1 text.toList documentDepth other rest found
    have deeper := whole (max documentDepth value.depth) (Nat.le_max_right _ _)
    cases deeper.symm.trans (stable (max documentDepth value.depth) (by omega))
    rw [if_pos within]
    rfl

end PathEquiv.Json
