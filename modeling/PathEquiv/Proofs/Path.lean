import Mathlib.Data.List.Basic
import PathEquiv.Path

set_option autoImplicit false

namespace PathEquiv.Path

def IsName (name : String) : Prop :=
  name ≠ "" ∧ name ≠ "." ∧ name ≠ ".." ∧ '/' ∉ name.toList

instance (name : String) : Decidable (IsName name) :=
  inferInstanceAs (Decidable (_ ∧ _ ∧ _ ∧ _))

theorem IsName.not_absolute {name : String} (named : IsName name) :
    isAbsolute name = false := by
  have inside := named.2.2.2
  unfold isAbsolute
  cases chars : name.toList with
  | nil => rfl
  | cons c cs =>
    simp only [chars, List.mem_cons, not_or] at inside
    simpa using Ne.symm inside.1

theorem segments_ne_nil (cs : List Char) : segments cs ≠ [] := by
  cases cs with
  | nil => simp [segments]
  | cons c cs =>
    unfold segments
    split
    next => simp
    next => split <;> simp

theorem segments_append (cs rest : List Char) :
    segments (cs ++ '/' :: rest) = segments cs ++ segments rest := by
  induction cs with
  | nil => simp [segments]
  | cons c cs ih =>
    rw [List.cons_append, segments, segments]
    by_cases slash : c = '/'
    next => simp [slash, ih]
    next =>
      simp only [slash, if_false, ih]
      cases first : segments cs with
      | nil => exact absurd first (segments_ne_nil cs)
      | cons segment others => rfl

theorem segments_of_free {cs : List Char} (free : '/' ∉ cs) : segments cs = [cs] := by
  induction cs with
  | nil => rfl
  | cons c cs ih =>
    simp only [List.mem_cons, not_or] at free
    rw [segments, if_neg (Ne.symm free.1), ih free.2]

theorem inner?_of_name {name : String} (named : IsName name) :
    inner? name.toList = some (.name name) := by
  obtain ⟨notEmpty, notHere, notUp, -⟩ := named
  have apart (other : String) (different : name ≠ other) : name.toList ≠ other.toList :=
    fun same => different (String.toList_inj.mp same)
  unfold inner?
  split
  next chars => exact absurd chars (apart "" notEmpty)
  next chars => exact absurd chars (apart "." notHere)
  next chars => exact absurd chars (apart ".." notUp)
  next => rw [String.ofList_toList]

theorem parts_absolute {path : String} {rest : List Char} (chars : path.toList = '/' :: rest) :
    parts path = .root :: (segments rest).filterMap inner? := by
  simp only [parts, chars]

theorem parts_here {path : String} {others : List (List Char)}
    (relative : path.toList.head? ≠ some '/') (first : segments path.toList = ['.'] :: others) :
    parts path = .here :: others.filterMap inner? := by
  unfold parts
  split
  next chars => simp [chars] at relative
  next => simp only [first]

theorem parts_plain {path : String} {segment : List Char} {others : List (List Char)}
    (relative : path.toList.head? ≠ some '/') (first : segments path.toList = segment :: others)
    (plain : segment ≠ ['.']) : parts path = (segment :: others).filterMap inner? := by
  unfold parts
  split
  next chars => simp [chars] at relative
  next =>
    rw [first]
    split
    next same => exact absurd (List.cons.inj same).1 plain
    next => rfl

theorem parts_append {path longer : String} {rest : List Char}
    (extended : longer.toList = path.toList ++ '/' :: rest) (given : path.toList ≠ [])
    (free : '/' ∉ rest) : parts longer = parts path ++ [rest].filterMap inner? := by
  by_cases relative : path.toList.head? = some '/'
  next =>
    obtain ⟨cs, chars⟩ := List.head?_eq_some_iff.mp relative
    have longerChars : longer.toList = '/' :: (cs ++ '/' :: rest) := by
      rw [extended, chars, List.cons_append]
    rw [parts_absolute chars, parts_absolute longerChars, segments_append, segments_of_free free,
      List.filterMap_append, List.cons_append]
  next =>
    have longerRelative : longer.toList.head? ≠ some '/' := by
      rwa [extended, List.head?_append_of_ne_nil _ given]
    have longerSegments : segments longer.toList = segments path.toList ++ [rest] := by
      rw [extended, segments_append, segments_of_free free]
    cases first : segments path.toList with
    | nil => exact absurd first (segments_ne_nil _)
    | cons segment others =>
      rw [first, List.cons_append] at longerSegments
      by_cases here : segment = ['.']
      next =>
        subst here
        rw [parts_here relative first, parts_here longerRelative longerSegments,
          List.filterMap_append, List.cons_append]
      next =>
        rw [parts_plain relative first here, parts_plain longerRelative longerSegments here,
          ← List.cons_append, List.filterMap_append]

theorem parts_join (directory : String) {name : String} (named : IsName name) :
    parts (join directory name) = parts directory ++ [.name name] := by
  have free := named.2.2.2
  have own : [name.toList].filterMap inner? = [.name name] := by simp [inner?_of_name named]
  unfold join
  rw [named.not_absolute]
  by_cases empty : directory = ""
  next =>
    subst empty
    have plain : name.toList ≠ ['.'] := fun same => named.2.1 (String.toList_inj.mp same)
    have relative : name.toList.head? ≠ some '/' := by
      simpa [isAbsolute] using named.not_absolute
    exact (parts_plain relative (segments_of_free free) plain).trans own
  next =>
    have given : directory.toList ≠ [] := fun same => empty (String.toList_inj.mp same)
    have notEmpty : directory.isEmpty = false := by
      simpa [Bool.eq_false_iff] using empty
    rw [notEmpty, Bool.or_false, if_neg Bool.false_ne_true]
    split
    next slash =>
      -- The last slash of the directory is the one before the name.
      obtain ⟨cs, chars⟩ := List.getLast?_eq_some_iff.mp slash
      have joined : (directory ++ name).toList = cs ++ '/' :: name.toList := by
        rw [String.toList_append, chars, List.append_assoc, List.singleton_append]
      by_cases root : cs = []
      next =>
        subst root
        rw [parts_absolute joined, parts_absolute chars, segments_of_free free, own]
        rfl
      next =>
        obtain ⟨above, rfl⟩ : ∃ above : String, cs = above.toList :=
          ⟨String.ofList cs, String.toList_ofList.symm⟩
        have bare : parts directory = parts above := by
          rw [parts_append chars root (by simp)]
          simp [inner?]
        rw [parts_append joined root free, own, bare]
    next =>
      have joined : (directory ++ "/" ++ name).toList = directory.toList ++ '/' :: name.toList := by
        simp
      rw [parts_append joined given free, own]

theorem join_inj {directory first second : String}
    (same : join directory first = join directory second)
    (alike : isAbsolute first = isAbsolute second) : first = second := by
  unfold join at same
  rw [alike] at same
  split at same
  next => exact same
  next =>
    split at same
    next => exact (String.append_right_inj directory).mp same
    next => exact (String.append_right_inj (directory ++ "/")).mp same

def Part.Inner : Part → Prop
  | .up => True
  | .name text => IsName text
  | .root | .here => False

structure Formed (path : List Part) : Prop where
  split : ∃ start inner, path = start ++ inner ∧ start ∈ [[], [.root], [.here]] ∧
    ∀ part ∈ inner, part.Inner

def Part.text : Part → String
  | .root => ""
  | .here => "."
  | .up => ".."
  | .name text => text

def render : List Part → String
  | .root :: path => "/" ++ String.intercalate "/" (path.map Part.text)
  | path => String.intercalate "/" (path.map Part.text)

theorem Part.Inner.free {part : Part} (inner : part.Inner) : '/' ∉ part.text.toList := by
  cases part with
  | root => cases inner
  | here => cases inner
  | up => decide
  | name text => exact inner.2.2.2

theorem Part.Inner.read {part : Part} (inner : part.Inner) :
    inner? part.text.toList = some part := by
  cases part with
  | root => cases inner
  | here => cases inner
  | up => rfl
  | name text => exact inner?_of_name inner

theorem joined_toList (part : Part) {path : List Part} (more : path ≠ []) :
    (String.intercalate "/" ((part :: path).map Part.text)).toList =
      part.text.toList ++ '/' :: (String.intercalate "/" (path.map Part.text)).toList := by
  have texts : path.map Part.text ≠ [] := fun empty => more (List.map_eq_nil_iff.mp empty)
  rw [List.map_cons, String.intercalate_cons_of_ne_nil texts]
  simp

theorem segments_joined {path : List Part} (some : path ≠ [])
    (free : ∀ part ∈ path, '/' ∉ part.text.toList) :
    segments (String.intercalate "/" (path.map Part.text)).toList =
      path.map fun part => part.text.toList := by
  induction path with
  | nil => exact absurd rfl some
  | cons part path ih =>
    have own := segments_of_free (free part (by simp))
    by_cases last : path = []
    next => simpa [last] using own
    next =>
      rw [joined_toList part last, segments_append, own,
        ih last fun other member => free other (by simp [member])]
      rfl

theorem filterMap_inner {path : List Part} (inner : ∀ part ∈ path, part.Inner) :
    (path.map fun part => part.text.toList).filterMap inner? = path := by
  induction path with
  | nil => rfl
  | cons part path ih =>
    have own := (inner part (by simp)).read
    simp [own, ih fun other member => inner other (by simp [member])]

theorem inner_joined {path : List Part} (inner : ∀ part ∈ path, part.Inner) :
    (segments (String.intercalate "/" (path.map Part.text)).toList).filterMap inner? = path := by
  by_cases empty : path = []
  next =>
    subst empty
    rfl
  next =>
    rw [segments_joined empty fun part member => (inner part member).free, filterMap_inner inner]

theorem relative_of_segments {cs segment : List Char} {others : List (List Char)}
    (first : segments cs = segment :: others) (given : segment ≠ []) : cs.head? ≠ some '/' := by
  intro slash
  obtain ⟨rest, rfl⟩ := List.head?_eq_some_iff.mp slash
  rw [segments, if_pos rfl] at first
  exact given (List.cons.inj first).1.symm

theorem parts_render {path : List Part} (formed : Formed path) : parts (render path) = path := by
  obtain ⟨start, inner, rfl, listed, each⟩ := formed.split
  have free : ∀ part ∈ inner, '/' ∉ part.text.toList := fun part member => (each part member).free
  simp only [List.mem_cons, List.not_mem_nil, or_false] at listed
  rcases listed with rfl | rfl | rfl
  · cases inner with
    | nil => rfl
    | cons part path =>
      -- The first part is neither empty nor a dot, so it is read like the parts after it.
      have own := (each part (by simp)).read
      have first := segments_joined (by simp) free
      have given : part.text.toList ≠ [] := by
        intro empty
        rw [empty] at own
        cases own
      have plain : part.text.toList ≠ ['.'] := by
        intro dot
        rw [dot] at own
        cases own
      have shown : render (part :: path) = String.intercalate "/" ((part :: path).map Part.text) := by
        cases part with
        | root => cases each .root (by simp)
        | here => rfl
        | up => rfl
        | name text => rfl
      rw [List.nil_append, shown, parts_plain (relative_of_segments first given) first plain]
      exact filterMap_inner each
  · have chars : (render (.root :: inner)).toList =
        '/' :: (String.intercalate "/" (inner.map Part.text)).toList := by
      simp [render]
    rw [List.singleton_append, parts_absolute chars, inner_joined each]
  · have first := @segments_joined (.here :: inner) (by simp) (by simpa [Part.text] using free)
    have relative := relative_of_segments first (by decide)
    exact (parts_here relative first).trans (congrArg (.here :: ·) (filterMap_inner each))

theorem free_of_mem_segments {cs segment : List Char} (member : segment ∈ segments cs) :
    '/' ∉ segment := by
  induction cs generalizing segment with
  | nil => simp_all [segments]
  | cons c cs ih =>
    unfold segments at member
    by_cases slash : c = '/'
    next =>
      rw [if_pos slash, List.mem_cons] at member
      rcases member with rfl | later
      · simp
      · exact ih later
    next =>
      rw [if_neg slash] at member
      cases rest : segments cs with
      | nil => exact absurd rest (segments_ne_nil cs)
      | cons first others =>
        rw [rest] at member ih
        rcases List.mem_cons.mp member with rfl | later
        · simpa [Ne.symm slash] using ih (List.mem_cons_self ..)
        · exact ih (List.mem_cons_of_mem _ later)

theorem inner_of_read {segment : List Char} {part : Part} (free : '/' ∉ segment)
    (read : inner? segment = some part) : part.Inner := by
  unfold inner? at read
  split at read
  next => cases read
  next => cases read
  next =>
    cases read
    trivial
  next notEmpty notHere notUp =>
    cases read
    have apart (other : String) (different : segment ≠ other.toList) :
        String.ofList segment ≠ other := by
      rintro rfl
      exact different String.toList_ofList.symm
    exact ⟨apart "" notEmpty, apart "." notHere, apart ".." notUp, by simpa using free⟩

theorem formed_parts (path : String) : Formed (parts path) := by
  have each {others : List (List Char)} (within : ∀ segment ∈ others, '/' ∉ segment) :
      ∀ part ∈ others.filterMap inner?, part.Inner := by
    intro part member
    obtain ⟨segment, listed, read⟩ := List.mem_filterMap.mp member
    exact inner_of_read (within segment listed) read
  by_cases absolute : path.toList.head? = some '/'
  next =>
    obtain ⟨rest, chars⟩ := List.head?_eq_some_iff.mp absolute
    exact ⟨[.root], _, parts_absolute chars, by simp, each fun _ => free_of_mem_segments⟩
  next =>
    cases first : segments path.toList with
    | nil => exact absurd first (segments_ne_nil _)
    | cons segment others =>
      have free : ∀ other ∈ segment :: others, '/' ∉ other :=
        fun other member => free_of_mem_segments (first ▸ member)
      by_cases here : segment = ['.']
      next =>
        subst here
        exact ⟨[.here], _, parts_here absolute first, by simp,
          each fun other member => free other (by simp [member])⟩
      next => exact ⟨[], _, parts_plain absolute first here, by simp, each free⟩

/-- A part is taken below the parts above it, the nearest one first. A step up takes back a name. -/
def descend : (above : List Part) → Part → List Part
  | .name _ :: above, .up => above
  | .here :: above, .up => .up :: above
  | .root :: above, .up => .root :: above
  | above, part => part :: above

/-- The parts that are left when every step up is taken as far as the parts before it allow. -/
def resolve (path : List Part) : List Part :=
  (path.foldl descend []).reverse

def resolved (path : String) : String :=
  render (resolve (parts path))

theorem descend_of_ne_up {part : Part} (down : part ≠ .up) (above : List Part) :
    descend above part = part :: above := by
  unfold descend
  split <;> simp_all

theorem Formed.push {above : List Part} {part : Part} (formed : Formed above.reverse)
    (inner : part.Inner) : Formed (part :: above).reverse := by
  obtain ⟨start, parts, shape, listed, each⟩ := formed.split
  refine ⟨start, parts ++ [part], by simp [shape], listed, ?_⟩
  simpa [or_imp, forall_and, inner] using each

theorem Formed.pop {above : List Part} {part : Part} (formed : Formed (part :: above).reverse) :
    (above = [] ∧ (part = .root ∨ part = .here)) ∨ (part.Inner ∧ Formed above.reverse) := by
  obtain ⟨start, parts, shape, listed, each⟩ := formed.split
  rw [List.reverse_cons] at shape
  rcases List.eq_nil_or_concat parts with rfl | ⟨parts, last, rfl⟩
  · left
    rw [List.append_nil] at shape
    subst shape
    simpa [List.append_eq_singleton_iff, and_or_left] using listed
  · right
    rw [List.concat_eq_append] at shape each
    rw [← List.append_assoc] at shape
    obtain ⟨rest, single⟩ := List.append_inj' shape rfl
    cases single
    exact ⟨each part (by simp), start, parts, rest, listed, fun other member =>
      each other (by simp [member])⟩

theorem formed_descend {above : List Part} {part : Part} (formed : Formed above.reverse)
    (inner : part.Inner) : Formed (descend above part).reverse := by
  unfold descend
  split
  next above text =>
    rcases formed.pop with ⟨-, start | start⟩ | ⟨-, rest⟩
    · cases start
    · cases start
    · exact rest
  next above =>
    rcases formed.pop with ⟨rfl, -⟩ | ⟨stands, -⟩
    · exact ⟨[], [.up], rfl, by simp, by simp [Part.Inner]⟩
    · cases stands
  next =>
    -- There is nothing above the root, so the step up is not taken.
    exact formed
  next => exact formed.push inner

theorem formed_foldl_descend {path above : List Part} (formed : Formed above.reverse)
    (inner : ∀ part ∈ path, part.Inner) : Formed (path.foldl descend above).reverse := by
  induction path generalizing above with
  | nil => exact formed
  | cons part path ih =>
    exact ih (formed_descend formed (inner part (by simp)))
      fun other member => inner other (by simp [member])

theorem Formed.resolve {path : List Part} (formed : Formed path) : Formed (resolve path) := by
  obtain ⟨start, inner, rfl, listed, each⟩ := formed.split
  have begun : start.foldl descend [] = start := by
    simp only [List.mem_cons, List.not_mem_nil, or_false] at listed
    rcases listed with rfl | rfl | rfl <;> rfl
  have alone : Formed start.reverse := by
    refine ⟨start, [], ?_, listed, by simp⟩
    simp only [List.mem_cons, List.not_mem_nil, or_false] at listed
    rcases listed with rfl | rfl | rfl <;> rfl
  -- What opens the path is kept as it is, and the invariant is carried through the rest.
  rw [Path.resolve, List.foldl_append, begun]
  exact formed_foldl_descend alone each

theorem parts_resolved (path : String) : parts (resolved path) = resolve (parts path) :=
  parts_render (formed_parts path).resolve

theorem foldl_descend_of_no_up {path : List Part} (down : .up ∉ path) (above : List Part) :
    path.foldl descend above = path.reverse ++ above := by
  induction path generalizing above with
  | nil => rfl
  | cons part path ih =>
    simp only [List.mem_cons, not_or] at down
    rw [List.foldl_cons, descend_of_ne_up (Ne.symm down.1), ih down.2]
    simp

theorem resolve_of_no_up {path : List Part} (down : .up ∉ path) : resolve path = path := by
  rw [resolve, foldl_descend_of_no_up down, List.append_nil, List.reverse_reverse]

theorem below?_eq_some_iff {base path rest : List Part} :
    below? base path = some rest ↔ path = base ++ rest := by
  fun_induction below? base path with
  | case1 path => simp
  | case2 part base => simp
  | case3 base part path ih => simpa using ih
  | case4 part base other path different => simp [Ne.symm different]

theorem Formed.isName {path : List Part} (formed : Formed path) {text : String}
    (member : .name text ∈ path) : IsName text := by
  obtain ⟨start, inner, rfl, listed, each⟩ := formed.split
  rcases List.mem_append.mp member with first | later
  · simp only [List.mem_cons, List.not_mem_nil, or_false] at listed
    rcases listed with rfl | rfl | rfl <;> simp at first
  · exact each _ later

theorem isName_of_mem_names {path : String} {base rest : List Part}
    (below : parts path = base ++ rest) {text : String} (member : text ∈ names rest) :
    IsName text := by
  obtain ⟨part, listed, named⟩ := List.mem_filterMap.mp member
  have same : part = .name text := by
    cases part <;> simp_all [name?]
  exact (formed_parts path).isName (by simp [below, same ▸ listed])

theorem intercalate_inj {first second : List String} (firstNamed : ∀ text ∈ first, IsName text)
    (secondNamed : ∀ text ∈ second, IsName text)
    (same : String.intercalate "/" first = String.intercalate "/" second) : first = second := by
  -- The joined text is a path of these names, and reading it gives them back.
  have texts (list : List String) : (list.map Part.name).map Part.text = list := by
    simp [Part.text, Function.comp_def]
  have back {list : List String} (named : ∀ text ∈ list, IsName text) :
      (segments (String.intercalate "/" list).toList).filterMap inner? = list.map Part.name := by
    have inner : ∀ part ∈ list.map Part.name, part.Inner := by
      simpa [Part.Inner] using named
    simpa only [texts] using inner_joined inner
  have parts : first.map Part.name = second.map Part.name := by
    rw [← back firstNamed, ← back secondNamed, same]
  rw [← texts first, ← texts second, parts]

end PathEquiv.Path
