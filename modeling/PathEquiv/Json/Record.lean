import PathEquiv.Json.Basic

set_option autoImplicit false

namespace PathEquiv.Json

inductive Extras where
  | refused
  | ignored
  deriving DecidableEq, Repr

/-- The fields of a record, in the order of `names`. An object gives each of them at most once,
an array gives them by position from the first on. -/
def record? (names : List String) (extras : Extras) : Json → Option (List (Option Json))
  | .obj fields =>
      let known := fields.all fun field => names.contains field.1
      let once := names.all fun name => (fields.filter (·.1 == name)).length ≤ 1
      if once && (known || extras == .ignored) then
        some (names.map fun name => fields.lookup name)
      else none
  | .arr items =>
      if items.length ≤ names.length then
        some (items.map some ++ List.replicate (names.length - items.length) none)
      else none
  | _ => none

/-- Where a document stands. Inside a tagged document a tag may also be given by its index and
the payload of a constant may also be an empty object. -/
inductive Place where
  | outer
  | inner
  deriving DecidableEq, Repr

def tag? (place : Place) (tags : List String) : Json → Option String
  | .str name => if tags.contains name then some name else none
  | .int index =>
      if place = .inner ∧ 0 ≤ index then tags[index.toNat]? else none
  | _ => none

/-- Splits a tagged record into its tag and the rest. The tag is a field of an object, at any
position but only once, or the first item of an array. -/
def tagged? (place : Place) (field : String) (tags : List String) : Json → Option (String × Json)
  | .obj fields =>
      match fields.filter (·.1 == field) with
      | [(_, value)] =>
          (tag? place tags value).map fun name => (name, .obj (fields.filter (·.1 != field)))
      | _ => none
  | .arr (value :: items) => (tag? place tags value).map fun name => (name, .arr items)
  | _ => none

def constant? (place : Place) : Json → Option String
  | .str name => some name
  | .obj [(name, .null)] => some name
  | .obj [(name, .obj [])] => if place = .inner then some name else none
  | _ => none

def str? : Json → Option String
  | .str value => some value
  | _ => none

def bool? : Json → Option Bool
  | .bool value => some value
  | _ => none

def nat? : Json → Option Nat
  | .int (.ofNat value) => if value < Nat.pow 2 64 then some value else none
  | _ => none

def nullable? {α : Type} (read : Json → Option α) : Json → Option (Option α)
  | .null => some none
  | value => (read value).map some

def list? {α : Type} (read : Json → Option α) : Json → Option (List α)
  | .arr items => items.mapM read
  | _ => none

def required? {α : Type} (read : Json → Option α) (field : Option Json) : Option α :=
  field.bind read

def withDefault? {α : Type} (default : α) (read : Json → Option α) : Option Json → Option α
  | none => some default
  | some value => read value

end PathEquiv.Json
