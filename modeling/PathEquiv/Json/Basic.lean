set_option autoImplicit false

namespace PathEquiv

/-- A JSON value. Integers of 64 bits are numbers, any other number keeps its spelling, and the
fields of an object keep their order and their repetitions. -/
inductive Json where
  | null
  | bool (value : Bool)
  | int (value : Int)
  | decimal (spelling : String)
  | str (value : String)
  | arr (items : List Json)
  | obj (fields : List (String × Json))
  deriving Inhabited, BEq, Repr

namespace Json

mutual

def depth : Json → Nat
  | .arr items => depthItems items + 1
  | .obj fields => depthFields fields + 1
  | _ => 0

def depthItems : List Json → Nat
  | [] => 0
  | item :: items => max (depth item) (depthItems items)

def depthFields : List (String × Json) → Nat
  | [] => 0
  | (_, value) :: fields => max (depth value) (depthFields fields)

end

def insertField (field : String × Json) : List (String × Json) → List (String × Json)
  | [] => [field]
  | other :: fields =>
      if decide (field.1 ≤ other.1) then field :: other :: fields
      else other :: insertField field fields

mutual

def sortFields : Json → Json
  | .arr items => .arr (sortItems items)
  | .obj fields => .obj (sortMembers fields)
  | value => value

def sortItems : List Json → List Json
  | [] => []
  | item :: items => sortFields item :: sortItems items

def sortMembers : List (String × Json) → List (String × Json)
  | [] => []
  | (name, value) :: fields => insertField (name, sortFields value) (sortMembers fields)

end

end Json

end PathEquiv
