import PathEquiv.Sexp
import PathEquiv.Solver.Answer
import PathEquiv.Text.Decimal

set_option autoImplicit false

namespace PathEquiv

/-- The value of a constant. A real keeps its spelling, and so does what has no better reading. -/
inductive ModelValue where
  | int (value : Int)
  | real (spelling : String)
  | bool (value : Bool)
  | other (spelling : String)
  deriving DecidableEq, Repr, Inhabited

def ModelValue.integer? : Sexp → Option Int
  | .atom text => Text.int64? text.toList
  | .list [.atom "-", .atom text] => (Text.int64? text.toList).map (- ·)
  | _ => none

def ModelValue.read (sort : String) (value : Sexp) : ModelValue :=
  match sort with
  | "Int" =>
      match integer? value with
      | some n => .int n
      | none => .other value.render
  | "Real" => .real value.render
  | "Bool" =>
      match value.render with
      | "true" => .bool true
      | "false" => .bool false
      | spelling => .other spelling
  | _ => .other value.render

structure Model where
  values : List (String × ModelValue) := []
  deriving DecidableEq, Repr, Inhabited

namespace Model

def insertValue (name : String) (value : ModelValue) :
    List (String × ModelValue) → List (String × ModelValue)
  | [] => [(name, value)]
  | (other, old) :: rest =>
      if name = other then (name, value) :: rest
      else if name < other then (name, value) :: (other, old) :: rest
      else (other, old) :: insertValue name value rest

def insert (m : Model) (name : String) (value : ModelValue) : Model :=
  { values := insertValue name value m.values }

def get? (m : Model) (name : String) : Option ModelValue :=
  m.values.lookup name

def binding? : List Sexp → Option (String × ModelValue)
  | [.atom "define-fun", .atom name, .list [], .atom sort, value] =>
      some (name, .read sort value)
  | _ => none

mutual

def addFrom (m : Model) : Sexp → Model
  | .atom _ => m
  | .list items =>
      match binding? items with
      | some (name, value) => m.insert name value
      | none => addFromAll m items

def addFromAll (m : Model) : List Sexp → Model
  | [] => m
  | item :: items => addFromAll (addFrom m item) items

end

def parse (text : String) : Model :=
  addFromAll {} (Sexp.readAll text)

def int? (m : Model) (name : String) : Option Int :=
  match m.get? name with
  | some (.int value) => some value
  | _ => none

def bool? (m : Model) (name : String) : Option Bool :=
  match m.get? name with
  | some (.bool value) => some value
  | _ => none

def real? (m : Model) (name : String) : Option String :=
  match m.get? name with
  | some (.real spelling) => some spelling
  | _ => none

end Model

def Answer.witness? (answer : Answer) : Option Model :=
  answer.model.map Model.parse

end PathEquiv
