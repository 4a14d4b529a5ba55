import PathEquiv.Expr.CallFlags
import PathEquiv.Expr.Document
import PathEquiv.Partition.Classification
import PathEquiv.Query

set_option autoImplicit false

namespace PathEquiv

-- Counting has no end here. In fewer than 2 ^ 32 - 1 events no number leaves 32 bits.
structure PartitionCounter where
  allocated : Nat := 0
  deriving DecidableEq, Repr, Inhabited

def PartitionCounter.allocate (counter : PartitionCounter) : Nat × PartitionCounter :=
  (counter.allocated + 1, { allocated := counter.allocated + 1 })

/-- How a partition ended: at a comparison of two results, or at the bound of the exploration. -/
inductive PartitionKind where
  | comparison
  | depthLimit
  deriving DecidableEq, Repr, Inhabited

def PartitionKind.name : PartitionKind → String
  | comparison => "comparison"
  | depthLimit => "depth_limit"

structure PerQuery (α : Type) where
  pc : Option α := none
  neq : Option α := none
  eq : Option α := none
  deriving DecidableEq, Repr

instance {α : Type} : Inhabited (PerQuery α) := ⟨{}⟩

namespace PerQuery

variable {α : Type}

def get? (values : PerQuery α) : QueryKind → Option α
  | .reachability => values.pc
  | .neq => values.neq
  | .eq => values.eq

def set (values : PerQuery α) (kind : QueryKind) (value : α) : PerQuery α :=
  match kind with
  | .reachability => { values with pc := some value }
  | .neq => { values with neq := some value }
  | .eq => { values with eq := some value }

@[simp] theorem get?_set (values : PerQuery α) (kind other : QueryKind) (value : α) :
    (values.set kind value).get? other =
      if kind = other then some value else values.get? other := by
  cases kind <;> cases other <;> rfl

end PerQuery

structure Record where
  id : Nat
  kind : PartitionKind
  condition : Option Expr
  old : Option Expr
  new : Option Expr
  flags : Flags
  calls : CallFlags
  answers : PerQuery Answer
  fingerprints : PerQuery String
  classification : Classification
  equivalent : Bool
  errors : List String
  deriving Inhabited, Repr

namespace Record

private def orNull {α : Type} (write : α → Json) : Option α → Json
  | none => .null
  | some value => write value

private def unlessNone {α : Type} (name : String) (write : α → Json) :
    Option α → List (String × Json)
  | none => []
  | some value => [(name, write value)]

private def callsJson (calls : CallFlags) : Json :=
  .obj [("pc", .bool calls.pc), ("old", .bool calls.old), ("new", .bool calls.new)]

private def answersJson (answers : PerQuery Answer) : Json :=
  .obj [
    ("pc", orNull Answer.toJson answers.pc),
    ("neq", orNull Answer.toJson answers.neq),
    ("eq", orNull Answer.toJson answers.eq)]

private def fingerprintsJson (fingerprints : PerQuery String) : Json :=
  .obj (unlessNone "pc" .str fingerprints.pc ++ unlessNone "neq" .str fingerprints.neq ++
    unlessNone "eq" .str fingerprints.eq)

/-- The document of a record. Results that a partition does not have are left out, and so is an
empty list of errors. -/
def toJson (r : Record) : Json :=
  .obj ([
    ("id", .int r.id),
    ("kind", .str r.kind.name),
    ("path_condition", orNull Expr.toJson r.condition)] ++
    unlessNone "old" Expr.toJson r.old ++
    unlessNone "new" Expr.toJson r.new ++ [
    ("flags", r.flags.toJson),
    ("uif", callsJson r.calls),
    ("results", answersJson r.answers),
    ("fingerprints", fingerprintsJson r.fingerprints),
    ("classification", .str r.classification.name),
    ("equivalent", .bool r.equivalent)] ++
    if r.errors.isEmpty then [] else [("errors", .arr (r.errors.map .str))])

end Record

end PathEquiv
