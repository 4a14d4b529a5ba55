import PathEquiv.Expr.Document
import PathEquiv.Partition.Flags

set_option autoImplicit false

namespace PathEquiv

/-- A point at which both versions have a result on one path. Without a condition every input
takes the path. -/
structure Site where
  condition : Option Expr
  old : Expr
  new : Expr
  flags : Flags := {}
  deriving Inhabited, Repr

def conditionJson : Option Expr → Json
  | none => .null
  | some e => e.toJson

def condition? (place : Json.Place) (field : Option Json) : Option (Option Expr) :=
  Json.withDefault? none (Json.nullable? (Expr.ofJson? place)) field

namespace Site

def fields (site : Site) : List (String × Json) := [
  ("path_condition", conditionJson site.condition),
  ("old", site.old.toJson),
  ("new", site.new.toJson),
  ("flags", site.flags.toJson)]

def toJson (site : Site) : Json :=
  .obj site.fields

def ofJson? (place : Json.Place) (document : Json) : Option Site := do
  let names := ["path_condition", "old", "new", "flags"]
  let [condition, old, new, flags] ← document.record? names .refused | none
  return {
    condition := ← condition? place condition
    old := ← Json.required? (Expr.ofJson? place) old
    new := ← Json.required? (Expr.ofJson? place) new
    flags := ← Json.withDefault? {} Flags.ofJson? flags }

def ofText? (text : String) : Option Site :=
  (Json.document? text).bind (ofJson? .outer)

end Site

inductive Event where
  | comparison (site : Site)
  | depthLimit (condition : Option Expr)
  | choice (state number : Nat) (condition : Option Expr)
  deriving Inhabited, Repr

namespace Event

def tags : List String := ["comparison", "depth_limit", "choice"]

def tag : Event → String
  | .comparison _ => "comparison"
  | .depthLimit _ => "depth_limit"
  | .choice _ _ _ => "choice"

def fields : Event → List (String × Json)
  | .comparison site => site.fields
  | .depthLimit condition => [("path_condition", conditionJson condition)]
  | .choice state number condition =>
      [("state", .int state), ("choice", .int number), ("path_condition", conditionJson condition)]

def toJson (event : Event) : Json :=
  .obj (("event", .str event.tag) :: event.fields)

def ofJson? (document : Json) : Option Event := do
  let (kind, body) ← Json.tagged? .outer "event" tags document
  match kind with
  | "comparison" => return .comparison (← Site.ofJson? .inner body)
  | "depth_limit" =>
      let [condition] ← body.record? ["path_condition"] .ignored | none
      return .depthLimit (← condition? .inner condition)
  | _ =>
      let [state, number, condition] ←
        body.record? ["state", "choice", "path_condition"] .ignored | none
      return .choice (← Json.required? Json.nat? state) (← Json.required? Json.nat? number)
        (← condition? .inner condition)

end Event

structure Trace where
  events : List Event
  deriving Inhabited, Repr

namespace Trace

def fields (trace : Trace) : List (String × Json) :=
  [("events", .arr (trace.events.map Event.toJson))]

def toJson (trace : Trace) : Json :=
  .obj trace.fields

def ofJson? (document : Json) : Option Trace := do
  let [events] ← document.record? ["events"] .refused | none
  return { events := ← Json.required? (Json.list? Event.ofJson?) events }

def ofText? (text : String) : Option Trace :=
  (Json.document? text).bind ofJson?

end Trace

end PathEquiv
