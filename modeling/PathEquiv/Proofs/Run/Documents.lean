import PathEquiv.Proofs.Expr.Structure
import PathEquiv.Proofs.Json.Nesting
import PathEquiv.Proofs.Json.Records
import PathEquiv.Run.Config
import PathEquiv.Run.Event

set_option autoImplicit false

namespace PathEquiv

open Json (Plain)

namespace Expr

theorem allToJson_eq (es : List Expr) : allToJson es = es.map toJson := by
  induction es with
  | nil => rfl
  | cons e es ih => simp [allToJson, ih]

theorem sort_name (sort : SmtSort) : sort? (.str sort.name) = some sort := by
  cases sort <;> rfl

theorem opcode_name (opcode : Opcode) : opcode? (.str opcode.name) = some opcode := by
  cases opcode <;> rfl

section Nodes

variable {given : List (String × Json)} {sort : SmtSort} {depth : Nat} (place : Json.Place)

theorem ofJsonUpTo_literal {value : String}
    (perm : given.Perm
      [("kind", .str "literal"), ("value", .str value), ("sort", .str sort.name)]) :
    ofJsonUpTo (depth + 1) place (.obj given) = some (.literal value sort) := by
  have listed : "literal" ∈ kinds := by decide
  obtain ⟨body, tagged, record⟩ :=
    Json.tagged_record_of_perm perm (by simp) place listed .ignored
  simp only [List.map_cons, List.map_nil] at record
  simp [ofJsonUpTo, tagged, record, Json.required?, Json.str?, sort_name]

theorem ofJsonUpTo_var {name : String}
    (perm : given.Perm
      [("kind", .str "variable"), ("name", .str name), ("sort", .str sort.name)]) :
    ofJsonUpTo (depth + 1) place (.obj given) = some (.var name sort) := by
  have listed : "variable" ∈ kinds := by decide
  obtain ⟨body, tagged, record⟩ :=
    Json.tagged_record_of_perm perm (by simp) place listed .ignored
  simp only [List.map_cons, List.map_nil] at record
  simp [ofJsonUpTo, tagged, record, Json.required?, Json.str?, sort_name]

variable {documents : List Json} {operands : List Expr}
  (read : Json.list? (ofJsonUpTo depth .inner) (.arr documents) = some operands)

include read

theorem ofJsonUpTo_op {opcode : Opcode}
    (perm : given.Perm
      [("kind", .str "operator"), ("op", .str opcode.name), ("operands", .arr documents)]) :
    ofJsonUpTo (depth + 1) place (.obj given) = some (.op opcode operands) := by
  have listed : "operator" ∈ kinds := by decide
  obtain ⟨body, tagged, record⟩ :=
    Json.tagged_record_of_perm perm (by simp) place listed .ignored
  simp only [List.map_cons, List.map_nil] at record
  simp [ofJsonUpTo, tagged, record, Json.required?, opcode_name, read]

theorem ofJsonUpTo_call {function : String}
    (perm : given.Perm
      [("kind", .str "uninterpreted_call"), ("function", .str function),
        ("sort", .str sort.name), ("operands", .arr documents)]) :
    ofJsonUpTo (depth + 1) place (.obj given) = some (.call function sort operands) := by
  have listed : "uninterpreted_call" ∈ kinds := by decide
  obtain ⟨body, tagged, record⟩ :=
    Json.tagged_record_of_perm perm (by simp) place listed .ignored
  simp only [List.map_cons, List.map_nil] at record
  simp [ofJsonUpTo, tagged, record, Json.required?, Json.str?, sort_name, read]

end Nodes

theorem depth_of_operands {fields : List (String × Json)} {depth : Nat}
    (deep : (Json.obj fields).depth ≤ depth + 1) (operands : List Expr)
    (listed : ("operands", .arr (allToJson operands)) ∈ fields) :
    ∀ e ∈ operands, e.toJson.depth ≤ depth := by
  rw [Json.depth, Nat.add_le_add_iff_right, Json.depthFields_le] at deep
  have inner := deep _ listed
  rw [Json.depth, allToJson_eq] at inner
  have each := Json.depthItems_le.mp (Nat.le_of_succ_le inner)
  intro e member
  exact each e.toJson (List.mem_map_of_mem member)

theorem ofJsonUpTo_toJson {depth : Nat} (e : Expr) (deep : e.toJson.depth ≤ depth)
    (place : Json.Place) :
    ofJsonUpTo depth place e.toJson = some e ∧
      ofJsonUpTo depth place e.toJson.sortFields = some e := by
  induction depth generalizing e place with
  | zero => cases e <;> simp [toJson, Json.depth] at deep
  | succ depth ih =>
    -- Sorting goes down into the operands, so both forms are needed of each of them.
    have plain (operands : List Expr) (shallow : ∀ e ∈ operands, e.toJson.depth ≤ depth) :
        Json.list? (ofJsonUpTo depth .inner) (.arr (allToJson operands)) = some operands := by
      rw [allToJson_eq]
      exact Json.list_of_read fun e member => (ih e (shallow e member) .inner).1
    have sorted (operands : List Expr) (shallow : ∀ e ∈ operands, e.toJson.depth ≤ depth) :
        Json.list? (ofJsonUpTo depth .inner) (.arr (Json.sortItems (allToJson operands))) =
          some operands := by
      rw [allToJson_eq, Json.sortItems_eq, List.map_map]
      exact Json.list_of_read fun e member => (ih e (shallow e member) .inner).2
    cases e with
    | literal value sort =>
      exact ⟨ofJsonUpTo_literal place (.refl _), ofJsonUpTo_literal place (Json.sortMembers_perm _)⟩
    | var name sort =>
      exact ⟨ofJsonUpTo_var place (.refl _), ofJsonUpTo_var place (Json.sortMembers_perm _)⟩
    | op opcode operands =>
      have shallow := depth_of_operands deep operands (by simp)
      exact ⟨ofJsonUpTo_op place (plain operands shallow) (.refl _),
        ofJsonUpTo_op place (sorted operands shallow) (Json.sortMembers_perm _)⟩
    | call function sort operands =>
      have shallow := depth_of_operands deep operands (by simp)
      exact ⟨ofJsonUpTo_call place (plain operands shallow) (.refl _),
        ofJsonUpTo_call place (sorted operands shallow) (Json.sortMembers_perm _)⟩

theorem ofJson_toJson (e : Expr) (place : Json.Place) : ofJson? place e.toJson = some e :=
  (ofJsonUpTo_toJson e (Nat.le_refl _) place).1

theorem ofJson_sortFields (e : Expr) (place : Json.Place) :
    ofJson? place e.toJson.sortFields = some e := by
  rw [ofJson?, Json.depth_sortFields]
  exact (ofJsonUpTo_toJson e (Nat.le_refl _) place).2

theorem plain_toJson (e : Expr) : Plain e.toJson := by
  induction e using Expr.operandInduction with
  | literal value sort => exact .obj (by simp [Plain.str])
  | var name sort => exact .obj (by simp [Plain.str])
  | op opcode operands ih =>
    have items : Plain (.arr (allToJson operands)) := .arr (by simpa [allToJson_eq] using ih)
    exact .obj (by simp [Plain.str, items])
  | call function sort operands ih =>
    have items : Plain (.arr (allToJson operands)) := .arr (by simpa [allToJson_eq] using ih)
    exact .obj (by simp [Plain.str, items])

end Expr

theorem Expr.toDocument_of_valid {e : Expr} (valid : e.Valid) :
    e.toDocument = .ok e.toJson.sortFields := by
  rw [Expr.toDocument, show e.check = .ok () from valid]

theorem Expr.ofDocument_sortFields {e : Expr} (valid : e.Valid) :
    Expr.ofDocument e.toJson.sortFields = .ok e := by
  simp only [Expr.ofDocument, Expr.ofJson_sortFields, show e.check = .ok () from valid]

theorem document_pretty {e : Expr} (shallow : e.toJson.depth ≤ Json.documentDepth) :
    Json.document? e.toJson.sortFields.pretty = some e.toJson.sortFields := by
  have text := Json.reads_pretty e.plain_toJson.sortFields 0
  rw [Json.pretty, text.document, Json.depth_sortFields, if_pos shallow]

theorem plain_conditionJson (condition : Option Expr) : Plain (conditionJson condition) := by
  cases condition with
  | none => exact .null
  | some e => exact Expr.plain_toJson e

theorem condition_conditionJson (place : Json.Place) (condition : Option Expr) :
    condition? place (some (conditionJson condition)) = some condition := by
  cases condition with
  | none => rfl
  | some e =>
    have present : Json.nullable? (Expr.ofJson? place) e.toJson =
        (Expr.ofJson? place e.toJson).map some := by
      cases e <;> rfl
    rw [condition?, Json.withDefault?, conditionJson, present, Expr.ofJson_toJson, Option.map_some]

theorem Flags.ofJson_toJson (flags : Flags) : Flags.ofJson? flags.toJson = some flags := by
  rfl

namespace Site

theorem ofJson_fields {site : Site} {given : List (String × Json)}
    (perm : given.Perm site.fields) (place : Json.Place) :
    ofJson? place (.obj given) = some site := by
  have record := Json.record_of_perm perm (by simp [fields]) .refused
  simp only [fields, List.map_cons, List.map_nil] at record
  simp [ofJson?, record, condition_conditionJson, Json.required?, Expr.ofJson_toJson,
    Json.withDefault?, Flags.ofJson_toJson]

theorem ofJson_toJson (site : Site) (place : Json.Place) : ofJson? place site.toJson = some site :=
  ofJson_fields (.refl _) place

theorem plain_fields (site : Site) : ∀ field ∈ site.fields, Plain field.2 := by
  have flags : Plain site.flags.toJson := .obj (by simp [Plain.bool])
  simp [fields, plain_conditionJson, Expr.plain_toJson, flags]

theorem plain_toJson (site : Site) : Plain site.toJson :=
  .obj site.plain_fields

end Site

namespace Event

def Fits : Event → Prop
  | .comparison _ | .depthLimit _ => True
  | .choice state number _ => state < Nat.pow 2 64 ∧ number < Nat.pow 2 64

theorem plain_toJson {event : Event} (fits : event.Fits) : Plain event.toJson := by
  have fields : ∀ field ∈ event.fields, Plain field.2 := by
    cases event with
    | comparison site => exact site.plain_fields
    | depthLimit condition => simp [fields, plain_conditionJson]
    | choice state number condition =>
      simp [fields, plain_conditionJson, Plain.nat fits.1, Plain.nat fits.2]
  exact .obj (List.forall_mem_cons.mpr ⟨.str _, fields⟩)

theorem tag_listed (event : Event) : event.tag ∈ tags := by
  cases event <;> simp [tag, tags]

theorem ofJson_toJson {event : Event} (fits : event.Fits) :
    ofJson? event.toJson = some event := by
  have free : "event" ∉ event.fields.map Prod.fst := by
    cases event <;> simp [fields, Site.fields]
  -- Taking out the tag leaves the fields in an order that does not matter.
  obtain ⟨body, tagged, rest⟩ := Json.tagged_of_perm (.refl _) free .outer event.tag_listed
  rw [toJson, ofJson?, tagged]
  cases event with
  | comparison site => simp [tag, Site.ofJson_fields rest]
  | depthLimit condition =>
    have record := Json.record_of_perm rest (by simp [fields]) .ignored
    simp only [fields, List.map_cons, List.map_nil] at record
    simp [tag, record, condition_conditionJson]
  | choice state number condition =>
    have record := Json.record_of_perm rest (by simp [fields]) .ignored
    simp only [fields, List.map_cons, List.map_nil] at record
    simp [tag, record, condition_conditionJson, Json.required?, Json.nat_int fits.1,
      Json.nat_int fits.2]

end Event

namespace Trace

theorem ofJson_toJson {trace : Trace} (fits : ∀ event ∈ trace.events, event.Fits) :
    ofJson? trace.toJson = some trace := by
  have events := Json.list_of_read fun event member => Event.ofJson_toJson (fits event member)
  have record := Json.record_of_perm (.refl trace.fields) (by simp [fields]) .refused
  simp only [fields, List.map_cons, List.map_nil] at record
  simp [ofJson?, toJson, fields, record, Json.required?, events]

theorem plain_toJson {trace : Trace} (fits : ∀ event ∈ trace.events, event.Fits) :
    Plain trace.toJson := by
  have events : Plain (.arr (trace.events.map Event.toJson)) := by
    refine .arr fun document member => ?_
    obtain ⟨event, listed, rfl⟩ := List.mem_map.mp member
    exact Event.plain_toJson (fits event listed)
  exact .obj (by simp [fields, events])

end Trace

namespace SolverConfig

structure Fits (config : SolverConfig) : Prop where
  timeoutSecs : config.timeoutSecs < Nat.pow 2 64
  graceMs : config.graceMs < Nat.pow 2 64

theorem kind_name (kind : SolverKind) : kind? (.str kind.name) = some kind := by
  cases kind <;> rfl

theorem nullable_commandJson (command : Option String) :
    Json.nullable? Json.str? (commandJson command) = some command := by
  cases command <;> rfl

theorem ofJson_toJson {config : SolverConfig} (fits : config.Fits) :
    ofJson? config.toJson = some config := by
  have args := Json.list_of_read fun argument (_ : argument ∈ config.args) =>
    (rfl : Json.str? (.str argument) = some argument)
  have record := Json.record_of_perm (.refl config.fields) (by simp [fields]) .refused
  simp only [fields, List.map_cons, List.map_nil] at record
  simp [ofJson?, toJson, fields, record, Json.withDefault?, Json.nat_int fits.timeoutSecs,
    Json.nat_int fits.graceMs, kind_name, nullable_commandJson, args]

theorem plain_toJson {config : SolverConfig} (fits : config.Fits) : Plain config.toJson := by
  have command : Plain (commandJson config.command) := by
    cases config.command with
    | none => exact .null
    | some command => exact .str command
  have args : Plain (.arr (config.args.map .str)) := .arr (by simp [Plain.str])
  exact .obj (by simp [fields, Plain.str, command, args, Plain.nat fits.timeoutSecs,
    Plain.nat fits.graceMs])

end SolverConfig

namespace Config

theorem ofJson_toJson {config : Config} (fits : config.solver.Fits) :
    ofJson? config.toJson = some config := by
  have record := Json.record_of_perm (.refl config.fields) (by simp [fields]) .refused
  simp only [fields, List.map_cons, List.map_nil] at record
  simp [ofJson?, toJson, fields, record, Json.withDefault?, Json.str?, Json.bool?,
    SolverConfig.ofJson_toJson fits]

theorem plain_toJson {config : Config} (fits : config.solver.Fits) : Plain config.toJson :=
  .obj (by simp [fields, Plain.str, Plain.bool, SolverConfig.plain_toJson fits])

theorem depth_toJson (config : Config) : config.toJson.depth ≤ Json.documentDepth := by
  have command : (SolverConfig.commandJson config.solver.command).depth = 0 := by
    cases config.solver.command <;> rfl
  have args : Json.depthItems (config.solver.args.map .str) ≤ 0 :=
    Json.depthItems_le.mpr (by simp [Json.depth])
  simp [toJson, fields, SolverConfig.toJson, SolverConfig.fields, Json.depth, Json.depthFields,
    command, Nat.le_zero.mp args, Json.documentDepth]

end Config

theorem read_compact {α : Type} {read : Json → Option α} {document : Json} {value : α}
    (plain : Plain document) (readBack : read document = some value) :
    (Json.document? document.compact).bind read =
      if document.depth ≤ Json.documentDepth then some value else none := by
  rw [(Json.reads_compact plain).document]
  split
  next => exact readBack
  next => rfl

/-- Traces, sites and settings are read back from their texts, a trace or a site unless it nests too
deep. An archived path condition is read back as the expression, and that is written as the same
document again. -/
theorem documents_read_back :
    (∀ trace : Trace, (∀ event ∈ trace.events, event.Fits) →
      Trace.ofText? trace.toJson.compact =
        if trace.toJson.depth ≤ Json.documentDepth then some trace else none) ∧
    (∀ site : Site, Site.ofText? site.toJson.compact =
      if site.toJson.depth ≤ Json.documentDepth then some site else none) ∧
    (∀ config : Config, config.solver.Fits →
      Config.ofText? config.toJson.compact = some config) ∧
    (∀ condition : Option Expr, ∀ e : Expr, e = condition.getD (.bool true) → e.Valid →
      e.toJson.depth ≤ Json.documentDepth →
      ∃ document text, conditionDocument condition = .ok document ∧
        conditionText condition = .ok text ∧ Json.document? text = some document ∧
        Expr.ofDocument document = .ok e ∧ e.toDocument = .ok document) := by
  refine ⟨fun trace fits => ?_, fun site => ?_, fun config fits => ?_, ?_⟩
  next => exact read_compact (Trace.plain_toJson fits) (Trace.ofJson_toJson fits)
  next => exact read_compact site.plain_toJson (site.ofJson_toJson .outer)
  next =>
    have whole := read_compact (Config.plain_toJson fits) (Config.ofJson_toJson fits)
    rwa [if_pos config.depth_toJson] at whole
  next =>
    rintro condition e rfl valid shallow
    have written := Expr.toDocument_of_valid valid
    refine ⟨_, _, written, ?_, document_pretty shallow, Expr.ofDocument_sortFields valid, written⟩
    rw [conditionText, conditionDocument, written]
    rfl

theorem documents_read_back_unusual :
    let old := Expr.string "\"\\\n\t\x00\x1f π"
    let new := Expr.op .strLen []
    let trace : Trace := { events := [
      .comparison { condition := none, old, new, flags := { isError := true } },
      .choice 18446744073709551615 0 (some new)] }
    let config : Config := { solver := { command := some "", timeoutSecs := 18446744073709551615 } }
    let condition := Expr.eq old (.call "f" .string [.int (-1)])
    Trace.ofText? trace.toJson.compact = some trace ∧
      Config.ofText? config.toJson.compact = some config ∧
      ∃ document text, conditionText (some condition) = .ok text ∧
        Json.document? text = some document ∧ Expr.ofDocument document = .ok condition := by
  intro old new trace config condition
  obtain ⟨traces, -, configs, conditions⟩ := documents_read_back
  have shallow : trace.toJson.depth ≤ Json.documentDepth := by decide
  have fits : ∀ event ∈ trace.events, event.Fits := by simp [trace, Event.Fits]
  have traceRead := traces trace fits
  rw [if_pos shallow] at traceRead
  have configRead := configs config ⟨by decide, by decide⟩
  obtain ⟨document, text, -, written, read, back, -⟩ :=
    conditions (some condition) condition rfl rfl (by decide)
  exact ⟨traceRead, configRead, document, text, written, read, back⟩

end PathEquiv
