import PathEquiv.Declaration.Inference
import PathEquiv.Expr.Printer

set_option autoImplicit false

namespace PathEquiv.Expr

@[elab_as_elim]
theorem operandInduction {motive : Expr → Prop}
    (literal : ∀ value sort, motive (.literal value sort))
    (var : ∀ name sort, motive (.var name sort))
    (op : ∀ opcode operands, (∀ e ∈ operands, motive e) → motive (.op opcode operands))
    (call : ∀ function sort operands, (∀ e ∈ operands, motive e) →
      motive (.call function sort operands))
    (e : Expr) : motive e := by
  refine @Expr.rec motive (fun es => ∀ e ∈ es, motive e) literal var op call ?_ ?_ e
  · simp
  · intro head tail first rest e member
    cases member with
    | head => exact first
    | tail _ later => exact rest e later

theorem anyHasCall_eq (es : List Expr) : anyHasCall es = es.any hasCall := by
  induction es with
  | nil => rfl
  | cons e es ih => simp [anyHasCall, ih]

theorem printAll_eq (es : List Expr) : printAll es = es.map print := by
  induction es with
  | nil => rfl
  | cons e es ih => simp [printAll, ih]

theorem checkAll_eq_ok {es : List Expr} : checkAll es = .ok () ↔ ∀ e ∈ es, e.Valid := by
  induction es with
  | nil => simp [checkAll]
  | cons e es ih =>
    cases checked : e.check with
    | ok => simp [checkAll, checked, ih, Valid]
    | error => simp [checkAll, checked, Valid]

theorem valid_literal {value : String} {sort : SmtSort} :
    (literal value sort).Valid ↔ sort.spells value = true := by
  simp [Valid, check]

theorem checkSymbol_eq_ok (role : SymbolRole) {name : String} :
    checkSymbol role name = .ok () ↔ isSimpleSymbol name.toList = true := by
  cases shape : name.toList with
  | nil => simp [checkSymbol, shape, isSimpleSymbol]
  | cons => simp [checkSymbol, shape]

theorem valid_var {name : String} {sort : SmtSort} :
    (var name sort).Valid ↔ isSimpleSymbol name.toList = true :=
  checkSymbol_eq_ok .variableName

theorem valid_op {opcode : Opcode} {operands : List Expr} :
    (op opcode operands).Valid ↔
      opcode.arity.accepts operands.length = true ∧ ∀ e ∈ operands, e.Valid := by
  by_cases accepted : opcode.arity.accepts operands.length = true <;>
    simp [Valid, check, accepted, checkAll_eq_ok]

theorem valid_call {function : String} {sort : SmtSort} {operands : List Expr} :
    (call function sort operands).Valid ↔
      isSimpleSymbol function.toList = true ∧ ∀ e ∈ operands, e.Valid := by
  rw [← checkSymbol_eq_ok .functionName]
  cases checked : checkSymbol .functionName function with
  | ok => simp [Valid, check, checked, checkAll_eq_ok]
  | error => simp [Valid, check, checked]

end PathEquiv.Expr
