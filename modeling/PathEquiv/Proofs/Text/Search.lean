import Mathlib.Data.List.Infix
import PathEquiv.Text.Search

set_option autoImplicit false

namespace PathEquiv.Text

variable {part start : List Char}

theorem after_append (start rest : List Char) : after? start (start ++ rest) = some rest := by
  induction start with
  | nil => rfl
  | cons c start ih => simpa [after?] using ih

theorem eq_append_of_after {text rest : List Char} (found : after? start text = some rest) :
    text = start ++ rest := by
  induction start generalizing text with
  | nil => exact Option.some.inj found
  | cons c start ih =>
    cases text with
    | nil => cases found
    | cons d text =>
      simp only [after?] at found
      split at found
      next same => rw [same, ih found, List.cons_append]
      next => cases found

theorem startsWith_iff {text : List Char} : startsWith start text = true ↔ start <+: text := by
  constructor
  next =>
    intro found
    obtain ⟨rest, after⟩ := Option.isSome_iff_exists.mp found
    exact ⟨rest, (eq_append_of_after after).symm⟩
  next =>
    intro first
    obtain ⟨rest, rfl⟩ := first
    rw [startsWith, after_append]
    rfl

theorem hasStart_iff {start text : String} :
    hasStart start text = true ↔ start.toList <+: text.toList :=
  startsWith_iff

theorem occurs_iff {text : List Char} : occurs part text = true ↔ part <:+: text := by
  induction text with
  | nil => simp [occurs]
  | cons c text ih => rw [occurs, Bool.or_eq_true, startsWith_iff, ih, List.infix_cons_iff]

theorem hasPart_iff {part text : String} :
    hasPart part text = true ↔ part.toList <:+: text.toList :=
  occurs_iff

theorem prefix_separated {sep : Char} (free : sep ∉ part) (text rest : List Char) :
    part <+: text ++ sep :: rest ↔ part <+: text := by
  induction part generalizing text with
  | nil => simp
  | cons c part ih =>
    rw [List.mem_cons, not_or] at free
    cases text with
    | nil => simp [Ne.symm free.1]
    | cons d text => rw [List.cons_append, List.cons_prefix_cons, List.cons_prefix_cons, ih free.2]

theorem infix_separated {sep : Char} (free : sep ∉ part) (text rest : List Char) :
    part <:+: text ++ sep :: rest ↔ part <:+: text ∨ part <:+: rest := by
  induction text with
  | nil =>
    have here := prefix_separated free [] rest
    rw [List.nil_append] at here ⊢
    rw [List.infix_cons_iff, here, List.prefix_nil, List.infix_nil]
  | cons d text ih =>
    have here := prefix_separated free (d :: text) rest
    rw [List.cons_append] at here ⊢
    rw [List.infix_cons_iff, here, ih, List.infix_cons_iff, or_assoc]

end PathEquiv.Text
