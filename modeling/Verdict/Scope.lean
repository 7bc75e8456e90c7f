/-
  Verdict.Scope — the states that gates can refer to by name.

  A scope starts with the inputs of a blueprint and grows by the state of each gate. The
  latest state of a name counts.
-/

import Verdict.Error
import Verdict.Value.Table

namespace Verdict

/-- Names and their states. -/
abbrev Scope := Table State

namespace Scope

/-- The scope as a mapping. -/
def toEntries (scope : Scope) : Entries := scope.map fun e => (e.1, .state e.2)

/-- The states among the values of a mapping. -/
def ofEntries (entries : Entries) : Scope :=
  entries.filterMap fun e =>
    match e.2 with
    | .state s => some (e.1, s)
    | _ => none

theorem ofEntries_toEntries (scope : Scope) : ofEntries scope.toEntries = scope := by
  induction scope with
  | nil => rfl
  | cons e rest ih => exact congrArg (e :: ·) ih

/-! ## Sorted names -/

/-- Values beside what they are sorted by, provided that all of them have it. -/
def keyed? {α : Type} (key? : Value → Option α) : List Value → Option (List (α × Value))
  | [] => some []
  | v :: vs => do return (← key? v, v) :: (← keyed? key? vs)

/-- Names are sorted as texts or as numbers; a mixture has no order. -/
def sort (names : List Value) : Except Error (List Value) :=
  if names.length < 2 then .ok names
  else
    match keyed? Value.text? names with
    | some texts => .ok ((texts.mergeSort fun a b => a.1 ≤ b.1).map (·.2))
    | none =>
      match keyed? Value.number? names with
      | some numbers => .ok ((numbers.mergeSort fun a b => a.1 ≤ b.1).map (·.2))
      | none => .error .wrongType

end Scope

end Verdict
