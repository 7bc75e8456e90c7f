/-
  Verdict.Sequence — elements and slices of a list, with positions counted from either
  end.

  Position -1 is the last element. A slice goes from a start up to a stop, forwards or
  backwards, in steps; missing bounds are the ends, and bounds outside the list are moved
  to its ends.
-/

import Verdict.Error

namespace Verdict.Sequence

variable {α : Type}

/-- A position counted from the front. -/
def position (length : Nat) (i : Int) : Int := if i < 0 then i + length else i

def get (xs : List α) (i : Int) : Except Error α :=
  let p := position xs.length i
  if p < 0 then .error .missingIndex
  else
    match xs[p.toNat]? with
    | some x => .ok x
    | none => .error .missingIndex

/-- A bound of a slice, moved into the range that its direction allows. -/
def bound (length : Nat) (backwards : Bool) (i : Int) : Int :=
  let p := position length i
  if backwards then max (-1) (min p (length - 1)) else max 0 (min p length)

/-- The number of steps from `start` up to `stop`. -/
def stepCount (start stop step : Int) : Nat :=
  if 0 < step then if start < stop then ((stop - start - 1) / step + 1).toNat else 0
  else if stop < start then ((start - stop - 1) / (-step) + 1).toNat else 0

def slice (xs : List α) (start stop step : Option Int) : Except Error (List α) :=
  let step := step.getD 1
  if step = 0 then .error .zeroStep
  else
    let backwards := decide (step < 0)
    let length := xs.length
    let first := match start with
      | some i => bound length backwards i
      | none => if backwards then length - 1 else 0
    let last := match stop with
      | some i => bound length backwards i
      | none => if backwards then -1 else length
    .ok ((List.range (stepCount first last step)).filterMap fun (k : Nat) =>
      xs[(first + (k : Int) * step).toNat]?)

/-- The first position of an element. -/
def find [BEq α] (xs : List α) (x : α) : Except Error Nat :=
  match xs.idxOf? x with
  | some i => .ok i
  | none => .error .notAnElement

end Verdict.Sequence
