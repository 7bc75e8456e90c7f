/-
  Verdict.Noise — signals in which too many states are undecided.

  Up to a threshold, the share of undecided states leaves the signal as it is. Beyond it
  every state becomes the dominant decided one, which is the more frequent one and on a
  tie the one that comes first; without any decided state all stay undecided.
-/

import Verdict.Value.Coercion

namespace Verdict.Noise

/-- The greatest share of undecided states that is accepted: an exact fraction, or a
    number that the share is compared with after rounding. -/
inductive Threshold
  | fraction (numerator : Int) (denominator : Nat)
  | number (bound : Number)
  deriving DecidableEq, Repr

def Threshold.accepts (t : Threshold) (unknowns total : Nat) : Bool :=
  match t with
  | fraction numerator denominator => unknowns * denominator ≤ numerator * total
  | number bound => (Number.float (.ofQuotient unknowns total)).le bound

/-- The decided state that dominates, if any state is decided. -/
def dominant? (states : List State) : Option State :=
  let yes := states.count .yes
  let no := states.count .no
  if no < yes then some .yes
  else if yes < no then some .no
  else states.find? State.isKnown

def normalize (t : Threshold) (states : List State) : List State :=
  if states.isEmpty then []
  else if t.accepts (states.count .unknown) states.length then states
  else List.replicate states.length ((dominant? states).getD .unknown)

/-- The threshold that is used when none is given: one half. -/
def standardThreshold : Value := .float (.ofQuotient 1 2)

/-- Normalizes values taken as states. Without any there is nothing to compare with the
    threshold. -/
def normalizeValues (values threshold : Value) : Except Error (List State) := do
  let states ← Value.toStates (← values.elements)
  match states, threshold.number? with
  | [], _ => return []
  | _, some bound => return normalize (.number bound) states
  | _, none => throw .wrongType

end Verdict.Noise
