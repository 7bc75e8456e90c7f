/-
  Verdict.Logic — the algebra of states over values, and expressions when a language is
  bound.

  The operations take values, coerce what they find at the leaves and combine the states.
  Without a registry there is no expression language, and asking for one is an error.
-/

import Verdict.Expression.Evaluation
import Verdict.Vector

namespace Verdict

namespace Algebra

def all (values : List Value) : Except Error State := do
  return Vote.all (← (Value.tuple values).leafStates)

def any (values : List Value) : Except Error State := do
  return Vote.any (← (Value.tuple values).leafStates)

def lead (values : List Value) : Except Error State := do
  return Vote.lead (← (Value.tuple values).leafStates)

def invert (v : Value) : Except Error State := do return (← v.toState).invert

def consensus (v : Value) : Except Error State := do return Vote.consensus (← v.toVector)

def score (v : Value) : Except Error Int := do return Vote.score (← v.toVector)

/-- A vote with weights; the states are read before the weights. -/
def weighted (v weights : Value) : Except Error State := do
  let states ← v.toVector
  return Vote.weighted (← weights.weights) states

def encode (v : Value) : Except Error String := do return encodeStates (← v.toVector)

def decode (v : Value) : Except Error (List State) := do decodeElements (← v.elements)

end Algebra

/-- The algebra with an expression language, or without one. -/
structure Logic where
  registry : Option Expression.Registry

namespace Logic

def standard : Logic := ⟨some .standard⟩

/-- The state of an expression in a context. A context that does not count as true is an
    empty one. -/
def expression (l : Logic) (text context : Value) : Outcome State := do
  match l.registry with
  | none => throw (.noEvaluator text)
  | some registry =>
    let context ← Value.orElse context (.map [])
    match text.text? with
    | some s => registry.evaluate s context
    | none => throw .wrongType

end Logic

end Verdict
