/-
  Verdict.Draft — blueprints put together step by step.

  A draft collects inputs, gates and a context under names; naming something again
  changes it in its place. `blueprint` is the mapping that the engine evaluates.
-/

import Verdict.Operator
import Verdict.Value.Coercion
import Verdict.Value.Table

namespace Verdict

structure DraftGate where
  operator : Operator
  operands : List Value
  /-- What else the gate's definition says. -/
  options : Entries
  deriving Repr

structure Draft where
  inputs : Entries
  gates : Table DraftGate
  output : Value
  context : Entries
  name : Value
  deriving Repr

def DraftGate.definition (g : DraftGate) : Value :=
  .map ((.str "operator", .str g.operator.word) :: (.str "operands", .list g.operands) :: g.options)

namespace Draft

/-- The name of an input that was given without one. -/
def inputName (index : Nat) : Value := .str ("input_" ++ Text.decimal index)

def numberFrom (index : Nat) : List Value → Entries
  | [] => []
  | v :: vs => (inputName index, v) :: numberFrom (index + 1) vs

/-- A draft with inputs that are called by their places. -/
def ofValues (values : List Value) : Draft := ⟨numberFrom 0 values, [], .null, [], .null⟩

/-- A name that can stand in a table. -/
def key (name : Value) : Except Error Value :=
  if name.isKey then .ok name else .error .wrongType

/-! ## Inputs and context -/

def input (d : Draft) (name v : Value) : Except Error Draft := do
  return { d with inputs := Table.set d.inputs (← key name) v }

/-- The two parts of a pair. -/
def pair (v : Value) : Except Error (Value × Value) := do
  match ← v.elements with
  | [k, w] => return (← key k, w)
  | _ => throw .wrongType

/-- The pairs of a mapping, or of a list of pairs. -/
def pairs (v : Value) : Except Error Entries :=
  match v with
  | .map entries => .ok entries
  | v => do (← v.elements).mapM pair

def addInputs (d : Draft) (v : Value) : Except Error Draft := do
  return { d with inputs := Table.merge d.inputs (← pairs v) }

def addContext (d : Draft) (v : Value) : Except Error Draft := do
  return { d with context := Table.merge d.context (← pairs v) }

/-! ## Gates -/

def gate (d : Draft) (name : Value) (operator : Operator) (operands : Value) (options : Entries) :
    Except Error Draft := do
  let operands ← operands.elements
  return { d with gates := Table.set d.gates (← key name) ⟨operator, operands, options⟩ }

/-- An option that is left out when it says nothing. -/
def option (name : String) : Value → Entries
  | .null => []
  | v => [(.str name, v)]

def weightedGate (d : Draft) (name operands weights : Value) : Except Error Draft := do
  let weights ← weights.elements
  d.gate name .weighted operands [(.str "weights", .list weights)]

/-- A gate over all inputs, which becomes the output. -/
def require (d : Draft) (name : String) (operator : Operator) : Draft :=
  { d with
    gates := Table.set d.gates (.str name) ⟨operator, Table.keys d.inputs, []⟩
    output := .str name }

def requireAll (d : Draft) : Draft := d.require "all_required" .and

def requireAny (d : Draft) : Draft := d.require "any_required" .or

/-! ## Blueprints -/

/-- The name of a blueprint that was given none. -/
def defaultName : String := "fluent_decision"

def blueprint (d : Draft) : Except Error Value := do
  let name ← Value.orElse d.name (.str defaultName)
  return .map [
    (.str "name", name),
    (.str "inputs", .map d.inputs),
    (.str "gates", .map (d.gates.map fun g => (g.1, g.2.definition))),
    (.str "output", d.output)]

end Draft

end Verdict
