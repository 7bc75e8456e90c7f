/-
  Verdict.Circuit — chains of gates that are evaluated directly.

  Each gate takes inputs, earlier gates and literal values. The operator is a word in any
  case, and a word that names no operator yields the undecided state. `blueprint` exports
  the circuit for the engine; its last gate is the output.
-/

import Verdict.Logic
import Verdict.Value.Table

namespace Verdict

structure CircuitGate where
  operator : String
  operands : List Value
  weights : List Value
  deriving Repr

structure Circuit where
  inputs : Entries
  gates : Table CircuitGate
  deriving Repr

namespace CircuitGate

/-- The state of the gate over the values of its operands. -/
def state (g : CircuitGate) (values : List Value) : Except Error State :=
  match g.operator with
  | "and" => Algebra.all [.list values]
  | "or" => Algebra.any [.list values]
  | "maj" | "consensus" => Algebra.consensus (.list values)
  | "weighted" => Algebra.weighted (.list values) (.list g.weights)
  | _ => .ok .unknown

/-- The word for the gate's operator in a blueprint. -/
def exportedOperator (g : CircuitGate) : String :=
  if g.operator = "maj" then "consensus" else g.operator

def definition (g : CircuitGate) : Value :=
  .map ([(.str "operator", .str g.exportedOperator), (.str "operands", .list g.operands)]
    ++ if g.weights.isEmpty then [] else [(.str "weights", .list g.weights)])

end CircuitGate

namespace Circuit

def empty : Circuit := ⟨[], []⟩

/-! ## Building -/

def input (c : Circuit) (name v : Value) : Except Error Circuit :=
  if name.isKey then .ok { c with inputs := Table.set c.inputs name v } else .error .wrongType

/-- The weights of a gate; nothing stands for none. -/
def weightList : Value → Except Error (List Value)
  | .null => .ok []
  | v => v.elements

def gate (c : Circuit) (name operator operands weights : Value) : Except Error Circuit :=
  match operator.text? with
  | none => .error .missingAttribute
  | some word => do
    let operands ← operands.elements
    let weights ← weightList weights
    if !name.isKey then throw .wrongType
    return { c with gates := Table.set c.gates name ⟨Text.lower word, operands, weights⟩ }

/-! ## Evaluating -/

/-- The value of an operand: a string that names something stands for it. -/
def operandValue (resolved : Entries) (operand : Value) : Value :=
  match operand.text? with
  | some _ => (Table.find? resolved operand).getD operand
  | none => operand

/-- Adds the states of gates, in their order, to what is known. -/
def resolve : Entries → Table CircuitGate → Except Error Entries
  | resolved, [] => .ok resolved
  | resolved, (name, g) :: rest => do
    let s ← g.state (g.operands.map (operandValue resolved))
    resolve (Table.set resolved name (.state s)) rest

/-- The state of an input or gate; undecided when there is no such name. -/
def evaluate (c : Circuit) (name : Value) : Except Error State := do
  let resolved ← resolve c.inputs c.gates
  if !name.isKey then throw .wrongType
  match Table.find? resolved name with
  | some v => v.toState
  | none => return .unknown

/-! ## Blueprints -/

def blueprint (c : Circuit) : Value :=
  .map [
    (.str "inputs", .map c.inputs),
    (.str "gates", .map (c.gates.map fun g => (g.1, g.2.definition))),
    (.str "output", ((Table.keys c.gates).getLast?).getD .null)]

end Circuit

end Verdict
