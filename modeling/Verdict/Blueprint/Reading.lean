/-
  Verdict.Blueprint.Reading — blueprints from mappings.

  Gates may be a mapping from names to definitions or a list of definitions; a gate
  without a name is called by its position, and a name in a mapping that is no string by
  that key. Inputs have whole names. Anything that does not count as true stands for no
  gates, no inputs, no operands or no weights. Inputs are read before gates, and within a gate the operator
  before the operands and these before the weights.
-/

import Verdict.Blueprint
import Verdict.Operator.Reading
import Verdict.Value.Table

namespace Verdict

namespace Gate

/-- The operator's name in capitals, where it spells none of the operators. -/
def declaredName (written : Value) (operator : Operator) : Option String :=
  match written with
  | .null | .operator _ => none
  | v =>
    if Operator.spelled v = operator.word then none
    else some (Text.upper (Text.strip v.display))

/-- The operator as written in a definition; `and` when there is none. -/
def writtenOperator (entries : Entries) : Value :=
  (Table.find? entries (.str "operator")).getD (.str "and")

def ofDefinition (name definition : Value) : Outcome Gate := do
  let entries ← definition.asMapping
  let operands ← Value.orElse (entries.field "operands") (.list [])
  let written := writtenOperator entries
  let operator ← Operator.read written
  let operands ← Operand.ofValues 0 (← operands.elements)
  let weights ← (entries.field "weights").weights
  return {
    name, operator, operands, weights
    expression := entries.field "expression"
    description := entries.field "description"
    declared := declaredName written operator }

def ofDefinitions : List (Value × Value) → Outcome (List Gate)
  | [] => return []
  | (name, definition) :: rest => do
    let gate ← ofDefinition name definition
    let gates ← ofDefinitions rest
    return gate :: gates

end Gate

namespace Blueprint

/-- The name of a gate under a key of a mapping. -/
def keyName (key : Value) : Value :=
  match key.script? with
  | some _ => key
  | none => .str ("gate_" ++ key.display)

/-- The names and definitions of a list of gates, from a position on. -/
def listed (index : Nat) : List Value → Except Error (List (Value × Value))
  | [] => .ok []
  | definition :: rest => do
    let entries ← definition.asMapping
    let name ← Value.orElse (entries.field "name") (.str ("gate_" ++ Text.decimal index))
    let others ← listed (index + 1) rest
    return (name, definition) :: others

/-- The names and definitions of all gates. -/
def gateItems (gates : Value) : Except Error (List (Value × Value)) :=
  match gates with
  | .map entries => .ok (entries.map fun e => (keyName e.1, e.2))
  | v => do listed 0 (← v.elements)

/-- Adds a named source; a name that is there already keeps its place. -/
def setInput (name : String) (source : Source) :
    List (String × Source) → List (String × Source)
  | [] => [(name, source)]
  | (n, s) :: rest => if n = name then (n, source) :: rest else (n, s) :: setInput name source rest

/-- The name of an input under a key of a mapping. -/
def inputName : Value → Except Error String
  | .torn t => .error (.unencodable t)
  | key => .ok key.display

/-- Reads named inputs, after those in `read`. -/
def readInputs (read : List (String × Source)) :
    List (Value × Value) → Except Error (List (String × Source))
  | [] => .ok read
  | (name, value) :: rest => do
    let name ← inputName name
    let source ← Source.ofValue value
    readInputs (setInput name source read) rest

def ofMapping (data : Value) : Outcome Blueprint := do
  let entries ← data.asMapping
  let items ← gateItems (← Value.orElse (entries.field "gates") (.map []))
  let inputs ← Value.orElse (entries.field "inputs") (.map [])
  let inputs ← readInputs [] (← inputs.asMapping)
  let gates ← Gate.ofDefinitions items
  let name ← Value.orElse (entries.field "name") (entries.field "id")
  return { inputs, gates, output := entries.field "output", name, source := some data }

/-- A blueprint as it is, or one read from a mapping. -/
def ofValue (v : Value) : Outcome Blueprint :=
  match ofRecord? v with
  | some blueprint => return blueprint
  | none => ofMapping v

end Blueprint

end Verdict
