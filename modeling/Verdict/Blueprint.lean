/-
  Verdict.Blueprint — decision graphs: named inputs, gates in order, and an output.

  A blueprint keeps the mapping that it was read from, when it was read from one.
  `toValue` shows a blueprint as a record, and `ofRecord?` gets it back.
-/

import Verdict.Operand
import Verdict.Source

namespace Verdict

structure Gate where
  name : Value
  operator : Operator
  operands : List Operand
  weights : List Int
  expression : Value
  description : Value
  /-- The operator's name as written, in capitals, where it is none of the six. -/
  declared : Option String
  deriving Repr

namespace Gate

/-- The operator's name in a report: the declared one, unless that is empty. -/
def operatorLabel (g : Gate) : String :=
  match g.declared with
  | some name => if name = "" then g.operator.label else name
  | none => g.operator.label

def toValue (g : Gate) : Value :=
  .record .gate [
    ("name", g.name),
    ("operator", .operator g.operator),
    ("operands", .tuple (g.operands.map Operand.toValue)),
    ("weights", .tuple (g.weights.map Value.int)),
    ("expression", g.expression),
    ("description", g.description),
    ("declared_operator", (g.declared.map Value.str).getD .null)]

def ofRecord? : Value → Option Gate
  | .record .gate [(_, name), (_, .operator operator), (_, .tuple operands), (_, .tuple weights),
      (_, expression), (_, description), (_, declared)] => do
    return {
      name, operator, expression, description
      operands := ← operands.mapM Operand.ofRecord?
      weights := ← weights.mapM Value.int?
      declared := declared.text? }
  | _ => none

end Gate

structure Blueprint where
  inputs : List (String × Source)
  gates : List Gate
  output : Value
  name : Value
  source : Option Value
  deriving Repr

namespace Blueprint

def gateNames (b : Blueprint) : List Value := b.gates.map Gate.name

def toValue (b : Blueprint) : Value :=
  .record .blueprint [
    ("inputs", .map (b.inputs.map fun p => (.str p.1, p.2.toValue))),
    ("gates", .tuple (b.gates.map Gate.toValue)),
    ("output", b.output),
    ("name", b.name),
    ("source", b.source.getD .null)]

def inputOfRecord? (entry : Value × Value) : Option (String × Source) := do
  return (← entry.1.text?, ← Source.ofRecord? entry.2)

def ofRecord? : Value → Option Blueprint
  | .record .blueprint [(_, .map inputs), (_, .tuple gates), (_, output), (_, name),
      (_, source)] => do
    return {
      output, name
      inputs := ← inputs.mapM inputOfRecord?
      gates := ← gates.mapM Gate.ofRecord?
      source := match source with | .null => none | v => some v }
  | _ => none

end Blueprint

end Verdict
