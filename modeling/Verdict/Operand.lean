/-
  Verdict.Operand — where a gate's operand gets its state from.

  An operand refers to an input or an earlier gate, possibly inverted, or is an
  expression over them, a function of them, or a fixed state. Written as data, a function
  computes, a string that starts with `!` is an inverted reference and one that starts
  with `@` an expression, any other string is a reference, and every other value is the
  state that it stands for. Torn text is not read as an operand.
-/

import Verdict.Value.Coercion

namespace Verdict

inductive Operand
  | reference (name : String) (negated : Bool)
  | expression (text : String)
  | computed (f : FunctionRef) (label : String)
  | literal (state : State)
  deriving DecidableEq, Repr

namespace Operand

/-- The name of an operand in the evidence for a decision. -/
def label : Operand → String
  | reference name negated => if negated then "!" ++ name else name
  | expression text => "@" ++ text
  | computed _ label => label
  | literal s => s.word

/-- The operand as a record. -/
def toValue : Operand → Value
  | reference name negated =>
    .record .referenceOperand [("name", .str name), ("negated", .bool negated)]
  | expression text => .record .expressionOperand [("expression", .str text)]
  | computed f label => .record .computedOperand [("fn", .function f), ("label", .str label)]
  | literal s => .record .literalOperand [("state", .state s)]

/-- The operand that a record is. -/
def ofRecord? : Value → Option Operand
  | .record .referenceOperand [(_, .str name), (_, .bool negated)] =>
    some (reference name negated)
  | .record .expressionOperand [(_, .str text)] => some (expression text)
  | .record .computedOperand [(_, .function f), (_, .str label)] => some (computed f label)
  | .record .literalOperand [(_, .state s)] => some (literal s)
  | _ => none

/-- The operand that a string writes. -/
def ofText (s : String) : Operand :=
  match s.toList with
  | '!' :: rest => reference (String.ofList rest) true
  | '@' :: rest => expression (String.ofList rest)
  | _ => reference s false

/-- A function is labelled by its name, or by its position when it has none. -/
def ofFunction (f : FunctionRef) (index : Nat) : Operand :=
  computed f (f.name.getD ("operand_" ++ Text.decimal index))

/-- The operand at a position that a value writes. -/
def ofValue (v : Value) (index : Nat) : Except Error Operand :=
  match ofRecord? v with
  | some operand => .ok operand
  | none =>
    match v with
    | .state s => .ok (literal s)
    | .function f => .ok (ofFunction f index)
    | .torn t => .error (.unencodable t)
    | v =>
      match v.text? with
      | some s => .ok (ofText s)
      | none => do return literal (← v.toState)

/-- The operands at a position and those after it. -/
def ofValues (index : Nat) : List Value → Except Error (List Operand)
  | [] => .ok []
  | v :: vs => do
    let operand ← ofValue v index
    let rest ← ofValues (index + 1) vs
    return operand :: rest

@[simp] theorem ofRecord?_toValue (o : Operand) : ofRecord? o.toValue = some o := by
  cases o <;> rfl

end Operand

end Verdict
