/-
  Verdict.Source — where a blueprint's input gets its state from.

  An input is a fixed state, a path into the context, an expression over the context or
  a function of it. Written as data, a function computes, a string that starts with `@`
  is an expression, any other string is a path, and every other value is the state that
  it stands for. Torn text is not read as a source.
-/

import Verdict.Value.Coercion

namespace Verdict

inductive Source
  | literal (state : State)
  | context (path : String)
  | expression (text : String)
  | computed (f : FunctionRef)
  deriving DecidableEq, Repr

namespace Source

/-- The source as a record. -/
def toValue : Source → Value
  | literal s => .record .literalInput [("state", .state s)]
  | context path => .record .contextInput [("path", .str path)]
  | expression text => .record .expressionInput [("expression", .str text)]
  | computed f => .record .computedInput [("fn", .function f)]

/-- The source that a record is. -/
def ofRecord? : Value → Option Source
  | .record .literalInput [(_, .state s)] => some (literal s)
  | .record .contextInput [(_, .str path)] => some (context path)
  | .record .expressionInput [(_, .str text)] => some (expression text)
  | .record .computedInput [(_, .function f)] => some (computed f)
  | _ => none

/-- The source that a string writes. -/
def ofText (s : String) : Source :=
  match s.toList with
  | '@' :: rest => expression (String.ofList rest)
  | _ => context s

def ofValue (v : Value) : Except Error Source :=
  match ofRecord? v with
  | some source => .ok source
  | none =>
    match v with
    | .state s => .ok (literal s)
    | .function f => .ok (computed f)
    | .torn t => .error (.unencodable t)
    | v =>
      match v.text? with
      | some s => .ok (ofText s)
      | none => do return literal (← v.toState)

@[simp] theorem ofRecord?_toValue (s : Source) : ofRecord? s.toValue = some s := by
  cases s <;> rfl

end Source

end Verdict
