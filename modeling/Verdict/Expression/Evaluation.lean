/-
  Verdict.Expression.Evaluation — the state of an expression in a context.

  The postfix tokens run on a stack of words and states. A word is looked up only when an
  operator takes it or at the end: a literal is its state, any other word a path into the
  context, and a path that leads nowhere is undecided. Operands are looked up from left to
  right.
-/

import Verdict.Expression.Postfix
import Verdict.Path
import Verdict.Value.Coercion
import Verdict.Vote

namespace Verdict.Expression

/-- What stands on the stack. -/
inductive Term
  | word (text : String)
  | state (s : State)
  deriving DecidableEq, Repr

/-! ## Operands -/

/-- The state at a path; each leading `!` inverts. -/
def fetch (context : Value) : List Char → Except Error State
  | '!' :: path => do return (← fetch context path).invert
  | path =>
    match context.resolve? (String.ofList path) with
    | some v => v.toState
    | none => .ok .unknown

def resolveWord (context : Value) (word : String) : Except Error State :=
  match literal? word with
  | some s => .ok s
  | none => fetch context word.toList

/-- The state of a value used as an operand: a string is a word. -/
def resolveValue (context v : Value) : Except Error State :=
  match v.text? with
  | some word => resolveWord context word
  | none => v.toState

namespace Term

def resolve (context : Value) : Term → Except Error State
  | word text => resolveWord context text
  | state s => .ok s

def resolveAll (context : Value) : List Term → Except Error (List State)
  | [] => .ok []
  | t :: ts => do
    let s ← t.resolve context
    let rest ← resolveAll context ts
    return s :: rest

end Term

/-! ## Operators and calls -/

/-- The second state when the first is `yes`, the third when it is `no`, and otherwise
    what both agree on. -/
def choose : List State → State
  | [.yes, s, _] => s
  | [.no, _, s] => s
  | [.unknown, s, t] => Vote.consensus [s, t]
  | _ => .unknown

def Builtin.apply (b : Builtin) (states : List State) : State :=
  match b with
  | .not => (states.head?.map State.invert).getD .unknown
  | .and => Vote.all states
  | .or => Vote.any states
  | .xor => Vote.lead states
  | .majority => Vote.weighted (List.replicate states.length 1) states
  | .consensus => Vote.consensus states
  | .conditional => choose states

/-- The state of a handler's answer. -/
def Handler.apply (handler : Handler) (states : List State) : Outcome State := do
  (← handler states).toState

def Action.apply (action : Action) (states : List State) : Outcome State :=
  match action with
  | .builtin b => return b.apply states
  | .custom handler => Handler.apply handler states

def loggerName : String := "trilean.engine.expression"

/-- A call of a name that nobody registered is undecided. -/
def unregistered (name : String) : Outcome State := do
  Outcome.log loggerName .debug ("No handler registered for " ++ name ++ "(), resolving to UNKNOWN")
  return .unknown

/-- The state of a call. The conditional is always the language's own. -/
def Registry.call (r : Registry) (context : Value) (t : Token) (operands : List Term) :
    Outcome State := do
  if t.text = Builtin.conditional.key then
    if operands.length ≠ 3 then
      throw (.malformed (.argumentCount operands.length t.position))
    return choose (← Term.resolveAll context operands)
  else if isCallableKey t.text then
    let spec ← r.operator t.text
    spec.action.apply (← Term.resolveAll context operands)
  else
    match r.function? t.text with
    | some handler => Handler.apply handler (← Term.resolveAll context operands)
    | none => unregistered t.text

/-! ## Runs -/

/-- The operands on top of the stack, in the order in which they were written, and the
    stack below them. -/
def popOperands (expression : String) (t : Token) (arity : Int) (stack : List Term) :
    Except Error (List Term × List Term) :=
  if (stack.length : Int) < arity then
    .error (.malformed (.missingOperands t.text arity expression t.position))
  else .ok ((stack.take arity.toNat).reverse, stack.drop arity.toNat)

/-- Runs one postfix token. -/
def Registry.step (r : Registry) (expression : String) (context : Value) (stack : List Term)
    (t : Token) : Outcome (List Term) := do
  match t.kind with
  | .operand => return .word t.text :: stack
  | .function =>
    let (operands, below) ← popOperands expression t t.arguments stack
    return .state (← r.call context t operands) :: below
  | _ =>
    let spec ← r.operator t.text
    let (operands, below) ← popOperands expression t spec.arity stack
    return .state (← spec.action.apply (← Term.resolveAll context operands)) :: below

/-- The state of what a run leaves on the stack. -/
def conclude (expression : String) (context : Value) : List Term → Except Error State
  | [] => .ok .unknown
  | [t] => t.resolve context
  | _ => .error (.malformed (.operandsLeft expression))

def Registry.evaluate (r : Registry) (expression : String) (context : Value) : Outcome State := do
  let postfixTokens ← r.toPostfix (r.tokenize expression)
  let stack ← postfixTokens.foldlM (r.step expression context) []
  conclude expression context stack

end Verdict.Expression
