/-
  Verdict.Blueprint.Evaluation — a blueprint's report in a context.

  The inputs are resolved in the context, then the gates are decided in their order. A
  gate sees the inputs and the gates before it, under the same names; its own state hides
  an earlier one of its name. The result is the state that the blueprint names as its
  output, else the state of the last gate. What functions do is told by their host.
-/

import Verdict.Blueprint.Reading
import Verdict.Logic
import Verdict.Report
import Verdict.Scope

namespace Verdict

/-- What the functions of the host program do. -/
structure Host where
  /-- The value of an input, given the context. -/
  input : FunctionRef → Value → Outcome Value
  /-- The value of an operand, given the scope and the decisions so far. -/
  operand : FunctionRef → Scope → List Decision → Outcome Value

/-- A host without functions. -/
def Host.none : Host := ⟨fun _ _ => throw .wrongType, fun _ _ _ => throw .wrongType⟩

/-- Applies a gate's operator to the states of its operands. -/
def Operator.apply (o : Operator) (weights : List Int) (states : List State) : State :=
  match o with
  | .or => Vote.any states
  | .not => (states.head?.map State.invert).getD .unknown
  | .consensus => Vote.consensus states
  | .weighted => Vote.weighted weights states
  | .and | .expression => Vote.all states

namespace Blueprint

def loggerName : String := "trilean.engine.decision_engine"

/-- The logic and the host that a blueprint is evaluated with. -/
structure Setting where
  logic : Logic
  host : Host

namespace Setting

variable (env : Setting)

/-! ## Inputs -/

/-- The state at a path of the context; a path that leads nowhere is undecided. -/
def atPath (context : Value) (path : String) : Except Error State :=
  match context.resolve? path with
  | some v => v.toState
  | none => .ok .unknown

def resolveInput (context : Value) : Source → Outcome State
  | .literal s => return s
  | .context path => atPath context path
  | .expression text => env.logic.expression (.str text) context
  | .computed f => do (← env.host.input f context).toState

/-- Resolves inputs in their order. -/
def resolveInputs (context : Value) : (scope : Scope) → List (String × Source) → Outcome Scope
  | scope, [] => return scope
  | scope, (name, source) :: rest => do
    let s ← env.resolveInput context source
    resolveInputs context (Table.set scope (.str name) s) rest

/-! ## Gates -/

/-- The state of a name that an operand of `gate` refers to. -/
def refer (scope : Scope) (gate : Value) (name : String) : Except Error State :=
  match Table.find? scope (.str name) with
  | some s => .ok s
  | none => do throw (.undefinedOperand name gate (← Scope.sort (Table.keys scope)))

def resolveOperand (scope : Scope) (decisions : List Decision) (gate : Value) :
    Operand → Outcome State
  | .literal s => return s
  | .reference name negated => do
    let s ← refer scope gate name
    return if negated then s.invert else s
  | .expression text => env.logic.expression (.str text) (.map scope.toEntries)
  | .computed f _ => do (← env.host.operand f scope decisions).toState

/-- The evidence for a gate, operand by operand. -/
def gather (scope : Scope) (decisions : List Decision) (gate : Value) :
    List Operand → Outcome (List Evidence)
  | [] => return []
  | operand :: rest => do
    let s ← env.resolveOperand scope decisions gate operand
    let others ← gather scope decisions gate rest
    return ⟨operand.label, s⟩ :: others

/-- The state of an expression over the context and the scope, which hides the context. -/
def express (context : Value) (scope : Scope) (text : Value) : Outcome State := do
  let text ← Value.orElse text (.str "")
  match context.entries? with
  | some entries => env.logic.expression text (.map (Table.merge entries scope.toEntries))
  | none => throw .wrongType

def decideGate (context : Value) (scope : Scope) (decisions : List Decision) (g : Gate) :
    Outcome Decision := do
  let evidence ← env.gather scope decisions g.name g.operands
  let state ←
    if g.operator = .expression then env.express context scope g.expression
    else pure (g.operator.apply g.weights (evidence.map Evidence.state))
  return {
    name := g.name, state, operator := g.operatorLabel, evidence
    description := g.description }

/-- Makes a decision known under its gate's name. -/
def announce (scope : Scope) (d : Decision) : Outcome Scope := do
  if !d.name.isKey then throw .wrongType
  Outcome.log loggerName .debug
    ("Gate " ++ d.name.display ++ " (" ++ d.operator ++ ") -> " ++ d.state.word)
  return Table.set scope d.name d.state

/-- Decides gates in their order, after those already decided. -/
def decideAll (context : Value) : (scope : Scope) → (decisions : List Decision) → List Gate →
    Outcome (Scope × List Decision)
  | scope, decisions, [] => return (scope, decisions)
  | scope, decisions, g :: rest => do
    let d ← env.decideGate context scope decisions g
    let scope ← announce scope d
    decideAll context scope (decisions ++ [d]) rest

/-! ## Reports -/

/-- The state of the last decision; undecided when there is none. -/
def lastState (decisions : List Decision) : State :=
  (decisions.getLast?.map Decision.state).getD .unknown

/-- The state that an output key names, else that of the last decision. -/
def select (output : Value) (scope : Scope) (decisions : List Decision) : Except Error State :=
  match output with
  | .null => .ok (lastState decisions)
  | key =>
    if key.isKey then .ok ((Table.find? scope key).getD (lastState decisions))
    else .error .wrongType

def evaluate (b : Blueprint) (context : Value) : Outcome Report := do
  let scope ← env.resolveInputs context [] b.inputs
  let (scope, decisions) ← env.decideAll context scope [] b.gates
  let result ← select b.output scope decisions
  return {
    result, decisions
    encoded := encodeStates (decisions.map Decision.state)
    metadata := [(.str "total_gates", .int decisions.length), (.str "blueprint", b.name)] }

end Setting

end Blueprint

end Verdict
