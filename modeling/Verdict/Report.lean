/-
  Verdict.Report — what the evaluation of a blueprint tells.

  There is one decision for each gate, in order, with the states of its operands as
  evidence. The result is the state that the blueprint puts out, and the code has one
  symbol for each decision.
-/

import Verdict.Value.Table
import Verdict.Value.Display

namespace Verdict

/-- The state of one operand, under its label. -/
structure Evidence where
  operand : String
  state : State
  deriving DecidableEq, Repr

structure Decision where
  name : Value
  state : State
  /-- The label of the gate's operator. -/
  operator : String
  evidence : List Evidence
  description : Value
  deriving Repr

structure Report where
  result : State
  decisions : List Decision
  encoded : String
  /-- Facts about the evaluation. -/
  metadata : Entries
  deriving Repr

namespace Report

/-- The first decision with a name. -/
def decision? (r : Report) (name : Value) : Option Decision :=
  r.decisions.find? fun d => d.name.same name

/-- The result as a truth value; the undecided one counts as `unknownAs`. -/
def toBool (r : Report) (unknownAs : Bool) : Bool := r.result.toBool unknownAs

end Report

/-! ## Reports as data -/

def Evidence.toEntries (e : Evidence) : Entries :=
  [(.str "operand", .str e.operand), (.str "state", .str e.state.word)]

def Decision.toEntries (d : Decision) : Entries := [
  (.str "name", d.name),
  (.str "operator", .str d.operator),
  (.str "state", .str d.state.word),
  (.str "description", d.description),
  (.str "evidence", .list (d.evidence.map fun e => .map e.toEntries))]

def Report.toEntries (r : Report) : Entries := [
  (.str "result", .str r.result.word),
  (.str "encoded", .str r.encoded),
  (.str "decisions", .list (r.decisions.map fun d => .map d.toEntries)),
  (.str "metadata", .map r.metadata)]

end Verdict
