/-
  Verdict.Operator — the six operators that a gate can apply to its operands.
-/

namespace Verdict

inductive Operator
  | and | or | not | consensus | weighted | expression
  deriving DecidableEq, Repr

namespace Operator

def all : List Operator := [and, or, not, consensus, weighted, expression]

/-- The word that names the operator in a blueprint. -/
def word : Operator → String
  | and => "and"
  | or => "or"
  | not => "not"
  | consensus => "consensus"
  | weighted => "weighted"
  | expression => "expression"

/-- The word that names the operator in a report. -/
def label : Operator → String
  | and => "AND"
  | or => "OR"
  | not => "NOT"
  | consensus => "CONSENSUS"
  | weighted => "WEIGHTED"
  | expression => "EXPRESSION"

def ofWord? (w : String) : Option Operator := all.find? fun o => o.word == w

end Operator

end Verdict
