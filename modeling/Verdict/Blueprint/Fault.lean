/-
  Verdict.Blueprint.Fault — what can be wrong with the data of a blueprint file.

  A `Fault` says that one place of the data does not have the declared shape. A
  `Complaint` says that the names in data of the right shape do not fit together.
-/

import Verdict.Value.Display

namespace Verdict.Blueprint

/-! ## Faults of shape -/

/-- The rules of a gate or a blueprint that go beyond the shape of single fields. -/
inductive Rule
  | expressionMissing
  | operandsMissing (operator : Operator)
  | oneOperandOnly
  | weightsMisplaced
  | tooManyWeights
  | gateUnnamed (index : Nat)
  deriving DecidableEq, Repr

def Rule.text : Rule → String
  | expressionMissing => "Expression gate requires 'expression'"
  | operandsMissing operator => "Gate operator '" ++ operator.word ++ "' requires 'operands'"
  | oneOperandOnly => "NOT gate must have exactly one operand"
  | weightsMisplaced => "'weights' is only valid on weighted gates"
  | tooManyWeights => "More weights than operands"
  | gateUnnamed index => "Gate at index " ++ Text.decimal index ++ " requires 'name'"

inductive FaultKind
  | missing
  | unknownField
  | keyNotText
  | notText
  | notBool
  | notInt
  | fractionAsInt
  | textAsInt
  | notFinite
  | notList
  | notMapping
  | notRecord
  | notOperator
  | broken (rule : Rule)
  deriving DecidableEq, Repr

/-- The name of a fault in error reports. -/
def FaultKind.name : FaultKind → String
  | missing => "missing"
  | unknownField => "extra_forbidden"
  | keyNotText => "invalid_key"
  | notText => "string_type"
  | notBool => "bool_type"
  | notInt => "int_type"
  | fractionAsInt => "int_from_float"
  | textAsInt => "int_parsing"
  | notFinite => "finite_number"
  | notList => "list_type"
  | notMapping => "dict_type"
  | notRecord => "model_type"
  | notOperator => "literal_error"
  | broken _ => "value_error"

/-- A fault and where it is: the keys and positions that lead to it. -/
structure Fault where
  kind : FaultKind
  place : List Value
  deriving Repr

/-- The explanation that goes with a broken rule. -/
def Fault.explanation? (f : Fault) : Option String :=
  match f.kind with
  | .broken rule => some ("Value error, " ++ rule.text)
  | _ => none

/-! ## Names that do not fit -/

inductive Complaint
  | undefinedOperand (gate operand : String)
  | duplicateName (name : String)
  | unknownOutput (output : String)
  deriving DecidableEq, Repr

def Complaint.text : Complaint → String
  | undefinedOperand gate operand =>
    "Gate '" ++ gate ++ "' references undefined operand '" ++ operand ++ "'"
  | duplicateName name => "Duplicate name: '" ++ name ++ "'"
  | unknownOutput output => "Output '" ++ output ++ "' is not an input or gate"

end Verdict.Blueprint
