/-
  Verdict.Expression.Registry — the operators and functions that expressions can use.

  Operators and functions are found by a key, the name in capitals. The seven operators
  of the language are always there; registering under the key of an earlier operator or
  function hides it. A few other spellings stand for the keys of the language's own
  operators.
-/

import Verdict.Outcome
import Verdict.Text.Case

namespace Verdict.Expression

/-- What a registered operator or function does with the states of its operands. -/
abbrev Handler := List State → Outcome Value

inductive Builtin
  | not | and | or | xor | majority | consensus | conditional
  deriving DecidableEq, Repr

inductive Action
  | builtin (b : Builtin)
  | custom (handler : Handler)

def Action.isCustom : Action → Bool
  | .builtin _ => false
  | .custom _ => true

structure OperatorSpec where
  key : String
  precedence : Int
  arity : Int
  action : Action

structure Registry where
  operators : List OperatorSpec
  functions : List (String × Handler)

namespace Builtin

def all : List Builtin := [not, and, or, xor, majority, consensus, conditional]

def key : Builtin → String
  | not => "NOT"
  | and => "AND"
  | or => "OR"
  | xor => "XOR"
  | majority => "MAJ"
  | consensus => "CONSENSUS"
  | conditional => "IF"

def precedence : Builtin → Int
  | not => 3
  | and => 2
  | or | xor | majority | consensus => 1
  | conditional => 0

def arity : Builtin → Int
  | not => 1
  | and | or | xor | majority | consensus => 2
  | conditional => 3

def spec (b : Builtin) : OperatorSpec := ⟨b.key, b.precedence, b.arity, .builtin b⟩

/-- Whether the operator may also be written as a call. -/
def isCallable : Builtin → Bool
  | majority | consensus | conditional => true
  | _ => false

end Builtin

/-- The key that a name in capitals stands for. -/
def keyOfUpper : String → String
  | "!" => "NOT"
  | "&" => "AND"
  | "|" => "OR"
  | "^" => "XOR"
  | "MAJORITY" => "MAJ"
  | "IFTHENELSE" => "IF"
  | name => name

/-- The key that a word or sign stands for. -/
def keyOf (word : String) : String := keyOfUpper (Text.upper word)

/-- The state that a word spells, in any case. -/
def literal? (word : String) : Option State :=
  match Text.lower word with
  | "true" => some .yes
  | "false" => some .no
  | "unknown" => some .unknown
  | _ => none

def isCallableKey (key : String) : Bool := Builtin.all.any fun b => b.isCallable && b.key == key

namespace Registry

/-- The language without any additions. -/
def standard : Registry := ⟨Builtin.all.map Builtin.spec, []⟩

def operator? (r : Registry) (key : String) : Option OperatorSpec :=
  r.operators.find? fun spec => spec.key == key

def function? (r : Registry) (key : String) : Option Handler := r.functions.lookup key

/-- The operator that a word stands for. -/
def spec? (r : Registry) (word : String) : Option OperatorSpec := r.operator? (keyOf word)

def registerOperator (r : Registry) (name : String) (handler : Handler) (precedence arity : Int) :
    Registry :=
  { r with operators := ⟨Text.upper name, precedence, arity, .custom handler⟩ :: r.operators }

def registerFunction (r : Registry) (name : String) (handler : Handler) : Registry :=
  { r with functions := (Text.upper name, handler) :: r.functions }

/-- The operator under a key that must be there. -/
def operator (r : Registry) (key : String) : Except Error OperatorSpec :=
  match r.operator? key with
  | some spec => .ok spec
  | none => .error .missingKey

end Registry

end Verdict.Expression
