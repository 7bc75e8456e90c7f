/-
  Verdict.Value — the values that contexts, blueprints and operands are made of.

  A value is data (numbers, text, lists, mappings and so on), one of the library's own
  records seen as data, or a reference to a function of the host program. Functions and
  one-pass streams are known by a number only: what a function does is told by its host. A
  torn text is a string that is data only: it is kept, compared, shown and written like any
  other, but paths, expressions, operators and the names that they refer to are whole.
-/

import Verdict.Number.Basic
import Verdict.Operator
import Verdict.State
import Verdict.Text.Script

namespace Verdict

/-- A function of the host program. Two references are the same function when their
    numbers agree. -/
structure FunctionRef where
  id : Nat
  name : Option String
  deriving DecidableEq, Repr

/-- Values that are only ever shown by their text, and methods under their names. -/
inductive StampKind
  | date | dateTime | uuid | decimal | path
  | method | nativeMethod
  deriving DecidableEq, Repr

/-- What a record of named fields stands for. -/
inductive RecordKind
  | object
  | literalInput | contextInput | expressionInput | computedInput
  | referenceOperand | expressionOperand | computedOperand | literalOperand
  | gate | blueprint
  deriving DecidableEq, Repr

inductive Value
  | null
  | bool (b : Bool)
  | int (n : Int)
  | float (x : Binary64)
  | str (s : String)
  | torn (t : Torn)
  | state (s : State)
  | trit (t : Trit)
  | operator (o : Operator)
  | vector (states : List State)
  | bytes (bytes : List UInt8)
  | list (items : List Value)
  | tuple (items : List Value)
  | set (items : List Value)
  | stream (id : Nat) (items : List Value)
  | map (entries : List (Value × Value))
  | record (kind : RecordKind) (fields : List (String × Value))
  | function (f : FunctionRef)
  | stamp (kind : StampKind) (text : String)
  | duration (seconds : Int)
  deriving Repr

/-- Things under keys, in the order in which the keys appeared. -/
abbrev Table (α : Type) := List (Value × α)

/-- The pairs of a mapping. -/
abbrev Entries := Table Value

instance : Inhabited Value := ⟨.null⟩

def StampKind.typeName : StampKind → String
  | date => "date"
  | dateTime => "datetime"
  | uuid => "UUID"
  | decimal => "Decimal"
  | path => "PurePosixPath"
  | method => "method"
  | nativeMethod => "builtin_function_or_method"

def RecordKind.typeName : RecordKind → String
  | object => "SimpleNamespace"
  | literalInput => "LiteralInput"
  | contextInput => "ContextInput"
  | expressionInput => "ExpressionInput"
  | computedInput => "ComputedInput"
  | referenceOperand => "ReferenceOperand"
  | expressionOperand => "ExpressionOperand"
  | computedOperand => "ComputedOperand"
  | literalOperand => "LiteralOperand"
  | gate => "GateDefinition"
  | blueprint => "Blueprint"

namespace Value

/-! ## Views -/

/-- The name of a value's type in messages. -/
def typeName : Value → String
  | null => "NoneType"
  | bool _ => "bool"
  | int _ => "int"
  | float _ => "float"
  | str _ | torn _ => "str"
  | state _ => "TernaryState"
  | trit _ => "BalancedTrit"
  | operator _ => "GateOperator"
  | vector _ => "TernaryVector"
  | bytes _ => "bytes"
  | list _ => "list"
  | tuple _ => "tuple"
  | set _ => "set"
  | stream _ _ => "generator"
  | map _ => "dict"
  | record kind _ => kind.typeName
  | function f => if f.name.isSome then "function" else "partial"
  | stamp kind _ => kind.typeName
  | duration _ => "timedelta"

/-- The string of a text. -/
def ofScript : Script → Value
  | .whole s => str s
  | .torn t => torn t

/-- The text of a whole string; an operator is a string too, its word. -/
def text? : Value → Option String
  | str s => some s
  | operator o => some o.word
  | _ => none

/-- The text of a string, whole or torn. -/
def script? : Value → Option Script
  | torn t => some (.torn t)
  | v => v.text?.map .whole

/-- The number that a value is; truth values and digits are whole numbers. -/
def number? : Value → Option Number
  | bool b => some (.int (if b then 1 else 0))
  | int n => some (.int n)
  | trit t => some (.int t.toInt)
  | float x => some (.float x)
  | _ => none

/-- The whole number that a value is. -/
def int? : Value → Option Int
  | bool b => some (if b then 1 else 0)
  | int n => some n
  | trit t => some t.toInt
  | _ => none

/-- The pairs of a value that is a mapping. -/
def entries? : Value → Option Entries
  | map entries => some entries
  | _ => none

/-- The elements of a value that can be run through: the keys of a mapping, the
    characters of a string, the numbers of bytes. -/
def elements? : Value → Option (List Value)
  | list items | tuple items | set items | stream _ items => some items
  | map entries => some (entries.map (·.1))
  | str s => some (s.toList.map fun c => str c.toString)
  | torn t => some (t.points.map fun p => ofScript (.ofPoints [p]))
  | operator o => some (o.word.toList.map fun c => str c.toString)
  | bytes bs => some (bs.map fun b => int b.toNat)
  | vector states => some (states.map state)
  | _ => none

/-- The items of a value that is a sequence of values and nothing else. -/
def items? : Value → Option (List Value)
  | list items | tuple items | set items | stream _ items => some items
  | vector states => some (states.map state)
  | _ => none

def ofOption (v : Option Value) : Value := v.getD null

def ofNumber : Number → Value
  | .int n => int n
  | .float x => float x

def ofStates (states : List State) : Value := list (states.map state)

end Value

end Verdict
