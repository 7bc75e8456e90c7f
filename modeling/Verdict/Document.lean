/-
  Verdict.Document — what a blueprint file says.

  A file holds no functions and no states: its inputs and operands are scalars. Gates
  stand under their names, or in a list with the name inside.
-/

import Verdict.Operator
import Verdict.Value

namespace Verdict

inductive Scalar
  | null
  | bool (b : Bool)
  | int (n : Int)
  | text (s : String)
  deriving DecidableEq, Repr

def Scalar.toValue : Scalar → Value
  | null => .null
  | bool b => .bool b
  | int n => .int n
  | text s => .str s

namespace Document

structure Gate where
  name : Option String
  operator : Operator
  operands : List Scalar
  weights : List Int
  expression : Option String
  description : Option String
  deriving DecidableEq, Repr

inductive Gates
  | named (gates : List (String × Gate))
  | listed (gates : List Gate)
  deriving DecidableEq, Repr

/-- The gates with their names, in order. -/
def Gates.items : Gates → List (String × Gate)
  | named gates => gates
  | listed gates => gates.map fun g => (g.name.getD "", g)

end Document

structure Document where
  version : String
  name : String
  description : Option String
  inputs : List (String × Scalar)
  gates : Document.Gates
  output : Option String
  deriving DecidableEq, Repr

/-! ## Documents as data -/

namespace Document

def optionalField (name : String) (text : Option String) : Entries :=
  (text.map fun s => (Value.str name, Value.str s)).toList

def Gate.definition (name : String) (g : Gate) : Value :=
  .map ([
      (.str "name", .str name),
      (.str "operator", .str g.operator.word),
      (.str "operands", .list (g.operands.map Scalar.toValue)),
      (.str "weights", .list (g.weights.map Value.int))]
    ++ optionalField "expression" g.expression ++ optionalField "description" g.description)

/-- The mapping that a blueprint is read from. -/
def mapping (d : Document) : Value :=
  .map [
    (.str "name", .str d.name),
    (.str "inputs", .map (d.inputs.map fun p => (.str p.1, p.2.toValue))),
    (.str "gates", .list (d.gates.items.map fun item => item.2.definition item.1)),
    (.str "output", .ofOption (d.output.map Value.str))]

end Document

end Verdict
