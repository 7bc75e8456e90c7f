/-
  Verdict.Document.Integrity — names that fit together.

  An operand that is text and begins with no `@` names an input or an earlier gate, after
  a `!` if there is one. No gate has the name of an input or of another gate, and the
  output is the name of one of them.
-/

import Verdict.Blueprint.Fault
import Verdict.Document

namespace Verdict

open Blueprint (Complaint)

/-- The name that an operand refers to. -/
def Scalar.reference? : Scalar → Option String
  | text s =>
    match s.toList with
    | '@' :: _ => none
    | '!' :: rest => some (String.ofList rest)
    | _ => some s
  | _ => none

namespace Document

/-- The complaint about an operand, if its name is not among those known. -/
def operandComplaint? (known : List String) (gate : String) (operand : Scalar) :
    Option Complaint :=
  match operand.reference? with
  | none => none
  | some name => if known.contains name then none else some (.undefinedOperand gate name)

def gateComplaints (known : List String) (name : String) (g : Gate) : List Complaint :=
  g.operands.filterMap (operandComplaint? known name)
    ++ if known.contains name then [.duplicateName name] else []

def outputComplaints (known : List String) : Option String → List Complaint
  | none => []
  | some output => if known.contains output then [] else [.unknownOutput output]

/-- The complaints about gates and the output, when some names are known before. -/
def complaintsFrom (known : List String) (output : Option String) :
    List (String × Gate) → List Complaint
  | [] => outputComplaints known output
  | (name, g) :: rest => gateComplaints known name g ++ complaintsFrom (name :: known) output rest

def complaints (d : Document) : List Complaint :=
  complaintsFrom (d.inputs.map (·.1)) d.output d.gates.items

end Document

end Verdict
