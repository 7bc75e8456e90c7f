/-
  Verdict.Operator.Reading — the operator that a value names.

  Blanks around the name and its case do not matter. A name that is none of the six words
  is read as `and`, with a warning in the log.
-/

import Verdict.Outcome
import Verdict.Text.Case

namespace Verdict.Operator

/-- The logger of the readings of states, digits and operators. -/
def logger : String := "trilean.models.enums"

/-- The word that a value spells, blanks and case aside. -/
def spelled (v : Value) : String := Text.lower (Text.strip v.display)

def read (v : Value) : Outcome Operator :=
  match v with
  | .operator o => pure o
  | .null => pure .and
  | v =>
    match ofWord? (spelled v) with
    | some o => pure o
    | none => do
      Outcome.log logger .warning
        ("Unknown gate operator " ++ v.inspect ++ ", falling back to AND")
      return .and

end Verdict.Operator
