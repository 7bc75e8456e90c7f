/-
  Verdict.Json.Encoding — values as JSON.

  Numbers, strings, lists and mappings have a form of their own; every other value is
  written as the text that it displays as.
-/

import Verdict.Json
import Verdict.Value.Display

namespace Verdict.Value

/-- The name of a member under a key. -/
def memberName : Value → Script
  | null => "null"
  | bool b => if b then "true" else "false"
  | float x => String.ofList (Number.floatChars Number.inJson x)
  | torn t => .torn t
  | v => v.display

mutual

def toJson : Value → Json
  | null => .null
  | bool b => .bool b
  | int n => .int n
  | float x => .float x
  | str s => .str s
  | torn t => .str (.torn t)
  | trit t => .int t.toInt
  | operator o => .str o.word
  | list items => .array (toJsonAll items)
  | tuple items => .array (toJsonAll items)
  | map entries => .object (toJsonMembers entries)
  | v => .str v.display
termination_by structural v => v

def toJsonAll : List Value → List Json
  | [] => []
  | v :: vs => toJson v :: toJsonAll vs
termination_by structural vs => vs

def toJsonMembers : List (Value × Value) → List (Script × Json)
  | [] => []
  | (k, v) :: rest => (k.memberName, toJson v) :: toJsonMembers rest
termination_by structural vs => vs

end

end Verdict.Value
