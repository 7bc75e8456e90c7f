/-
  Verdict.Value.Coercion — values taken as states, truth values, weights and sequences.

  A state stands for itself and a digit for its state; `true` and `false` are decided,
  nothing is undecided, numbers count by their sign except that -1 is undecided, and a
  string must be one of the known words, blanks and case aside. Nothing else has a state.
-/

import Verdict.Error
import Verdict.Number.Numeral
import Verdict.Text.Case
import Verdict.Value.Display

namespace Verdict

/-! ## States -/

namespace State

def yesWords : List String :=
  ["true", "1", "yes", "on", "enable", "enabled", "y", "affirmative"]

def noWords : List String :=
  ["false", "0", "no", "off", "disable", "disabled", "n", "negative"]

def unknownWords : List String :=
  ["unknown", "null", "undefined", "pending", "maybe", "auto"]

/-- The state that a folded word stands for. -/
def ofWord? (w : String) : Option State :=
  if yesWords.contains w then some yes
  else if noWords.contains w then some no
  else if unknownWords.contains w then some unknown
  else none

def ofText? (s : String) : Option State := ofWord? (Text.fold (Text.strip s))

/-- A number counts by its sign, but -1 is the customary mark of the undecided. -/
def ofInt (n : Int) : State :=
  if n = -1 then unknown else if 0 < n then yes else no

end State

namespace Value

def toState (v : Value) : Except Error State :=
  match v with
  | state s => .ok s
  | trit t => .ok (State.ofTrit t)
  | bool b => .ok (State.ofBool b)
  | null => .ok .unknown
  | int n => .ok (State.ofInt n)
  | str s =>
    match State.ofText? s with
    | some found => .ok found
    | none => .error (.unsupportedText v)
  | torn _ => .error (.unsupportedText v)
  | operator o =>
    match State.ofText? o.word with
    | some found => .ok found
    | none => .error (.unsupportedText v)
  | v => .error (.unsupportedType v.typeName)

/-- The states of several values, or the error of the first that has none. -/
def toStates : List Value → Except Error (List State)
  | [] => .ok []
  | v :: vs => do
    let s ← v.toState
    let rest ← toStates vs
    return s :: rest

/-! ## Truth values -/

/-- Whether a value counts as true: empty and zero values do not, and the undecided state
    has no truth value. -/
def truth : Value → Except Error Bool
  | null => .ok false
  | bool b => .ok b
  | int n => .ok (n != 0)
  | float (.finite _ m _) => .ok (m != 0)
  | str s => .ok (s != "")
  | state .yes => .ok true
  | state .no => .ok false
  | state .unknown => .error .undecidedTruth
  | trit t => .ok (t != .zero)
  | vector states => .ok !states.isEmpty
  | bytes bs => .ok !bs.isEmpty
  | list items | tuple items | set items => .ok !items.isEmpty
  | map entries => .ok !entries.isEmpty
  | stamp .decimal text =>
    .ok ((text.toList.takeWhile (· != 'E')).any fun c => '1' ≤ c && c ≤ '9' || c.isAlpha)
  | duration seconds => .ok (seconds != 0)
  | _ => .ok true

/-- The value, or another one when it does not count as true. -/
def orElse (v other : Value) : Except Error Value := do
  if ← v.truth then return v else return other

/-! ## Values of one kind -/

/-- The pairs of a value that must be a mapping. -/
def asMapping (v : Value) : Except Error Entries :=
  match v.entries? with
  | some entries => .ok entries
  | none => .error .missingAttribute

/-- The text of a value that must be a string. -/
def asText (v : Value) : Except Error String :=
  match v.text? with
  | some s => .ok s
  | none => .error .missingAttribute

/-- The number of a value that must be whole. -/
def asInt (v : Value) : Except Error Int :=
  match v.int? with
  | some n => .ok n
  | none => .error .wrongType

def asOptionalInt : Value → Except Error (Option Int)
  | null => .ok none
  | v => some <$> v.asInt

/-- The digit of a value that must be a digit or a state. -/
def asTrit : Value → Except Error Trit
  | trit t => .ok t
  | state s => .ok s.toTrit
  | _ => .error .missingAttribute

/-! ## Sequences and weights -/

/-- The elements of a value that can be run through. -/
def elements (v : Value) : Except Error (List Value) :=
  match v.elements? with
  | some items => .ok items
  | none => .error .wrongType

/-- A whole number from a number, cut off toward zero, or from its decimal text. -/
def toWeight (v : Value) : Except Error Int :=
  match v with
  | float .nan => .error .nanAsInteger
  | float (.infinite _) => .error .infinityAsInteger
  | float (.finite negative m e) => .ok (Binary64.wholePart negative m e)
  | torn _ => .error (.notAnInteger v.inspect)
  | v =>
    match v.int? with
    | some n => .ok n
    | none =>
      match v.text? with
      | none => .error .wrongType
      | some s =>
        match Number.readInt? s.toList with
        | some n => .ok n
        | none => .error (.notAnInteger v.inspect)

def toWeights : List Value → Except Error (List Int)
  | [] => .ok []
  | v :: vs => do
    let w ← v.toWeight
    let rest ← toWeights vs
    return w :: rest

/-- The weights in a value; anything that does not count as true holds none. -/
def weights (v : Value) : Except Error (List Int) := do
  if ← v.truth then toWeights (← v.elements) else return []

end Value

end Verdict
