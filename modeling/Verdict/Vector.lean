/-
  Verdict.Vector — vectors of states: taken from nested data, encoded and decoded.

  The leaves of nested data are found left to right, mappings by their values; strings
  and bytes are leaves. Encoding writes one symbol for each state, decoding reads one
  from each character.
-/

import Verdict.Trit.Symbol
import Verdict.Value.Coercion

namespace Verdict

namespace Value

mutual

/-- The values inside a value that hold no further ones. -/
def leaves : Value → List Value
  | list items => leavesOfAll items
  | tuple items => leavesOfAll items
  | set items => leavesOfAll items
  | stream _ items => leavesOfAll items
  | map entries => leavesOfEntries entries
  | vector states => states.map state
  | v => [v]
termination_by structural v => v

def leavesOfAll : List Value → List Value
  | [] => []
  | v :: vs => leaves v ++ leavesOfAll vs
termination_by structural vs => vs

def leavesOfEntries : List (Value × Value) → List Value
  | [] => []
  | (_, v) :: rest => leaves v ++ leavesOfEntries rest
termination_by structural vs => vs

end

/-- The states at the leaves of a value. -/
def leafStates (v : Value) : Except Error (List State) := toStates v.leaves

/-- The vector that a value stands for; nothing is the empty vector. -/
def toVector : Value → Except Error (List State)
  | null => .ok []
  | v => v.leafStates

end Value

/-! ## Symbols -/

/-- Reads one state from each text. -/
def decodeSymbols : List String → Except Error (List State)
  | [] => .ok []
  | symbol :: rest => do
    let t ← Trit.ofSymbol symbol
    let states ← decodeSymbols rest
    return State.ofTrit t :: states

def decodeStates (s : String) : Except Error (List State) :=
  decodeSymbols (s.toList.map fun c => c.toString)

/-- Reads one state from each element of a value. An element that is no string has no
    symbol. -/
def decodeElements : List Value → Except Error (List State)
  | [] => .ok []
  | v :: vs =>
    match v.text? with
    | none => .error .missingAttribute
    | some symbol => do
      let t ← Trit.ofSymbol symbol
      let states ← decodeElements vs
      return State.ofTrit t :: states

end Verdict
