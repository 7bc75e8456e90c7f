/-
  Verdict.Shortcut — plain answers about values taken as states.

  Each shortcut takes values as states and answers with a truth value or by choosing
  between values; an undecided value never counts as `yes`. `andAll` and `orAny` stop at
  the first value that settles the answer, so a later value without a state goes unseen.
-/

import Verdict.Outcome
import Verdict.Value.Coercion
import Verdict.Vote

namespace Verdict.Shortcut

def isTrue (v : Value) : Except Error Bool := return (← v.toState).isYes

def isFalse (v : Value) : Except Error Bool := return (← v.toState).isNo

def isUnknown (v : Value) : Except Error Bool := return (← v.toState).isUnknown

def andAll : List Value → Except Error Bool
  | [] => .ok true
  | v :: vs => do if ← isTrue v then andAll vs else return false

def orAny : List Value → Except Error Bool
  | [] => .ok false
  | v :: vs => do if ← isTrue v then return true else orAny vs

/-- Chooses by state. Without a value of its own the undecided state chooses as `no`. -/
def pick (condition ifTrue ifFalse ifUnknown : Value) : Except Error Value := do
  match ← condition.toState with
  | .yes => return ifTrue
  | .no => return ifFalse
  | .unknown =>
    match ifUnknown with
    | .null => return ifFalse
    | v => return v

/-- Runs the callback when the condition has the given state; otherwise gives nothing. -/
def whenState (wanted : State) (condition : Value) (callback : Outcome Value) :
    Outcome Value := do
  if (← condition.toState) = wanted then callback else return .null

def vote (values : List Value) : Except Error Vote.Plurality :=
  return Vote.plurality (← Value.toStates values)

/-- The truth value of a decided value, and the default for an undecided one. -/
def safeBool (v default : Value) : Except Error Value := do
  match (← v.toState).toBool? with
  | some b => return .bool b
  | none => return default

def requireTrue (v : Value) (message : String) : Except Error Unit := do
  let s ← v.toState
  if s.isYes then return () else throw (.assertionFailed message s)

def requireNotFalse (v : Value) (message : String) : Except Error Unit := do
  let s ← v.toState
  if s.isNo then throw (.assertionFailed message s) else return ()

end Verdict.Shortcut
