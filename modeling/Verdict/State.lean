/-
  Verdict.State — a three-valued truth state, and the connectives of Kleene's strong
  logic.

  `no` dominates a conjunction and `yes` a disjunction; `unknown` is passed on otherwise.
  States and balanced digits correspond: `yes` is +1, `unknown` is 0, `no` is -1.
-/

import Verdict.Trit

namespace Verdict

inductive State
  | yes | no | unknown
  deriving DecidableEq, Repr

namespace State

/-! ## Connectives -/

def and : State → State → State
  | no, _ | _, no => no
  | unknown, _ | _, unknown => unknown
  | yes, yes => yes

def or : State → State → State
  | yes, _ | _, yes => yes
  | unknown, _ | _, unknown => unknown
  | no, no => no

def invert : State → State
  | yes => no
  | no => yes
  | unknown => unknown

/-! ## Digits and numbers -/

def ofTrit : Trit → State
  | .positive => yes
  | .zero => unknown
  | .negative => no

def toTrit : State → Trit
  | yes => .positive
  | unknown => .zero
  | no => .negative

/-- +1, 0 or -1. -/
def toInt (s : State) : Int := s.toTrit.toInt

/-! ## Truth values -/

def ofBool (b : Bool) : State := if b then yes else no

/-- The truth value of a decided state. -/
def toBool? : State → Option Bool
  | yes => some true
  | no => some false
  | unknown => none

/-- A truth value for every state: the undecided one counts as `unknownAs`. -/
def toBool (s : State) (unknownAs : Bool) : Bool := s.toBool?.getD unknownAs

def isYes (s : State) : Bool := s = yes

def isNo (s : State) : Bool := s = no

def isUnknown (s : State) : Bool := s = unknown

def isKnown (s : State) : Bool := !s.isUnknown

/-! ## Words -/

/-- The word for the state in reports and messages. -/
def word : State → String
  | yes => "true"
  | no => "false"
  | unknown => "unknown"

def name : State → String
  | yes => "TRUE"
  | no => "FALSE"
  | unknown => "UNKNOWN"

def label : State → String
  | yes => "True"
  | no => "False"
  | unknown => "Unknown"

@[simp] theorem ofTrit_toTrit (s : State) : ofTrit s.toTrit = s := by cases s <;> rfl

@[simp] theorem toTrit_ofTrit (t : Trit) : (ofTrit t).toTrit = t := by cases t <;> rfl

@[simp] theorem toTrit_invert (s : State) : s.invert.toTrit = s.toTrit.invert := by
  cases s <;> rfl

end State

end Verdict
