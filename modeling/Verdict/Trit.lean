/-
  Verdict.Trit — a balanced ternary digit, worth +1, 0 or -1.

  A digit is written `+`, `0` or `-`. `ofInt` keeps only the sign of a number and is the
  left inverse of `toInt`; inverting a digit negates its worth.
-/

namespace Verdict

inductive Trit
  | positive | zero | negative
  deriving DecidableEq, Repr

namespace Trit

/-- The digit with the sign of `n`. -/
def ofInt (n : Int) : Trit :=
  if 0 < n then positive else if n < 0 then negative else zero

def toInt : Trit → Int
  | positive => 1
  | zero => 0
  | negative => -1

def invert : Trit → Trit
  | positive => negative
  | zero => zero
  | negative => positive

def symbol : Trit → Char
  | positive => '+'
  | zero => '0'
  | negative => '-'

/-- The name of the digit, in capitals. -/
def name : Trit → String
  | positive => "POSITIVE"
  | zero => "ZERO"
  | negative => "NEGATIVE"

@[simp] theorem ofInt_toInt (t : Trit) : ofInt t.toInt = t := by cases t <;> rfl

@[simp] theorem invert_invert (t : Trit) : t.invert.invert = t := by cases t <;> rfl

@[simp] theorem toInt_invert (t : Trit) : t.invert.toInt = -t.toInt := by cases t <;> rfl

end Trit

end Verdict
