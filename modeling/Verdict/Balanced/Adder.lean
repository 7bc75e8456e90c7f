/-
  Verdict.Balanced.Adder — sums and differences, digit by digit.

  A column adds two digits and a carry. Its sum lies between -3 and 3, so one digit and a
  carry of one unit always hold it. Missing digits of the shorter number are zero, and a
  carry left at the end becomes one more digit.
-/

import Verdict.Balanced

namespace Verdict.Balanced

/-- The digit of a column and the carry to the next. -/
def addColumn (a b carry : Trit) : Trit × Trit :=
  let total := a.toInt + b.toInt + carry.toInt
  if 1 < total then (.ofInt (total - 3), .positive)
  else if total < -1 then (.ofInt (total + 3), .negative)
  else (.ofInt total, .zero)

def addFrom (carry : Trit) : List Trit → List Trit → List Trit
  | [], [] => if carry = .zero then [] else [carry]
  | a :: as, [] =>
    (addColumn a .zero carry).1 :: addFrom (addColumn a .zero carry).2 as []
  | [], b :: bs =>
    (addColumn .zero b carry).1 :: addFrom (addColumn .zero b carry).2 [] bs
  | a :: as, b :: bs =>
    (addColumn a b carry).1 :: addFrom (addColumn a b carry).2 as bs

def add (a b : Int) : Int := ofTrits (addFrom .zero (toTrits a) (toTrits b))

def subtract (a b : Int) : Int := add a (-b)

end Verdict.Balanced
