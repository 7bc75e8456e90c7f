/-
  Verdict.Number.Basic — a number that is whole or floating-point.

  Comparison is exact between the two kinds; a sum is exact between whole numbers and
  rounded as soon as one is floating-point.
-/

import Verdict.Number.Binary64

namespace Verdict

inductive Number
  | int (n : Int)
  | float (x : Binary64)
  deriving DecidableEq, Repr

namespace Number

def position : Number → Binary64.Position
  | int n => .at ⟨n, 0⟩
  | float x => x.position

/-- The order of two numbers, unless one is not a number. -/
def compare? (x y : Number) : Option Ordering := x.position.compare? y.position

def eq (x y : Number) : Bool := x.compare? y == some .eq

def lt (x y : Number) : Bool := x.compare? y == some .lt

def le (x y : Number) : Bool := x.lt y || x.eq y

def toFloat : Number → Binary64
  | int n => .ofInt n
  | float x => x

def add : Number → Number → Number
  | int m, int n => int (m + n)
  | x, y => float (x.toFloat.add y.toFloat)

instance : Add Number := ⟨add⟩

instance : LT Number := ⟨fun x y => x.lt y = true⟩

instance : LE Number := ⟨fun x y => x.le y = true⟩

instance (x y : Number) : Decidable (x < y) := inferInstanceAs (Decidable (x.lt y = true))

instance (x y : Number) : Decidable (x ≤ y) := inferInstanceAs (Decidable (x.le y = true))

end Number

end Verdict
