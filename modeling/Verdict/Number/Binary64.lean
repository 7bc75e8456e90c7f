/-
  Verdict.Number.Binary64 — the floating-point numbers with a 53-bit significand.

  A finite number is `significand · 2 ^ exponent` with a sign. `round` gives the number
  nearest to a quotient, a tie going to the even significand; sums, quotients of whole
  numbers and numbers read from text are all rounded by it. Order and equality compare the
  exact values.
-/

namespace Verdict

inductive Binary64
  | nan
  | infinite (negative : Bool)
  | finite (negative : Bool) (significand : Nat) (exponent : Int)
  deriving DecidableEq, Repr

namespace Binary64

/-- The least exponent; numbers with a shorter significand have this one. -/
def leastExponent : Int := -1074

/-- The exponent of the largest finite numbers. -/
def greatestExponent : Int := 971

/-- `2 ^ k`. -/
def power (k : Nat) : Nat := 1 <<< k

def zero (negative : Bool) : Binary64 := finite negative 0 leastExponent

/-! ## Rounding -/

/-- The whole number nearest to `num / den`; a tie goes to the even one. -/
def nearest (num den : Nat) : Nat :=
  let q := num / den
  let r := num % den
  if 2 * r < den then q
  else if den < 2 * r then q + 1
  else if q % 2 = 0 then q else q + 1

/-- `num / den / 2 ^ e`, as a quotient of whole numbers. -/
def unscale (num den : Nat) (e : Int) : Nat × Nat :=
  match e with
  | .ofNat k => (num, den * power k)
  | .negSucc k => (num * power (k + 1), den)

/-- The exponent at which `num / den` has a significand of 53 bits, or the least one. -/
def exponentFor (num den : Nat) : Int :=
  let e : Int := (num.log2 : Int) - (den.log2 : Int) - 53
  let (n, d) := unscale num den e
  max leastExponent (if d * power 53 ≤ n then e + 1 else e)

/-- The number nearest to `num / den`, infinite when that is too large. -/
def round (negative : Bool) (num den : Nat) : Binary64 :=
  if num = 0 then zero negative
  else
    let e := exponentFor num den
    let (n, d) := unscale num den e
    let m := nearest n d
    let (m, e) := if m = power 53 then (power 52, e + 1) else (m, e)
    if greatestExponent < e then infinite negative else finite negative m e

def ofInt (n : Int) : Binary64 := round (n < 0) n.natAbs 1

/-- The quotient of two whole numbers, the second positive. -/
def ofQuotient (num : Int) (den : Nat) : Binary64 := round (num < 0) num.natAbs den

/-! ## Exact values -/

/-- `numerator · 2 ^ exponent`. -/
structure Dyadic where
  numerator : Int
  exponent : Int
  deriving DecidableEq, Repr

/-- The numerators of two dyadic numbers at their smaller exponent. -/
def Dyadic.align (x y : Dyadic) : Int × Int × Int :=
  let e := min x.exponent y.exponent
  let numerator (z : Dyadic) : Int := z.numerator * Int.ofNat (power (z.exponent - e).toNat)
  (numerator x, numerator y, e)

def Dyadic.compare (x y : Dyadic) : Ordering :=
  let (a, b, _) := x.align y
  if a < b then .lt else if a = b then .eq else .gt

/-- Where a number lies on the extended line. -/
inductive Position
  | nowhere
  | below
  | at (value : Dyadic)
  | above
  deriving DecidableEq, Repr

def position : Binary64 → Position
  | nan => .nowhere
  | infinite true => .below
  | infinite false => .above
  | finite negative m e => .at ⟨if negative then -(m : Int) else m, e⟩

/-- The order of two positions, if both are somewhere. -/
def Position.compare? : Position → Position → Option Ordering
  | .nowhere, _ | _, .nowhere => none
  | .at x, .at y => some (x.compare y)
  | .below, .below | .above, .above => some .eq
  | .below, _ | _, .above => some .lt
  | .above, _ | _, .below => some .gt

/-! ## Sum and whole part -/

def ofDyadic (x : Dyadic) (negativeZero : Bool) : Binary64 :=
  match x.exponent with
  | .ofNat k => if x.numerator = 0 then zero negativeZero
      else round (x.numerator < 0) (x.numerator.natAbs * power k) 1
  | .negSucc k => if x.numerator = 0 then zero negativeZero
      else round (x.numerator < 0) x.numerator.natAbs (power (k + 1))

def isNegative : Binary64 → Bool
  | nan => false
  | infinite negative => negative
  | finite negative _ _ => negative

def add (x y : Binary64) : Binary64 :=
  match x.position, y.position with
  | .nowhere, _ | _, .nowhere => nan
  | .at a, .at b =>
    let (p, q, e) := a.align b
    ofDyadic ⟨p + q, e⟩ (x.isNegative && y.isNegative)
  | .below, .above | .above, .below => nan
  | .below, _ | _, .below => infinite true
  | .above, _ | _, .above => infinite false

/-- The whole part of a finite number, toward zero. -/
def wholePart (negative : Bool) (m : Nat) : Int → Int
  | .ofNat k => if negative then -Int.ofNat (m * power k) else .ofNat (m * power k)
  | .negSucc k => if negative then -Int.ofNat (m / power (k + 1)) else .ofNat (m / power (k + 1))

/-- The value of a finite number that is whole. -/
def whole? : Binary64 → Option Int
  | finite negative m e =>
    let n := wholePart negative m e
    if Dyadic.compare ⟨if negative then -(m : Int) else m, e⟩ ⟨n, 0⟩ = .eq then some n else none
  | _ => none

end Binary64

end Verdict
