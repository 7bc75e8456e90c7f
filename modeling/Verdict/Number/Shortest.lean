/-
  Verdict.Number.Shortest — the shortest decimal text that reads back as the same number.

  The numbers that round to a given one form an interval, whose ends belong to it when
  the significand is even. The digits are the point of the coarsest decimal grid in that
  interval, the nearer of two, or the even one. `Notation` says how digits become text;
  `plain` is the one in use: positional from 0.0001 up to 16 whole digits, with at least
  one place, and with an exponent of at least two digits and a sign elsewhere.
-/

import Verdict.Number.Binary64
import Verdict.Text.Decimal

namespace Verdict.Number

open Binary64 (unscale)

/-! ## Digits -/

/-- The point `digits · 10 ^ exponent` of a decimal grid. -/
structure DecimalPoint where
  digits : Nat
  exponent : Int
  deriving DecidableEq, Repr

/-- `10 ^ k` as a quotient of whole numbers. -/
def powerOfTen : Int → Nat × Nat
  | .ofNat k => (Nat.pow 10 k, 1)
  | .negSucc k => (1, Nat.pow 10 (k + 1))

/-- The interval around `4 · m` quarters of a unit of `2 ^ e`, in such quarters: half a
    unit to each side, but a quarter below a power of two, where the grid below is finer. -/
def quarterInterval (m : Nat) (e : Int) : Nat × Nat :=
  (4 * m - (if m = Binary64.power 52 ∧ e ≠ Binary64.leastExponent then 1 else 2), 4 * m + 2)

/-- The nearest point of the grid of unit `10 ^ k` that rounds to `m · 2 ^ e`. -/
def gridPoint? (m : Nat) (e k : Int) : Option Nat :=
  let (lo, hi) := quarterInterval m e
  let (tenNum, tenDen) := powerOfTen k
  let (twoDen, twoNum) := unscale 1 1 (e - 2)
  let step := tenNum * twoDen
  let scale := twoNum * tenDen
  let inside (c : Nat) : Bool :=
    if m % 2 = 0 then lo * scale ≤ c * step && c * step ≤ hi * scale
    else lo * scale < c * step && c * step < hi * scale
  let below := 4 * m * scale / step
  let twiceGap := 2 * (4 * m * scale - below * step)
  match inside below, inside (below + 1) with
  | true, true =>
    some (if twiceGap < step ∨ twiceGap = step ∧ below % 2 = 0 then below else below + 1)
  | true, false => some below
  | false, true => some (below + 1)
  | false, false => none

/-- Tries ever finer grids, from the unit `10 ^ k` on. -/
def coarsest (m : Nat) (e : Int) : (fuel : Nat) → (k : Int) → DecimalPoint
  | 0, k => ⟨0, k⟩
  | fuel + 1, k =>
    match gridPoint? m e k with
    | some digits => ⟨digits, k⟩
    | none => coarsest m e fuel (k - 1)

/-- Seventeen digits always suffice, and the first grid tried is too coarse by at most
    two. -/
def shortest (m : Nat) (e : Int) : DecimalPoint :=
  coarsest m e 24 (((m.log2 : Int) + e + 1) * 30103 / 100000 + 2)

/-! ## Layout -/

structure Notation where
  /-- The least exponent of the first digit that is written positionally. -/
  leastPositional : Int
  /-- The least exponent of the first digit that is no longer written positionally. -/
  tooLarge : Int
  exponentWidth : Nat
  notANumber : String
  infinity : String
  deriving Repr

/-- The notation of values in messages. -/
def plain : Notation := ⟨-4, 16, 2, "nan", "inf"⟩

/-- The notation of numbers in JSON. -/
def inJson : Notation := ⟨-4, 16, 2, "NaN", "Infinity"⟩

def exponentChars (n : Notation) (x : Int) : List Char :=
  let digits := Text.natChars x.natAbs
  'e' :: (if x < 0 then '-' else '+')
    :: List.replicate (n.exponentWidth - digits.length) '0' ++ digits

/-- Writes digits whose first one is worth `10 ^ x`. -/
def layOut (n : Notation) (digits : List Char) (x : Int) : List Char :=
  if n.leastPositional ≤ x ∧ x < n.tooLarge then
    if x < 0 then
      '0' :: '.' :: List.replicate (-x - 1).toNat '0' ++ digits
    else
      let whole := x.toNat + 1
      let places := digits.drop whole
      digits.take whole ++ List.replicate (whole - digits.length) '0' ++ '.'
        :: (if places.isEmpty then ['0'] else places)
  else
    let places := digits.drop 1
    digits.take 1 ++ (if places.isEmpty then [] else '.' :: places) ++ exponentChars n x

def finiteChars (n : Notation) (m : Nat) (e : Int) : List Char :=
  if m = 0 then layOut n ['0'] 0
  else
    let p := shortest m e
    let digits := Text.natChars p.digits
    layOut n digits (p.exponent + digits.length - 1)

def floatChars (n : Notation) : Binary64 → List Char
  | .nan => n.notANumber.toList
  | .infinite negative => (if negative then ['-'] else []) ++ n.infinity.toList
  | .finite negative m e => (if negative then ['-'] else []) ++ finiteChars n m e

end Verdict.Number
