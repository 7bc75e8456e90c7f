/-
  Verdict.Balanced — whole numbers in balanced ternary notation.

  `toTrits` gives the digits of a number, least significant first, by dividing by three
  toward zero and moving a remainder of two to the next place; every step makes the
  number smaller, so it ends. `ofTrits` adds each digit to three times the digits after
  it. Numerals are written and read most significant digit first.
-/

import Verdict.Trit.Symbol

namespace Verdict.Balanced

/-! ## Digits -/

/-- The last digit of a number and the number without it. -/
def split (n : Int) : Trit × Int :=
  let q := n.tdiv 3
  let r := n.tmod 3
  if r = 2 then (.negative, q + 1)
  else if r = -2 then (.positive, q - 1)
  else (.ofInt r, q)

/-- Quotient and remainder toward zero are those of the absolute value, with the sign. -/
theorem tdiv_tmod_three (n : Int) :
    0 ≤ n ∧ n.tdiv 3 = n / 3 ∧ n.tmod 3 = n % 3 ∨
      n < 0 ∧ n.tdiv 3 = -(-n / 3) ∧ n.tmod 3 = -(-n % 3) := by
  by_cases h : n < 0
  · have hn : 0 ≤ -n := by omega
    refine .inr ⟨h, ?_, ?_⟩
    · rw [← Int.tdiv_eq_ediv_of_nonneg hn, Int.neg_tdiv, Int.neg_neg]
    · rw [← Int.tmod_eq_emod_of_nonneg hn, Int.neg_tmod, Int.neg_neg]
  · have hn : 0 ≤ n := by omega
    exact .inl ⟨hn, Int.tdiv_eq_ediv_of_nonneg hn, Int.tmod_eq_emod_of_nonneg hn⟩

theorem natAbs_split_lt {n : Int} (h : n ≠ 0) : (split n).2.natAbs < n.natAbs := by
  unfold split
  simp only
  rcases tdiv_tmod_three n with ⟨hs, hq, hr⟩ | ⟨hs, hq, hr⟩ <;> rw [hq, hr] <;>
    (repeat' split) <;> simp only <;> omega

/-- The digits of a number other than zero; none for zero. -/
def digits (n : Int) : List Trit :=
  if _ : n = 0 then [] else (split n).1 :: digits (split n).2
termination_by n.natAbs
decreasing_by exact natAbs_split_lt ‹_›

/-- The digits of a number, least significant first; zero has one digit. -/
def toTrits (n : Int) : List Trit := if n = 0 then [.zero] else digits n

/-- The number with the given digits, least significant first. -/
def ofTrits : List Trit → Int
  | [] => 0
  | t :: ts => t.toInt + 3 * ofTrits ts

/-! ## Numerals -/

def numeral (n : Int) : String :=
  String.ofList ((toTrits n).reverse.map Trit.symbol)

/-- Reads digits, most significant first, after those that make up `total`. -/
def readFrom (total : Int) : List Char → Except Error Int
  | [] => .ok total
  | c :: cs => do
    let t ← Trit.ofSymbol c.toString
    readFrom (total * 3 + t.toInt) cs

/-- Reads a numeral, dropping the blanks around it; nothing is zero. -/
def ofNumeral (s : String) : Except Error Int := readFrom 0 (Text.trim s.toList)

end Verdict.Balanced
