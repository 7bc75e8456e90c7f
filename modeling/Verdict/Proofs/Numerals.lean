/-
  Verdict.Proofs.Numerals — balanced numerals lose nothing, and sums of digits are exact.

  A split takes a digit off a number and leaves a third of the rest, so the digits add up
  to the number again (`digit_add_three_mul`), and they are soon all taken: the number of
  digits grows with the logarithm of the number. A column of an addition keeps its total
  (`addColumn_total`), hence two lists of digits of any lengths add up to the sum of what
  they are worth (`ofTrits_addFrom`). Main statements: conversion to digits and to a
  numeral and back is the identity (`conversion_lossless`), and digit by digit sums and
  differences are those of the numbers (`add_exact`).
-/

import Verdict.Balanced.Adder
import Verdict.Proofs.Results
import Mathlib.Logic.Function.Iterate
import Mathlib.Tactic.Ring

namespace Verdict

theorem Trit.toInt_ofInt {n : Int} (hlo : -1 ≤ n) (hhi : n ≤ 1) : (ofInt n).toInt = n := by
  have hcases : n = -1 ∨ n = 0 ∨ n = 1 := by omega
  rcases hcases with rfl | rfl | rfl <;> rfl

namespace Balanced

/-! ## Taking digits -/

/-- A number is its last digit and three times what is left. -/
theorem digit_add_three_mul (n : Int) : (split n).1.toInt + 3 * (split n).2 = n := by
  have hdivision : n.tmod 3 + 3 * n.tdiv 3 = n := Int.tmod_add_mul_tdiv n 3
  have hbounds : -2 ≤ n.tmod 3 ∧ n.tmod 3 ≤ 2 := by
    rcases tdiv_tmod_three n with ⟨-, -, hr⟩ | ⟨-, -, hr⟩ <;> omega
  unfold split
  simp only
  split
  · next hr =>
    show (-1 : Int) + 3 * (n.tdiv 3 + 1) = n
    omega
  · split
    · next hr =>
      show (1 : Int) + 3 * (n.tdiv 3 - 1) = n
      omega
    · next hr hr' =>
      rw [Trit.toInt_ofInt (by omega) (by omega)]
      exact hdivision

theorem abs_toInt_le (t : Trit) : t.toInt.natAbs ≤ 1 := by cases t <;> decide

/-- One turn of the loop that takes the digits of a number, least significant first: what
    is left of it, and the digits so far. -/
def turn (state : Int × List Trit) : Int × List Trit :=
  ((split state.1).2, state.2 ++ [(split state.1).1])

theorem turns_end (n : Int) (taken : List Trit) :
    turn^[(digits n).length] (n, taken) = (0, taken ++ digits n) := by
  fun_induction digits n generalizing taken with
  | case1 => simp
  | case2 n _ ih =>
    rw [List.length_cons, Function.iterate_succ_apply, turn, ih, List.append_assoc]
    rfl

theorem turns_go_on (n : Int) (taken : List Trit) {k : Nat} (hk : k < (digits n).length) :
    (turn^[k] (n, taken)).1 ≠ 0 := by
  fun_induction digits n generalizing taken k with
  | case1 => cases hk
  | case2 n hn ih =>
    cases k with
    | zero => exact hn
    | succ k =>
      rw [Function.iterate_succ_apply, turn]
      exact ih _ (Nat.lt_of_succ_lt_succ hk)

/-- No digit stands in front of the first that counts. -/
theorem pow_length_digits (n : Int) :
    (n = 0 ∧ digits n = []) ∨ 3 ^ (digits n).length + 3 ≤ 6 * n.natAbs := by
  fun_induction digits n with
  | case1 => exact .inl ⟨rfl, rfl⟩
  | case2 n hn ih =>
    have hsplit := digit_add_three_mul n
    have hdigit := abs_toInt_le (split n).1
    refine .inr ?_
    rw [List.length_cons, Nat.pow_succ]
    rcases ih with ⟨hzero, hnone⟩ | hlonger
    · rw [hnone, List.length_nil]
      omega
    · omega

/-! ## What digits are worth -/

theorem ofTrits_digits (n : Int) : ofTrits (digits n) = n := by
  fun_induction digits n with
  | case1 => rfl
  | case2 n _ ih => rw [ofTrits, ih, digit_add_three_mul]

theorem ofTrits_toTrits (n : Int) : ofTrits (toTrits n) = n := by
  unfold toTrits
  split
  · next h => exact h.symm
  · exact ofTrits_digits n

/-- A digit is worth three times as much as it would be one place before. -/
theorem mul_ofTrits (scale : Int) (ts : List Trit) :
    (ts.mapIdx fun place t => t.toInt * (scale * 3 ^ place)).sum = scale * ofTrits ts := by
  induction ts generalizing scale with
  | nil => simp [ofTrits]
  | cons t ts ih =>
    have hplace : ∀ place, scale * 3 ^ (place + 1) = scale * 3 * 3 ^ place := fun place => by ring
    simp only [List.mapIdx_cons, List.sum_cons, hplace, ih, ofTrits]
    ring

/-- Digits are worth the sum of them all, each times the power of three of its place. -/
theorem ofTrits_eq_sum (ts : List Trit) :
    ofTrits ts = (ts.mapIdx fun place t => t.toInt * 3 ^ place).sum := by
  simpa using (mul_ofTrits 1 ts).symm

/-! ## Numerals -/

theorem ofSymbol_symbol (t : Trit) : Trit.ofSymbol t.symbol.toString = .ok t := by
  cases t <;> rfl

theorem isBlank_symbol (t : Trit) : Text.isBlank t.symbol = false := by cases t <;> rfl

theorem readFrom_append (total : Int) (cs ds : List Char) :
    readFrom total (cs ++ ds) = readFrom total cs >>= fun total => readFrom total ds := by
  induction cs generalizing total with
  | nil => rfl
  | cons c cs ih =>
    rw [List.cons_append, readFrom, readFrom]
    cases Trit.ofSymbol c.toString with
    | error e => rfl
    | ok t => exact ih _

/-- Digits that are read behind others move these to higher places. -/
theorem readFrom_symbols (total : Int) (ts : List Trit) :
    readFrom total (ts.reverse.map Trit.symbol) = .ok (total * 3 ^ ts.length + ofTrits ts) := by
  induction ts with
  | nil => simp [readFrom, ofTrits]
  | cons t ts ih =>
    have hlast : readFrom (total * 3 ^ ts.length + ofTrits ts) [t.symbol]
        = .ok ((total * 3 ^ ts.length + ofTrits ts) * 3 + t.toInt) := by
      rw [readFrom, ofSymbol_symbol]
      rfl
    have hworth : (total * 3 ^ ts.length + ofTrits ts) * 3 + t.toInt
        = total * 3 ^ (t :: ts).length + ofTrits (t :: ts) := by
      rw [List.length_cons, ofTrits]
      ring
    rw [List.reverse_cons, List.map_append, List.map_singleton, readFrom_append, ih, ok_bind, hlast, hworth]

theorem trim_symbols (ts : List Trit) : Text.trim (ts.map Trit.symbol) = ts.map Trit.symbol := by
  have hnone : ∀ ts : List Trit, (ts.map Trit.symbol).dropWhile Text.isBlank = ts.map Trit.symbol := by
    intro ts
    cases ts with
    | nil => rfl
    | cons t ts => rw [List.map_cons, List.dropWhile_cons_of_neg (by simp [isBlank_symbol])]
  rw [Text.trim, hnone, ← List.map_reverse, hnone, List.map_reverse, List.reverse_reverse]

theorem ofNumeral_numeral (n : Int) : ofNumeral (numeral n) = .ok n := by
  rw [ofNumeral, numeral, String.toList_ofList, trim_symbols, readFrom_symbols, ofTrits_toTrits,
    Int.zero_mul, Int.zero_add]

/-- Conversion comes to an end, after a number of turns that grows with the logarithm of
    the number, and loses nothing: neither its digits nor its numeral. -/
theorem conversion_lossless (n : Int) :
    (∃ turns, turn^[turns] (n, []) = (0, digits n) ∧ (∀ k < turns, (turn^[k] (n, [])).1 ≠ 0) ∧
        3 ^ turns ≤ 6 * n.natAbs + 1) ∧
      ofTrits (toTrits n) = n ∧ ofNumeral (numeral n) = .ok n := by
  refine ⟨⟨(digits n).length, turns_end n [], fun k => turns_go_on n [], ?_⟩, ofTrits_toTrits n,
    ofNumeral_numeral n⟩
  rcases pow_length_digits n with ⟨rfl, hnone⟩ | hlength
  · rw [hnone]
    decide
  · omega

/-! ## Sums -/

/-- What a column adds up to is its digit and three times its carry. -/
theorem addColumn_total (a b carry : Trit) :
    (addColumn a b carry).1.toInt + 3 * (addColumn a b carry).2.toInt
      = a.toInt + b.toInt + carry.toInt := by
  cases a <;> cases b <;> cases carry <;> rfl

/-- Lists of digits add up to the sum of what they are worth, and of the carry. -/
theorem ofTrits_addFrom (carry : Trit) (as bs : List Trit) :
    ofTrits (addFrom carry as bs) = ofTrits as + ofTrits bs + carry.toInt := by
  fun_induction addFrom carry as bs with
  | case1 => rfl
  | case2 carry hcarry => simp [ofTrits]
  | case3 carry a as ih =>
    have htotal : _ = a.toInt + 0 + carry.toInt := addColumn_total a .zero carry
    simp only [ofTrits, ih]
    omega
  | case4 carry b bs ih =>
    have htotal : _ = 0 + b.toInt + carry.toInt := addColumn_total .zero b carry
    simp only [ofTrits, ih]
    omega
  | case5 carry a as b bs ih =>
    have htotal := addColumn_total a b carry
    simp only [ofTrits, ih]
    omega

theorem add_eq (a b : Int) : add a b = a + b := by
  have hzero : Trit.zero.toInt = 0 := rfl
  rw [add, ofTrits_addFrom, ofTrits_toTrits, ofTrits_toTrits, hzero, Int.add_zero]

/-- Sums and differences of whole numbers of any size and sign are exact. -/
theorem add_exact (a b : Int) : add a b = a + b ∧ subtract a b = a - b :=
  ⟨add_eq a b, add_eq a (-b)⟩

end Balanced
end Verdict
