/-
  Verdict.Proofs.Inversion — to negate a number is to invert its digits.

  A digit and three times a rest make up one number only, so the split of the negated
  number is the inverted split (`split_neg`), whichever of the two numbers is the negative
  one. Digit by digit the rest follows: the digits of a negated number are the inverted
  digits, and its numeral is the numeral with the two signs exchanged. Digits further down
  never outweigh the first, which therefore has the sign of the number
  (`getLast?_digits`). Main statement: `negation_digitwise`.
-/

import Verdict.Proofs.NumeralForms

namespace Verdict

namespace Trit

/-- The other sign in the place of a sign. -/
def exchanged (c : Char) : Char := if c = '+' then '-' else if c = '-' then '+' else c

theorem symbol_invert (t : Trit) : t.invert.symbol = exchanged t.symbol := by cases t <;> decide

theorem ofInt_eq_zero {n : Int} : ofInt n = zero ↔ n = 0 := by
  unfold ofInt
  split_ifs with hpositive hnegative
  · exact ⟨fun h => (nomatch h), fun h => by omega⟩
  · exact ⟨fun h => (nomatch h), fun h => by omega⟩
  · exact ⟨fun _ => by omega, fun _ => rfl⟩

/-- A digit does not change the sign of what stands before it. -/
theorem ofInt_add_three_mul (t : Trit) {n : Int} (hn : n ≠ 0) : ofInt (t.toInt + 3 * n) = ofInt n := by
  have hworth := Balanced.abs_toInt_le t
  by_cases hpositive : 0 < n
  · rw [ofInt, ofInt, if_pos hpositive, if_pos (by omega)]
  · rw [ofInt, ofInt, if_neg hpositive, if_neg (by omega), if_pos (by omega), if_pos (by omega)]

end Trit

namespace Balanced

/-! ## Digits of a negated number -/

theorem split_neg (n : Int) : split (-n) = ((split n).1.invert, -(split n).2) := by
  have hsplit := digit_add_three_mul n
  have hnegated : -n = (split n).1.invert.toInt + 3 * -(split n).2 := by
    rw [Trit.toInt_invert]
    omega
  rw [hnegated, split_add_three_mul]

/-- By induction on the digits: each turn of the loop takes an inverted digit. -/
theorem digits_neg (n : Int) : digits (-n) = (digits n).map Trit.invert := by
  fun_induction digits n with
  | case1 => exact digits_zero
  | case2 n hn ih =>
    have hn' : -n ≠ 0 := Int.neg_ne_zero.2 hn
    rw [digits, dif_neg hn', split_neg, ih, List.map_cons]

theorem toTrits_neg (n : Int) : toTrits (-n) = (toTrits n).map Trit.invert := by
  unfold toTrits
  by_cases hn : n = 0
  · rw [if_pos hn, if_pos (Int.neg_eq_zero.2 hn)]
    rfl
  · rw [if_neg hn, if_neg (Int.neg_ne_zero.2 hn), digits_neg]

theorem numeral_neg (n : Int) : (numeral (-n)).toList = (numeral n).toList.map Trit.exchanged := by
  have hsymbol : Trit.symbol ∘ Trit.invert = Trit.exchanged ∘ Trit.symbol := funext Trit.symbol_invert
  rw [numeral, numeral, String.toList_ofList, String.toList_ofList, toTrits_neg, ← List.map_reverse,
    List.map_map, List.map_map, hsymbol]

/-! ## The first digit -/

/-- By induction on the digits, of which the most significant is taken last. -/
theorem getLast?_digits {n : Int} (hn : n ≠ 0) : (digits n).getLast? = some (.ofInt n) := by
  fun_induction digits n with
  | case1 => exact absurd rfl hn
  | case2 n _ ih =>
    have hsplit := digit_add_three_mul n
    by_cases hrest : (split n).2 = 0
    · have hdigit : (split n).1.toInt = n := by omega
      rw [hrest, digits_zero, List.getLast?_singleton, ← Trit.ofInt_toInt (split n).1, hdigit]
    · have hsign : Trit.ofInt n = .ofInt (split n).2 := by
        rw [← Trit.ofInt_add_three_mul (split n).1 hrest, hsplit]
      rw [List.getLast?_cons, ih hrest, Option.getD_some, hsign]

theorem getLast?_toTrits (n : Int) : (toTrits n).getLast? = some (.ofInt n) := by
  unfold toTrits
  split
  · next hzero => rw [hzero]; rfl
  · next hn => exact getLast?_digits hn

/-- The digits of a negated number are the inverted digits, its numeral is the numeral with
    `+` and `-` exchanged, and the most significant digit has the sign of the number: it is
    zero for zero alone. -/
theorem negation_digitwise (n : Int) :
    toTrits (-n) = (toTrits n).map Trit.invert ∧
      (numeral (-n)).toList = (numeral n).toList.map Trit.exchanged ∧
      (toTrits n).getLast? = some (.ofInt n) ∧ ((toTrits n).getLast? = some .zero ↔ n = 0) := by
  refine ⟨toTrits_neg n, numeral_neg n, getLast?_toTrits n, ?_⟩
  rw [getLast?_toTrits, Option.some_inj, Trit.ofInt_eq_zero]

example : numeral 8 = "+0-" ∧ numeral (-8) = "-0+" := by
  constructor <;> cbv

end Balanced
end Verdict
