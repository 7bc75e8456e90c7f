/-
  Verdict.Proofs.NumeralForms — to read a numeral and write it again is to normalize it.

  A character is read by itself: as the digit that its capital is a symbol of, or not at
  all (`ofSymbol_char`). So a text of symbols is worth what its digits are, and to take
  the digits of that number gives them back without leading zeros (`digits_ofTrits`: a
  split undoes `ofTrits` place by place). Hence the numeral of what is read is the text
  with every symbol in its plain form and no leading zeros, and a number has one such
  numeral only (`ofNumeral_normalizes`).
-/

import Verdict.Proofs.Numerals
import Mathlib.Data.Set.List

namespace Verdict

/-! ## Symbols of one character -/

namespace Trit

def symbols : List String := positiveSymbols ++ zeroSymbols ++ negativeSymbols

/-- Whether the capital of a character is a symbol. -/
def isSymbol (c : Char) : Bool := symbols.contains (Text.upper c.toString)

/-- The digit that a character is written for. -/
def ofChar? (c : Char) : Option Trit := ofCapitals? (Text.upper c.toString)

/-- The character, written in the plain form of its digit. -/
def plain (c : Char) : Char := ((ofChar? c).map symbol).getD c

theorem isSome_ofCapitals? (s : String) : (ofCapitals? s).isSome = symbols.contains s := by
  simp only [symbols, List.contains_append]
  unfold ofCapitals?
  split
  · next h => rw [h]; rfl
  · split
    · next hpositive hzero => rw [hzero, Bool.or_true]; rfl
    · split
      · next hnegative => rw [hnegative, Bool.or_true]; rfl
      · next hpositive hzero hnegative =>
        rw [Bool.eq_false_iff.2 hpositive, Bool.eq_false_iff.2 hzero, Bool.eq_false_iff.2 hnegative]
        rfl

theorem isSome_ofChar? (c : Char) : (ofChar? c).isSome = isSymbol c := isSome_ofCapitals? _

theorem ofChar?_symbol (t : Trit) : ofChar? t.symbol = some t := by cases t <;> decide

theorem plain_symbol (t : Trit) : plain t.symbol = t.symbol := by
  rw [plain, ofChar?_symbol]
  rfl

theorem ofChar?_blank {c : Char} (hc : Text.isBlank c = true) : ofChar? c = none := by
  have hall : ∀ r ∈ Text.blankRanges, ∀ k < r.2 + 1 - r.1, ofChar? (Char.ofNat (r.1 + k)) = none := by
    decide +kernel
  obtain ⟨r, hr, hin⟩ := List.any_eq_true.1 hc
  simp only [Bool.and_eq_true, decide_eq_true_eq] at hin
  have hplace := hall r hr (c.toNat - r.1) (by omega)
  rwa [show r.1 + (c.toNat - r.1) = c.toNat by omega, Char.ofNat_toNat] at hplace

theorem strip_char (c : Char) : Text.strip c.toString = if Text.isBlank c then "" else c.toString := by
  rw [Text.strip, Char.toString_eq_singleton, String.toList_singleton]
  by_cases hblank : Text.isBlank c = true
  · simp [Text.trim, hblank]
  · simp [Text.trim, hblank]

/-- A character alone is a symbol if its capital is one, and a blank is not. -/
theorem ofSymbol_char (c : Char) :
    ofSymbol c.toString =
      match ofChar? c with
      | some t => .ok t
      | none => .error (if Text.isBlank c then .emptySymbol c.toString else .unknownSymbol c.toString) := by
  rw [ofSymbol, strip_char]
  by_cases hblank : Text.isBlank c = true
  · rw [if_pos hblank, if_pos hblank, ofChar?_blank hblank]
    rfl
  · have hne : c.toString ≠ "" := by simp [Char.toString_eq_singleton]
    rw [if_neg hblank, if_neg hblank, if_neg hne]
    unfold ofChar?
    cases ofCapitals? (Text.upper c.toString) <;> rfl

end Trit

namespace Balanced

/-! ## Digits of what digits are worth -/

theorem split_add_three_mul (t : Trit) (n : Int) : split (t.toInt + 3 * n) = (t, n) := by
  have hsplit := digit_add_three_mul (t.toInt + 3 * n)
  have hdigit := abs_toInt_le (split (t.toInt + 3 * n)).1
  have ht := abs_toInt_le t
  have hrest : (split (t.toInt + 3 * n)).2 = n := by omega
  have hworth : (split (t.toInt + 3 * n)).1.toInt = t.toInt := by omega
  refine Prod.ext ?_ hrest
  rw [← Trit.ofInt_toInt (split _).1, hworth, Trit.ofInt_toInt]

theorem digits_zero : digits 0 = [] := by rw [digits, dif_pos rfl]

theorem digits_cons {t : Trit} {n : Int} (h : t.toInt + 3 * n ≠ 0) : digits (t.toInt + 3 * n) = t :: digits n := by
  rw [digits, dif_neg h, split_add_three_mul]

theorem digits_eq_nil {n : Int} : digits n = [] ↔ n = 0 := by
  refine ⟨fun h => ?_, fun h => by rw [h, digits_zero]⟩
  rw [← ofTrits_digits n, h, ofTrits]

/-- The digits of what digits are worth are these without zeros at the front. -/
theorem digits_ofTrits (ts : List Trit) : (digits (ofTrits ts)).reverse = ts.reverse.dropWhile (· == .zero) := by
  induction ts with
  | nil => rw [ofTrits, digits_zero]; rfl
  | cons t ts ih =>
    rw [ofTrits, List.reverse_cons, List.dropWhile_append, ← ih]
    by_cases hrest : ofTrits ts = 0
    · rw [hrest, digits_zero, List.reverse_nil, List.isEmpty_nil, if_pos rfl]
      cases t with
      | zero => rw [show Trit.zero.toInt + 3 * 0 = 0 from rfl, digits_zero]; rfl
      | positive => rw [digits_cons (by decide), digits_zero]; rfl
      | negative => rw [digits_cons (by decide), digits_zero]; rfl
    · have hkept : ¬(digits (ofTrits ts)).reverse.isEmpty = true := by
        rw [List.isEmpty_reverse, List.isEmpty_iff, digits_eq_nil]
        exact hrest
      have hworth := abs_toInt_le t
      rw [if_neg hkept, digits_cons (by omega), List.reverse_cons]

/-! ## Reading -/

/-- Whether the error is about a symbol, and that is the character. -/
structure IsAbout (e : Error) (c : Char) : Prop where
  family : e.family = .invalidSymbol
  details : e.details = [("symbol", .str c.toString)]

/-- The first character that is no symbol. -/
def firstFault? (cs : List Char) : Option Char := cs.find? (!Trit.isSymbol ·)

theorem firstFault?_cons (c : Char) (cs : List Char) :
    firstFault? (c :: cs) = if Trit.isSymbol c then firstFault? cs else some c := by
  rw [firstFault?, List.find?_cons]
  cases Trit.isSymbol c <;> rfl

theorem isAbout_refused (c : Char) :
    IsAbout (if Text.isBlank c then .emptySymbol c.toString else .unknownSymbol c.toString) c := by
  split <;> exact ⟨rfl, rfl⟩

/-- By induction on the characters: they are read in order, up to the first that is no
    symbol, and what is read is what their plain forms are worth. -/
theorem readFrom_ends (total : Int) (cs : List Char) :
    Ends (fun e => ∃ c, firstFault? cs = some c ∧ IsAbout e c)
      (fun n => firstFault? cs = none ∧
        ∃ ts : List Trit, cs.map Trit.plain = ts.map Trit.symbol ∧ readFrom total (ts.map Trit.symbol) = .ok n)
      (readFrom total cs) := by
  induction cs generalizing total with
  | nil => exact ⟨rfl, [], rfl, rfl⟩
  | cons c cs ih =>
    rw [readFrom, Trit.ofSymbol_char, firstFault?_cons, ← Trit.isSome_ofChar?]
    cases hdigit : Trit.ofChar? c with
    | none => exact ⟨c, rfl, isAbout_refused c⟩
    | some t =>
      have hplain : Trit.plain c = t.symbol := by rw [Trit.plain, hdigit]; rfl
      refine (ih (total * 3 + t.toInt)).imp fun n hn => ?_
      obtain ⟨hnone, ts, hcs, hrest⟩ := hn
      refine ⟨hnone, t :: ts, by rw [List.map_cons, List.map_cons, hplain, hcs], ?_⟩
      rw [List.map_cons, readFrom, ofSymbol_symbol]
      exact hrest

/-! ## Forms of numerals -/

/-- The plain forms of symbols without zeros at the front, and a zero if nothing is left. -/
def normalized (cs : List Char) : List Char :=
  let kept := (cs.map Trit.plain).dropWhile (· == '0')
  if kept = [] then ['0'] else kept

/-- A numeral in plain symbols that begins with a zero only if it is one. -/
structure IsNumeral (cs : List Char) : Prop where
  plain : ∀ c ∈ cs, c ∈ ['+', '0', '-']
  nonempty : cs ≠ []
  leading : cs.head? = some '0' → cs = ['0']

/-- The numeral of what digits are worth, most significant first. -/
theorem numeral_ofTrits {cs : List Char} {ts : List Trit} (h : cs.map Trit.plain = ts.map Trit.symbol) :
    (numeral (ofTrits ts.reverse)).toList = normalized cs := by
  have hzero : ((· == '0') ∘ Trit.symbol) = (· == Trit.zero) := by
    funext t
    cases t <;> rfl
  have hkept : (cs.map Trit.plain).dropWhile (· == '0') = (digits (ofTrits ts.reverse)).reverse.map Trit.symbol := by
    rw [h, List.dropWhile_map, hzero, digits_ofTrits, List.reverse_reverse]
  rw [normalized, hkept, numeral, String.toList_ofList, toTrits]
  simp only [List.map_eq_nil_iff, List.reverse_eq_nil_iff, digits_eq_nil]
  split
  · rfl
  · rfl

theorem ofNumeral_ends (s : String) :
    Ends (fun e => ∃ c, firstFault? (Text.trim s.toList) = some c ∧ IsAbout e c)
      (fun n => firstFault? (Text.trim s.toList) = none ∧ (numeral n).toList = normalized (Text.trim s.toList))
      (ofNumeral s) := by
  refine (readFrom_ends 0 (Text.trim s.toList)).imp fun n ⟨hnone, ts, hplain, hread⟩ => ⟨hnone, ?_⟩
  rw [← List.reverse_reverse ts, readFrom_symbols, Int.zero_mul, Int.zero_add] at hread
  cases hread
  exact numeral_ofTrits hplain

/-! ## The one numeral of a number -/

theorem numeral_of_read {s : String} {n : Int} (h : ofNumeral s = .ok n) :
    (numeral n).toList = normalized (Text.trim s.toList) := by
  have hends := ofNumeral_ends s
  rw [h] at hends
  exact hends.2

theorem normalized_ne_nil (cs : List Char) : normalized cs ≠ [] := by
  rw [normalized]
  split
  · exact List.cons_ne_nil _ _
  · next hkept => exact hkept

theorem normalized_leading {cs : List Char} (h : (normalized cs).head? = some '0') : normalized cs = ['0'] := by
  rw [normalized] at h ⊢
  split at h
  · next hkept => exact if_pos hkept
  · have hfirst := List.head?_dropWhile_not (· == '0') (cs.map Trit.plain)
    rw [h] at hfirst
    exact absurd hfirst (by decide)

theorem isNumeral_numeral (n : Int) : IsNumeral (numeral n).toList := by
  have hsymbol : ∀ t : Trit, t.symbol ∈ ['+', '0', '-'] := by intro t; cases t <;> decide
  have hnormal := numeral_of_read (ofNumeral_numeral n)
  refine ⟨fun c hc => ?_, hnormal ▸ normalized_ne_nil _, hnormal ▸ normalized_leading⟩
  rw [numeral, String.toList_ofList] at hc
  obtain ⟨t, -, rfl⟩ := List.mem_map.1 hc
  exact hsymbol t

namespace IsNumeral

variable {cs : List Char}

theorem exists_trits (h : IsNumeral cs) : ∃ ts : List Trit, ts.map Trit.symbol = cs := by
  have hsymbol : ∀ c ∈ ['+', '0', '-'], c ∈ Set.range Trit.symbol := by
    simp only [List.forall_mem_cons]
    exact ⟨⟨.positive, rfl⟩, ⟨.zero, rfl⟩, ⟨.negative, rfl⟩, List.forall_mem_nil _⟩
  have hsymbols : cs ∈ Set.range (List.map Trit.symbol) := by
    rw [Set.range_list_map]
    exact fun c hc => hsymbol c (h.plain c hc)
  exact hsymbols

theorem trim_eq (h : IsNumeral cs) : Text.trim cs = cs := by
  obtain ⟨ts, rfl⟩ := h.exists_trits
  exact trim_symbols ts

theorem map_plain (h : IsNumeral cs) : cs.map Trit.plain = cs := by
  obtain ⟨ts, rfl⟩ := h.exists_trits
  rw [List.map_map]
  refine List.map_congr_left fun t _ => ?_
  rw [Function.comp_apply, Trit.plain_symbol]

theorem normalized_eq (h : IsNumeral cs) : normalized cs = cs := by
  rw [normalized, h.map_plain]
  cases cs with
  | nil => exact absurd rfl h.nonempty
  | cons c cs =>
    by_cases hzero : c = '0'
    · rw [h.leading (by rw [hzero]; rfl)]
      rfl
    · have hkept : (c :: cs).dropWhile (· == '0') = c :: cs := List.dropWhile_cons_of_neg (by simpa using hzero)
      simp only [hkept]
      exact if_neg (List.cons_ne_nil _ _)

end IsNumeral

/-- A text is read unless a character in it, the blanks around it aside, is no symbol, and
    then the first such is told. The numeral of what is read is the text in its normal
    form, and no other numeral stands for that number. -/
theorem ofNumeral_normalizes :
    (∀ s : String,
      Ends (fun e => ∃ c, firstFault? (Text.trim s.toList) = some c ∧ IsAbout e c)
        (fun n => firstFault? (Text.trim s.toList) = none ∧ (numeral n).toList = normalized (Text.trim s.toList))
        (ofNumeral s))
      ∧ ∀ n : Int, IsNumeral (numeral n).toList ∧ ofNumeral (numeral n) = .ok n ∧
          ∀ w : String, IsNumeral w.toList → ofNumeral w = .ok n → w = numeral n := by
  refine ⟨ofNumeral_ends, fun n => ⟨isNumeral_numeral n, ofNumeral_numeral n, fun w hw hread => ?_⟩⟩
  have hnormal := numeral_of_read hread
  rw [hw.trim_eq, hw.normalized_eq] at hnormal
  exact (String.toList_inj.1 hnormal).symm

end Balanced
end Verdict
