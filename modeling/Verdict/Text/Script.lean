/-
  Verdict.Text.Script — texts that may hold halves of characters.

  A character whose number has more than four hexadecimal digits can be spelled by two
  numbers of four, its halves. An escape can also spell a half that stands alone. That is
  no character, but a text can hold it among its characters: such a text is torn. It is
  compared, sorted and shown like any other text, but UTF-8 has no form for it.
-/

import Verdict.Text.Hex

namespace Verdict

/-- One half of a character, by its place among all halves. -/
structure Half where
  place : Fin 0x800
  deriving DecidableEq, Repr

/-- What a text is made of. -/
inductive Point
  | char (c : Char)
  | half (h : Half)
  deriving DecidableEq, Repr

/-! ## Points -/

namespace Text

/-- The escape of a number of four digits. -/
def unitEscape (n : Nat) : List Char := '\\' :: 'u' :: hexDigits 4 n

/-- Characters as points. -/
def points (cs : List Char) : List Point := cs.map .char

end Text

def Half.code (h : Half) : Nat := 0xD800 + h.place

/-- Whether it is a first half, which a second one follows in the spelling of a character. -/
def Half.isFirst (h : Half) : Bool := h.place < 0x400

namespace Point

def isHalf : Point → Bool
  | char _ => false
  | half _ => true

def char? : Point → Option Char
  | char c => some c
  | half _ => none

/-- The number of a point. -/
def code : Point → Nat
  | char c => c.toNat
  | half h => h.code

/-- The point of a number. -/
def ofCode (n : Nat) : Point :=
  if h : 0xD800 ≤ n ∧ n < 0xE000 then half ⟨n - 0xD800, by omega⟩ else char (Char.ofNat n)

/-- A point as characters: a half is escaped. -/
def spelled : Point → List Char
  | char c => [c]
  | half h => Text.unitEscape h.code

@[simp] theorem code_char (c : Char) : (char c).code = c.toNat := rfl

@[simp] theorem ofCode_code (p : Point) : ofCode p.code = p := by
  cases p with
  | char c =>
    have hvalid : c.toNat.isValidChar := c.valid
    have hout : ¬(0xD800 ≤ c.toNat ∧ c.toNat < 0xE000) := by
      simp only [Nat.isValidChar] at hvalid
      omega
    rw [code, ofCode, dif_neg hout, Char.ofNat_toNat]
  | half h =>
    have hin : 0xD800 ≤ h.code ∧ h.code < 0xE000 := by
      have := h.place.isLt
      unfold Half.code
      omega
    rw [code, ofCode, dif_pos hin]
    simp [Half.code]

end Point

/-- The characters of a text, with its halves escaped. -/
def Text.spell (ps : List Point) : List Char := ps.flatMap Point.spelled

@[simp] theorem Text.spell_points (cs : List Char) : Text.spell (Text.points cs) = cs := by
  simp [Text.spell, Text.points, List.flatMap_map, Point.spelled]

theorem Text.spell_append (ps qs : List Point) : Text.spell (ps ++ qs) = Text.spell ps ++ Text.spell qs :=
  List.flatMap_append

/-! ## Texts -/

/-- A text with a half in it. -/
structure Torn where
  points : List Point
  torn : points.any Point.isHalf = true
  deriving DecidableEq, Repr

/-- The text, with its halves escaped. -/
def Torn.shown (t : Torn) : String := String.ofList (Text.spell t.points)

/-- A text of whole characters, or a torn one. -/
inductive Script
  | whole (s : String)
  | torn (t : Torn)
  deriving DecidableEq, Repr

namespace Script

instance : Coe String Script := ⟨whole⟩

instance : Inhabited Script := ⟨whole ""⟩

def points : Script → List Point
  | whole s => Text.points s.toList
  | torn t => t.points

/-- The text that is made of these points. -/
def ofPoints (ps : List Point) : Script :=
  if h : ps.any Point.isHalf = true then torn ⟨ps, h⟩ else whole (String.ofList (ps.filterMap Point.char?))

/-- Texts are sorted by the numbers of their points. -/
instance : LT Script := ⟨fun s t => s.points.map Point.code < t.points.map Point.code⟩

instance (s t : Script) : Decidable (s < t) :=
  inferInstanceAs (Decidable (s.points.map Point.code < t.points.map Point.code))

/-! ## Texts and their points -/

theorem any_isHalf_points (cs : List Char) : (Text.points cs).any Point.isHalf = false := by
  simp [Text.points, Point.isHalf]

@[simp] theorem ofPoints_points (s : Script) : ofPoints s.points = s := by
  cases s with
  | whole s =>
    have hchars : (Text.points s.toList).filterMap Point.char? = s.toList := by
      simp [Text.points, List.filterMap_map, Function.comp_def, Point.char?]
    rw [points, ofPoints, dif_neg (by rw [any_isHalf_points]; exact Bool.false_ne_true), hchars, String.ofList_toList]
  | torn t => rw [points, ofPoints, dif_pos t.torn]

theorem points_inj {s t : Script} (h : s.points = t.points) : s = t := by
  rw [← ofPoints_points s, h, ofPoints_points]

/-- Only whole characters make a whole text. -/
theorem filterMap_char?_points {ps : List Point} (h : ps.any Point.isHalf = false) :
    Text.points (ps.filterMap Point.char?) = ps := by
  induction ps with
  | nil => rfl
  | cons p ps ih =>
    rw [List.any_cons, Bool.or_eq_false_iff] at h
    cases p with
    | half => cases h.1
    | char c => exact congrArg (Point.char c :: ·) (ih h.2)

@[simp] theorem points_ofPoints (ps : List Point) : (ofPoints ps).points = ps := by
  unfold ofPoints
  split
  · rfl
  · next h => rw [points, String.toList_ofList, filterMap_char?_points (Bool.eq_false_iff.2 h)]

theorem ofPoints_inj {ps qs : List Point} (h : ofPoints ps = ofPoints qs) : ps = qs := by
  rw [← points_ofPoints ps, h, points_ofPoints]

/-! ## The order of texts -/

theorem codes_inj {s t : Script} (h : s.points.map Point.code = t.points.map Point.code) : s = t := by
  refine points_inj ?_
  have hpoints := congrArg (List.map Point.ofCode) h
  simpa [List.map_map, Function.comp_def] using hpoints

theorem lt_irrefl (s : Script) : ¬s < s := List.lt_irrefl (s.points.map Point.code)

theorem lt_trans {s t u : Script} (h : s < t) (h' : t < u) : s < u := List.lt_trans h h'

theorem ne_of_lt {s t : Script} (h : s < t) : s ≠ t := by
  rintro rfl
  exact lt_irrefl s h

/-- Of two different texts one comes first. -/
theorem lt_or_lt {s t : Script} (h : s ≠ t) : s < t ∨ t < s := by
  by_cases hlt : s < t
  · exact .inl hlt
  · refine .inr (Decidable.byContradiction fun hgt => h (codes_inj ?_))
    exact List.le_antisymm (List.not_lt.1 hgt) (List.not_lt.1 hlt)

end Script

end Verdict
