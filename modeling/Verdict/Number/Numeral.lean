/-
  Verdict.Number.Numeral — whole numbers and floating-point numbers read from text.

  Digits are the decimal digits of any script. Single underscores may stand between two
  digits. Blanks around the number are dropped, the four information separators
  excepted. A number outside the range of `Binary64` is read as infinite or as zero.
-/

import Verdict.Number.Binary64
import Verdict.Text.Blank
import Verdict.Text.Decimal

namespace Verdict.Number

/-- The code points of the digit zero in every script of Unicode 14.0; the other nine
    digits follow each. -/
def scriptZeros : List Nat := [
  0x0030, 0x0660, 0x06F0, 0x07C0, 0x0966, 0x09E6, 0x0A66, 0x0AE6, 0x0B66, 0x0BE6, 0x0C66, 0x0CE6,
  0x0D66, 0x0DE6, 0x0E50, 0x0ED0, 0x0F20, 0x1040, 0x1090, 0x17E0, 0x1810, 0x1946, 0x19D0, 0x1A80,
  0x1A90, 0x1B50, 0x1BB0, 0x1C40, 0x1C50, 0xA620, 0xA8D0, 0xA900, 0xA9D0, 0xA9F0, 0xAA50, 0xABF0,
  0xFF10, 0x104A0, 0x10D30, 0x11066, 0x110F0, 0x11136, 0x111D0, 0x112F0, 0x11450, 0x114D0,
  0x11650, 0x116C0, 0x11730, 0x118E0, 0x11950, 0x11C50, 0x11D50, 0x11DA0, 0x16A60, 0x16AC0,
  0x16B50, 0x1D7CE, 0x1D7D8, 0x1D7E2, 0x1D7EC, 0x1D7F6, 0x1E140, 0x1E2F0, 0x1E950, 0x1FBF0]

def digitValue? (c : Char) : Option Nat :=
  (scriptZeros.find? fun z => z ≤ c.toNat && c.toNat < z + 10).map (c.toNat - ·)

/-- The digits at the front, with single underscores between them, and what follows. -/
def digitRun : List Char → List Nat × List Char
  | [] => ([], [])
  | c :: rest =>
    match digitValue? c with
    | none => ([], c :: rest)
    | some d =>
      match rest with
      | '_' :: next :: after =>
        if (digitValue? next).isSome then
          let (ds, r) := digitRun (next :: after)
          (d :: ds, r)
        else ([d], rest)
      | [] => ([d], [])
      | c' :: rest' =>
        let (ds, r) := digitRun (c' :: rest')
        (d :: ds, r)

def ofDigits (ds : List Nat) : Nat := ds.foldl (fun n d => 10 * n + d) 0

/-- The number without the blanks around it. -/
def trimNumeral (cs : List Char) : List Char :=
  let blank (c : Char) := Text.isBlank c && !(0x1C ≤ c.toNat && c.toNat ≤ 0x1F)
  ((cs.dropWhile blank).reverse.dropWhile blank).reverse

/-- Whether a minus stands in front, and what follows the sign. -/
def readSign : List Char → Bool × List Char
  | '-' :: cs => (true, cs)
  | '+' :: cs => (false, cs)
  | cs => (false, cs)

/-! ## Whole numbers -/

def readInt? (cs : List Char) : Option Int :=
  let (negative, body) := readSign (trimNumeral cs)
  match digitRun body with
  | ([], _) | (_, _ :: _) => none
  | (ds, []) => some (if negative then -(ofDigits ds : Int) else ofDigits ds)

/-! ## Floating-point numbers -/

/-- `digits · 10 ^ exponent`, rounded. Beyond 400 places the value is out of range. -/
def ofDecimal (negative : Bool) (digits : Nat) (exponent : Int) : Binary64 :=
  if digits = 0 then .zero negative
  else
    let magnitude := (Text.natChars digits).length + exponent
    if 400 < magnitude then .infinite negative
    else if magnitude < -400 then .zero negative
    else
      match exponent with
      | .ofNat k => .round negative (digits * Nat.pow 10 k) 1
      | .negSucc k => .round negative digits (Nat.pow 10 (k + 1))

/-- The exponent part, if one stands at the front, and what follows. -/
def readExponent : List Char → Int × List Char
  | [] => (0, [])
  | c :: cs =>
    if c = 'e' ∨ c = 'E' then
      let (negative, body) := readSign cs
      match digitRun body with
      | ([], _) => (0, c :: cs)
      | (ds, rest) => (if negative then -(ofDigits ds : Int) else ofDigits ds, rest)
    else (0, c :: cs)

def readPlaces : List Char → List Nat × List Char
  | '.' :: cs => digitRun cs
  | cs => ([], cs)

def readUnsigned? (negative : Bool) (cs : List Char) : Option Binary64 :=
  let word := cs.map Char.toLower
  if word = "inf".toList ∨ word = "infinity".toList then some (.infinite negative)
  else if word = "nan".toList then some .nan
  else
    let (whole, rest) := digitRun cs
    let (places, rest) := readPlaces rest
    let (exponent, rest) := readExponent rest
    if (whole ++ places).isEmpty || !rest.isEmpty then none
    else some (ofDecimal negative (ofDigits (whole ++ places)) (exponent - places.length))

def readFloat? (cs : List Char) : Option Binary64 :=
  let (negative, body) := readSign (trimNumeral cs)
  readUnsigned? negative body

end Verdict.Number
