/-
  Verdict.Value.Stamp — the standard text of decimals, identifiers and paths.

  A decimal keeps its digits and its exponent: it is written plainly when the exponent is
  not positive and the first digit is worth at least 10 ^ -6, and with an exponent
  otherwise. An identifier is 32 hexadecimal digits in five groups. A path has no empty
  parts and no dots.
-/

import Verdict.Number.Numeral
import Verdict.Text.Blank
import Verdict.Value

namespace Verdict.Value

/-! ## Decimals -/

/-- Digits times a power of ten, in the standard text. -/
def decimalChars (digits : List Char) (exponent : Int) : List Char :=
  let adjusted := exponent + digits.length - 1
  if 0 < exponent ∨ adjusted < -6 then
    let places := digits.drop 1
    digits.take 1 ++ (if places.isEmpty then [] else '.' :: places)
      ++ 'E' :: (if adjusted < 0 then '-' else '+') :: Text.natChars adjusted.natAbs
  else if exponent = 0 then digits
  else
    let places := exponent.natAbs
    if places < digits.length then
      digits.take (digits.length - places) ++ '.' :: digits.drop (digits.length - places)
    else '0' :: '.' :: List.replicate (places - digits.length) '0' ++ digits

/-- The decimal that a text writes; a text that writes none is kept. -/
def ofDecimalText (text : String) : Value :=
  let (negative, body) := Number.readSign (Number.trimNumeral text.toList)
  let sign := if negative then ['-'] else []
  let word := body.map Char.toLower
  let (whole, rest) := Number.digitRun body
  let (places, rest) := Number.readPlaces rest
  let (exponent, rest) := Number.readExponent rest
  let digits := Text.natChars (Number.ofDigits (whole ++ places))
  .stamp .decimal <|
    if word = "inf".toList ∨ word = "infinity".toList then String.ofList sign ++ "Infinity"
    else if word = "nan".toList then String.ofList sign ++ "NaN"
    else if (whole ++ places).isEmpty || !rest.isEmpty then text
    else String.ofList (sign ++ decimalChars digits (exponent - places.length))

/-! ## Identifiers -/

def ofUuidText (text : String) : Value :=
  let digits := (text.toList.map Char.toLower).filter fun c => c.isDigit || 'a' ≤ c && c ≤ 'f'
  let part (start length : Nat) := String.ofList ((digits.drop start).take length)
  .stamp .uuid ("-".intercalate [part 0 8, part 8 4, part 12 4, part 16 4, part 20 12])

/-! ## Paths -/

/-- A path without its empty parts and dots. Two slashes in front are kept, more count as
    one. -/
def normalPath (text : String) : String :=
  let slashes := (text.toList.takeWhile (· = '/')).length
  let root := if slashes = 0 then "" else if slashes = 2 then "//" else "/"
  let parts := (text.splitOn "/").filter fun p => p != "" && p != "."
  let path := root ++ "/".intercalate parts
  if path = "" then "." else path

def ofPathText (text : String) : Value := .stamp .path (normalPath text)

end Verdict.Value
