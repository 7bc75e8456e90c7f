/-
  Verdict.Yaml.Plain — what a scalar without quotes stands for.

  Nothing, truth values, whole numbers, floating-point numbers and dates have fixed
  spellings; every other word is text. Digits may be parted by underscores, and by colons
  in base sixty. A float has a point, and its exponent a sign.
-/

import Verdict.Number.Numeral
import Verdict.Text.Hex
import Verdict.Text.Segments
import Verdict.Value

namespace Verdict.Yaml

/-! ## Words -/

def nullWords : List String := ["", "~", "null", "Null", "NULL"]

def yesWords : List String := ["yes", "Yes", "YES", "true", "True", "TRUE", "on", "On", "ON"]

def noWords : List String := ["no", "No", "NO", "false", "False", "FALSE", "off", "Off", "OFF"]

def infinityWords : List String := [".inf", ".Inf", ".INF"]

def nanWords : List String := [".nan", ".NaN", ".NAN"]

/-- Words that ask for more than a value. -/
def reservedWords : List String := ["=", "<<"]

/-! ## Whole numbers -/

def isDigit (c : Char) : Bool := '0' ≤ c && c ≤ '9'

/-- Digits below a base, perhaps with underscores; there is at least one character. -/
def readBase? (base : Nat) (cs : List Char) : Option Nat := do
  if cs.isEmpty then none
  let values ← (cs.filter (· ≠ '_')).mapM Text.hexValue?
  if values.all (· < base) then some (values.foldl (fun n d => base * n + d) 0) else none

/-- Digits of base ten; the first character is no underscore. -/
def readDigits? (cs : List Char) : Option Nat :=
  if cs.head? = some '_' then none else readBase? 10 cs

/-- A place in base sixty. -/
def readSixtieth? (cs : List Char) : Option Nat :=
  if cs.length ≤ 2 ∧ cs.all isDigit then (readBase? 10 cs).filter (· < 60) else none

/-- Places of base sixty parted by colons, at least two of them. -/
def readSixty? (cs : List Char) : Option Nat := do
  let first :: rest := Text.segments ':' cs | none
  if rest.isEmpty then none
  let first ← readDigits? first
  let rest ← rest.mapM readSixtieth?
  return rest.foldl (fun n d => 60 * n + d) first

/-- A whole number without its sign. -/
def readNatural? : List Char → Option Nat
  | ['0'] => some 0
  | '0' :: 'b' :: cs => readBase? 2 cs
  | '0' :: 'x' :: cs => readBase? 16 cs
  | '0' :: cs => readBase? 8 cs
  | cs => (readDigits? cs).orElse fun _ => readSixty? cs

def readInt? (cs : List Char) : Option Int :=
  let (negative, body) := Number.readSign cs
  (readNatural? body).map fun n => if negative then -(n : Int) else n

/-! ## Floating-point numbers -/

/-- An exponent with its sign, or nothing. -/
def isExponent : List Char → Bool
  | [] => true
  | e :: sign :: ds =>
    (e = 'e' || e = 'E') && (sign = '-' || sign = '+') && !ds.isEmpty && ds.all isDigit
  | _ => false

/-- Digits after a point, and an exponent. -/
def isFraction (cs : List Char) : Bool :=
  isExponent (cs.dropWhile fun c => isDigit c || c = '_')

/-- The form of a float: digits, a point and a fraction. Without digits before the point
    there is no sign and a digit follows. -/
def isFloat (signed : Bool) (body : List Char) : Bool :=
  let whole := body.takeWhile (· ≠ '.')
  match body.dropWhile (· ≠ '.') with
  | '.' :: rest =>
    if whole.isEmpty then !signed && rest.head?.any isDigit && isFraction rest
    else (readDigits? whole).isSome && isFraction rest
  | _ => false

/-- Places of base sixty, the last one with a fraction. -/
def readSixtyFloat? (negative : Bool) (body : List Char) : Option Binary64 := do
  let whole ← readSixty? (body.takeWhile (· ≠ '.'))
  let '.' :: rest := body.dropWhile (· ≠ '.') | none
  if rest.all fun c => isDigit c || c = '_' then
    let places := rest.filter isDigit
    let fraction ← readBase? 10 ('0' :: places)
    return Number.ofDecimal negative (whole * Nat.pow 10 places.length + fraction) (-places.length)
  else none

def readFloat? (cs : List Char) : Option Binary64 :=
  let (negative, body) := Number.readSign cs
  if infinityWords.contains (String.ofList body) then some (.infinite negative)
  else if nanWords.contains (String.ofList cs) then some .nan
  else if isFloat (body.length < cs.length) body then Number.readFloat? (cs.filter (· ≠ '_'))
  else readSixtyFloat? negative body

/-! ## Dates -/

def daysIn (year month : Nat) : Nat :=
  if month = 2 then
    if year % 4 = 0 ∧ (year % 100 ≠ 0 ∨ year % 400 = 0) then 29 else 28
  else if [4, 6, 9, 11].contains month then 30
  else 31

/-- Whether a word is a day of the calendar: four, two and two digits. -/
def isDate (cs : List Char) : Bool :=
  match Text.segments '-' cs with
  | [y, m, d] =>
    if y.length = 4 ∧ m.length = 2 ∧ d.length = 2 ∧ (y ++ m ++ d).all isDigit then
      match readBase? 10 y, readBase? 10 m, readBase? 10 d with
      | some year, some month, some day =>
        0 < year && 1 ≤ month && month ≤ 12 && 1 ≤ day && day ≤ daysIn year month
      | _, _, _ => false
    else false
  | _ => false

/-! ## Scalars -/

/-- The value of a plain scalar; reserved words have none. -/
def plainValue? (s : String) : Option Value :=
  if reservedWords.contains s then none
  else if nullWords.contains s then some .null
  else if yesWords.contains s then some (.bool true)
  else if noWords.contains s then some (.bool false)
  else
    match readInt? s.toList, readFloat? s.toList with
    | some n, _ => some (.int n)
    | none, some x => some (.float x)
    | none, none => some (if isDate s.toList then .stamp .date s else .str s)

end Verdict.Yaml
