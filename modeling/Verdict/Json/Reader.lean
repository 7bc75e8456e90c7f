/-
  Verdict.Json.Reader — JSON documents from text.

  The grammar is the usual one, with three names for the numbers that it lacks. A string
  may spell a character beyond four digits by two escapes in a row: a document is read with
  the halves apart, and what belongs together is joined afterwards. Nothing but blanks may
  follow the document.
-/

import Verdict.Json
import Verdict.Number.Numeral
import Verdict.Value.Table

namespace Verdict.Json

def skipBlanks (cs : List Char) : List Char :=
  cs.dropWhile fun c => c = ' ' || c = '\t' || c = '\n' || c = '\r'

/-! ## Strings -/

/-- What a letter stands for after a backslash. -/
def escaped? : Char → Option Nat
  | '"' => some 0x22
  | '\\' => some 0x5C
  | '/' => some 0x2F
  | 'b' => some 0x08
  | 'f' => some 0x0C
  | 'n' => some 0x0A
  | 'r' => some 0x0D
  | 't' => some 0x09
  | _ => none

def hexNumber? (a b c d : Char) : Option Nat := do
  return 0x1000 * (← Text.hexValue? a) + 0x100 * (← Text.hexValue? b)
    + 0x10 * (← Text.hexValue? c) + (← Text.hexValue? d)

/-- The numbers of a string's characters and escapes up to the closing quote, and what
    follows it. -/
def readUnits : List Char → Option (List Nat × List Char)
  | [] => none
  | '"' :: rest => some ([], rest)
  | '\\' :: 'u' :: a :: b :: c :: d :: rest => do
    let n ← hexNumber? a b c d
    let (units, rest) ← readUnits rest
    return (n :: units, rest)
  | '\\' :: c :: rest => do
    let n ← escaped? c
    let (units, rest) ← readUnits rest
    return (n :: units, rest)
  | c :: rest =>
    if c = '\\' ∨ c.toNat < 0x20 then none
    else do
      let (units, rest) ← readUnits rest
      return (c.toNat :: units, rest)

/-- A string, with the halves that were spelled apart. -/
def readString (cs : List Char) : Option (Script × List Char) := do
  let (units, rest) ← readUnits cs
  return (.ofPoints (units.map Point.ofCode), rest)

/-! ## Numbers -/

def isDigit (c : Char) : Bool := '0' ≤ c && c ≤ '9'

def digitsOf (cs : List Char) : Nat := Number.ofDigits (cs.map fun c => c.toNat - 0x30)

/-- The whole part of a number: no zero stands in front of other digits. -/
def readWhole : List Char → Option (List Char × List Char)
  | '0' :: rest => some (['0'], rest)
  | cs =>
    match cs.takeWhile isDigit with
    | [] => none
    | ds => some (ds, cs.dropWhile isDigit)

def readPlaces : List Char → List Char × List Char
  | '.' :: rest =>
    match rest.takeWhile isDigit with
    | [] => ([], '.' :: rest)
    | ds => (ds, rest.dropWhile isDigit)
  | cs => ([], cs)

/-- The exponent, if there is one, and what follows. -/
def readPower (cs : List Char) : Option Int × List Char :=
  match cs with
  | e :: rest =>
    if e = 'e' ∨ e = 'E' then
      let (negative, body) := Number.readSign rest
      match body.takeWhile isDigit with
      | [] => (none, cs)
      | ds =>
        let n : Int := digitsOf ds
        (some (if negative then -n else n), body.dropWhile isDigit)
    else (none, cs)
  | [] => (none, [])

def readNumber (negative : Bool) (cs : List Char) : Option (Json × List Char) := do
  let (whole, rest) ← readWhole cs
  let (places, rest) := readPlaces rest
  let (power, rest) := readPower rest
  if places.isEmpty && power.isNone then
    let n : Int := digitsOf whole
    return (int (if negative then -n else n), rest)
  let exponent := power.getD 0 - places.length
  return (float (Number.ofDecimal negative (digitsOf (whole ++ places)) exponent), rest)

/-! ## Documents -/

/-- What follows a word, if the text begins with it. -/
def after? (word : String) (cs : List Char) : Option (List Char) :=
  if word.toList.isPrefixOf cs then some (cs.drop word.toList.length) else none

/-- The documents that are words, and the words. -/
def words : List (String × Json) := [
  ("null", null), ("true", bool true), ("false", bool false), ("NaN", float .nan),
  ("Infinity", float (.infinite false)), ("-Infinity", float (.infinite true))]

def readWord (cs : List Char) : Option (Json × List Char) :=
  words.findSome? fun w => (after? w.1 cs).map fun rest => (w.2, rest)

def readScalar (cs : List Char) : Option (Json × List Char) :=
  match readWord cs with
  | some found => some found
  | none =>
    match cs with
    | '"' :: rest => (readString rest).map fun r => (str r.1, r.2)
    | '-' :: rest => readNumber true rest
    | cs => readNumber false cs

mutual

/-- A document at the front of a text, and what follows it. The fuel bounds the nesting. -/
def readValue : (fuel : Nat) → List Char → Option (Json × List Char)
  | 0, _ => none
  | fuel + 1, cs =>
    match cs with
    | '[' :: rest =>
      match skipBlanks rest with
      | ']' :: rest => some (array [], rest)
      | rest => (readItems fuel rest).map fun r => (array r.1, r.2)
    | '\x7b' :: rest =>
      match skipBlanks rest with
      | '\x7d' :: rest => some (object [], rest)
      | rest => (readMembers fuel rest).map fun r => (object r.1, r.2)
    | cs => readScalar cs

def readItems : (fuel : Nat) → List Char → Option (List Json × List Char)
  | 0, _ => none
  | fuel + 1, cs => do
    let (item, rest) ← readValue fuel cs
    match skipBlanks rest with
    | ',' :: rest =>
      let (items, rest) ← readItems fuel (skipBlanks rest)
      return (item :: items, rest)
    | ']' :: rest => return ([item], rest)
    | _ => none

def readMembers : (fuel : Nat) → List Char → Option (List (Script × Json) × List Char)
  | 0, _ => none
  | fuel + 1, cs => do
    let '"' :: rest := cs | none
    let (name, rest) ← readString rest
    let ':' :: rest := skipBlanks rest | none
    let (v, rest) ← readValue fuel (skipBlanks rest)
    match skipBlanks rest with
    | ',' :: rest =>
      let (members, rest) ← readMembers fuel (skipBlanks rest)
      return ((name, v) :: members, rest)
    | '\x7d' :: rest => return ([(name, v)], rest)
    | _ => none

end

/-! ## Joining halves -/

/-- The character of two halves. -/
def joinedChar (first second : Half) : Char :=
  Char.ofNat (0x10000 + first.place * 0x400 + (second.place - 0x400))

/-- Joins the halves that follow one another as those of one character. -/
def joinPoints : List Point → List Point
  | [] => []
  | .half first :: .half second :: rest =>
    if first.isFirst && !second.isFirst then .char (joinedChar first second) :: joinPoints rest
    else .half first :: joinPoints (.half second :: rest)
  | p :: rest => p :: joinPoints rest

def joinScript (s : Script) : Script := .ofPoints (joinPoints s.points)

mutual

/-- The document with the halves in its strings and names joined. -/
def joined : Json → Json
  | null => null
  | bool b => bool b
  | int n => int n
  | float x => float x
  | str s => str (joinScript s)
  | array items => array (joinedAll items)
  | object members => object (joinedMembers members)
termination_by structural j => j

def joinedAll : List Json → List Json
  | [] => []
  | j :: js => joined j :: joinedAll js
termination_by structural js => js

def joinedMembers : List (Script × Json) → List (Script × Json)
  | [] => []
  | (name, j) :: rest => (joinScript name, joined j) :: joinedMembers rest
termination_by structural ms => ms

end

/-- The document that a text spells. -/
def parse? (s : String) : Option Json := do
  let cs := s.toList
  let (j, rest) ← readValue (cs.length + 1) (skipBlanks cs)
  if (skipBlanks rest).isEmpty then return j.joined else none

/-! ## Values -/

mutual

/-- The value that a document describes; the last member of a name counts. -/
def toValue : Json → Value
  | null => .null
  | bool b => .bool b
  | int n => .int n
  | float x => .float x
  | str s => .ofScript s
  | array items => .list (toValues items)
  | object members => .map (Table.ofPairs (toEntries members))
termination_by structural j => j

def toValues : List Json → List Value
  | [] => []
  | j :: js => toValue j :: toValues js
termination_by structural js => js

def toEntries : List (Script × Json) → Entries
  | [] => []
  | (name, j) :: rest => (.ofScript name, toValue j) :: toEntries rest
termination_by structural ms => ms

end

end Verdict.Json
