/-
  Verdict.Yaml.Scalar — the text of scalars.

  A scalar may run over several lines. Blanks around a line end are dropped; one line end
  becomes a blank, and of several the first is dropped. In double quotes a line end after
  a backslash joins the lines without a blank.
-/

import Verdict.Text.Script
import Verdict.Yaml.Cursor

namespace Verdict.Yaml

/-! ## Folding -/

/-- A character as it stands, one that was spelled by an escape, or an escaped line
    end. An escape can also spell half a character. -/
inductive Piece
  | raw (c : Char)
  | escaped (p : Point)
  | joint
  deriving DecidableEq, Repr

/-- What was passed since the last character that counts. -/
inductive Gap
  | blanks (cs : List Char)
  | lines (first : List Char) (more : List Char)

def Gap.text : Gap → List Char
  | blanks cs => cs
  | lines first [] => first
  | lines _ more => more

def Gap.addBlank (c : Char) : Gap → Gap
  | blanks cs => blanks (cs ++ [c])
  | gap => gap

def Gap.addLine : Gap → Gap
  | blanks _ => lines [' '] []
  | lines first more => lines first ('\n' :: more)

def foldFrom : Gap → List Piece → List Point
  | gap, [] => Text.points gap.text
  | gap, .raw c :: rest =>
    if c = '\n' then foldFrom gap.addLine rest
    else if c = ' ' ∨ c = '\t' then foldFrom (gap.addBlank c) rest
    else Text.points (gap.text ++ [c]) ++ foldFrom (.blanks []) rest
  | gap, .escaped p :: rest => Text.points gap.text ++ p :: foldFrom (.blanks []) rest
  | gap, .joint :: rest => Text.points gap.text ++ foldFrom (.lines [] []) rest

def fold (pieces : List Piece) : Script := .ofPoints (foldFrom (.blanks []) pieces)

/-! ## Quoted scalars -/

/-- What stands between single quotes, and what follows. -/
def singleQuoted : List Char → Option (List Piece × List Char)
  | [] => none
  | '\'' :: '\'' :: rest => (singleQuoted rest).map fun r => (.raw '\'' :: r.1, r.2)
  | '\'' :: rest => some ([], rest)
  | c :: rest => (singleQuoted rest).map fun r => (.raw c :: r.1, r.2)

/-- What a character stands for after a backslash. -/
def escapes : List (Char × Nat) := [
  ('0', 0x00), ('a', 0x07), ('b', 0x08), ('t', 0x09), ('\t', 0x09), ('n', 0x0A), ('v', 0x0B),
  ('f', 0x0C), ('r', 0x0D), ('e', 0x1B), (' ', 0x20), ('"', 0x22), ('\\', 0x5C), ('/', 0x2F),
  ('N', 0x85), ('_', 0xA0), ('L', 0x2028), ('P', 0x2029)]

/-- How many digits follow an escape by number. -/
def escapeWidth? : Char → Option Nat
  | 'x' => some 2
  | 'u' => some 4
  | 'U' => some 8
  | _ => none

/-- The character, or half of one, with a number in hexadecimal digits. -/
def numberedPoint? (digits : List Char) : Option Point := do
  let values ← digits.mapM Text.hexValue?
  let n := values.foldl (fun n d => 16 * n + d) 0
  if n < 0x110000 then some (.ofCode n) else none

/-- An escape after its backslash, and how many characters it takes. -/
def readEscape : List Char → Option (Piece × Nat)
  | [] => none
  | '\n' :: _ => some (.joint, 1)
  | c :: rest =>
    match escapes.lookup c with
    | some n => some (.escaped (.ofCode n), 1)
    | none => do
      let width ← escapeWidth? c
      if rest.length < width then none
      else return (.escaped (← numberedPoint? (rest.take width)), width + 1)

/-- What stands between double quotes, and what follows; `pending` characters belong to
    an escape that was read already. -/
def doubleQuoted : (pending : Nat) → List Char → Option (List Piece × List Char)
  | _, [] => none
  | pending + 1, _ :: rest => doubleQuoted pending rest
  | 0, '"' :: rest => some ([], rest)
  | 0, '\\' :: rest => do
    let (piece, width) ← readEscape rest
    let (pieces, rest) ← doubleQuoted width rest
    return (piece :: pieces, rest)
  | 0, c :: rest => (doubleQuoted 0 rest).map fun r => (.raw c :: r.1, r.2)

/-- A scalar in quotes. -/
def readQuoted (c : Cursor) : Option (Script × Cursor) := do
  let (pieces, rest) ←
    match c.rest with
    | '\'' :: rest => singleQuoted rest
    | '"' :: rest => doubleQuoted 0 rest
    | _ => none
  return (fold pieces, c.moveTo rest)

/-! ## Plain scalars -/

/-- The marks inside brackets. -/
def isFlowMark (c : Char) : Bool := [',', '[', ']', '\x7b', '\x7d'].contains c

/-- The characters that no plain scalar begins with. -/
def indicators : List Char :=
  ['-', '?', ':', ',', '[', ']', '\x7b', '\x7d', '#', '&', '*', '!', '|', '>', '\'', '"', '%', '@',
    '\x60', ' ', '\t', '\n']

/-- Whether a plain scalar begins here; a dash may be followed by more, outside brackets
    also a question mark and a colon. -/
def beginsPlain (flow : Bool) : List Char → Bool
  | [] => false
  | c :: rest =>
    !indicators.contains c
      || !standsAlone rest && (c = '-' || !flow && (c = '?' || c = ':'))

/-- Whether a word of a plain scalar ends here. -/
def endsWord (flow : Bool) : List Char → Bool
  | [] => true
  | c :: rest =>
    standsAlone [c] || flow && (isFlowMark c || c = '?')
      || c = ':' && (standsAlone rest || flow && (rest.head?.any isFlowMark))

/-- How many characters a plain scalar has. Outside brackets its further lines begin at
    column `least` or behind. `passed` characters were read, and the last word ended after
    `length` of them. -/
def plainLength (flow : Bool) (least : Nat) (inWord : Bool) (column passed length : Nat) :
    List Char → Nat
  | [] => length
  | c :: rest =>
    if c = ' ' then plainLength flow least false (column + 1) (passed + 1) length rest
    else if c = '\n' then plainLength flow least false 0 (passed + 1) length rest
    else if !inWord && (c = '#' || !flow && column < least) then length
    else if endsWord flow (c :: rest) then length
    else plainLength flow least true (column + 1) (passed + 1) (passed + 1) rest

/-- A scalar without quotes. -/
def readPlain (flow : Bool) (least : Nat) (c : Cursor) : Option (Script × Cursor) :=
  if beginsPlain flow c.rest then
    let length := plainLength flow least true c.column 0 0 c.rest
    some (fold ((c.rest.take length).map Piece.raw), c.forward length)
  else none

end Verdict.Yaml
