/-
  Verdict.Json — JSON documents as trees, and their text.

  Numbers are whole or floating-point; the text of a float has the fewest digits that
  read back, and the three values that JSON has no number for have names. The members of
  an object keep their order. A layout says which characters are escaped and where blanks
  and line ends stand; it never changes what is written. Strings and names may be torn:
  what is written is points, and `render` escapes the halves that a layout leaves as they
  are.
-/

import Verdict.Number.Shortest
import Verdict.Text.Script

namespace Verdict

inductive Json
  | null
  | bool (b : Bool)
  | int (n : Int)
  | float (x : Binary64)
  | str (s : Script)
  | array (items : List Json)
  | object (members : List (Script × Json))
  deriving Repr

instance : Inhabited Json := ⟨.null⟩

namespace Json

/-! ## Layouts -/

structure Layout where
  /-- Whether characters beyond ASCII are escaped. -/
  asciiOnly : Bool
  comma : List Char
  colon : List Char
  /-- The width of one level, when each item stands on a line of its own. -/
  indent : Option Nat
  deriving DecidableEq, Repr

/-- No blanks at all. -/
def Layout.compact : Layout := ⟨false, [','], [':'], none⟩

/-- One line, with a blank after each comma and colon. -/
def Layout.line : Layout := ⟨true, [',', ' '], [':', ' '], none⟩

/-- One item a line, two blanks for each level. -/
def Layout.indented : Layout := ⟨true, [','], [':', ' '], some 2⟩

/-- What stands before an item at a depth. -/
def Layout.lineBreak (l : Layout) (depth : Nat) : List Char :=
  match l.indent with
  | none => []
  | some width => '\n' :: List.replicate (width * depth) ' '

/-! ## Strings -/

/-- The escape of a character by number; beyond four digits it takes two. -/
def charEscape (c : Char) : List Char :=
  if c.toNat ≤ 0xFFFF then Text.unitEscape c.toNat
  else
    let above := c.toNat - 0x10000
    Text.unitEscape (0xD800 + above / 0x400) ++ Text.unitEscape (0xDC00 + above % 0x400)

def writeChar (asciiOnly : Bool) (c : Char) : List Char :=
  if c = '"' then ['\\', '"']
  else if c = '\\' then ['\\', '\\']
  else if c = '\n' then ['\\', 'n']
  else if c = '\r' then ['\\', 'r']
  else if c = '\t' then ['\\', 't']
  else if c = '\x0c' then ['\\', 'f']
  else if c = '\x08' then ['\\', 'b']
  else if c.toNat < 0x20 ∨ (asciiOnly ∧ 0x7E < c.toNat) then charEscape c
  else [c]

def writePoint (asciiOnly : Bool) : Point → List Point
  | .char c => Text.points (writeChar asciiOnly c)
  | .half h => if asciiOnly then Text.points (Text.unitEscape h.code) else [.half h]

def writeString (asciiOnly : Bool) (s : Script) : List Point :=
  .char '"' :: s.points.flatMap (writePoint asciiOnly) ++ [.char '"']

/-! ## Documents -/

mutual

/-- The text of a document whose items stand at `depth`. -/
def write (l : Layout) (depth : Nat) : Json → List Point
  | null => Text.points "null".toList
  | bool b => Text.points (if b then "true".toList else "false".toList)
  | int n => Text.points (Text.intChars n)
  | float x => Text.points (Number.floatChars Number.inJson x)
  | str s => writeString l.asciiOnly s
  | array [] => Text.points ['[', ']']
  | array (item :: items) =>
    Text.points ('[' :: l.lineBreak depth) ++ write l (depth + 1) item ++ writeItems l depth items
  | object [] => Text.points ['\x7b', '\x7d']
  | object ((name, v) :: members) =>
    Text.points ('\x7b' :: l.lineBreak depth) ++ writeString l.asciiOnly name ++ Text.points l.colon
      ++ write l (depth + 1) v ++ writeMembers l depth members
termination_by structural v => v

/-- The further items of an array, and its end. -/
def writeItems (l : Layout) (depth : Nat) : List Json → List Point
  | [] => Text.points (l.lineBreak (depth - 1) ++ [']'])
  | item :: items =>
    Text.points (l.comma ++ l.lineBreak depth) ++ write l (depth + 1) item ++ writeItems l depth items
termination_by structural items => items

/-- The further members of an object, and its end. -/
def writeMembers (l : Layout) (depth : Nat) : List (Script × Json) → List Point
  | [] => Text.points (l.lineBreak (depth - 1) ++ ['\x7d'])
  | (name, v) :: members =>
    Text.points (l.comma ++ l.lineBreak depth) ++ writeString l.asciiOnly name ++ Text.points l.colon
      ++ write l (depth + 1) v ++ writeMembers l depth members
termination_by structural members => members

end

/-- The text of a document, torn if a string of it is and the layout leaves halves as they
    are. -/
def text (l : Layout) (j : Json) : Script := .ofPoints (write l 1 j)

/-- The text of a document with all halves escaped. -/
def render (l : Layout) (j : Json) : String := String.ofList (Text.spell (write l 1 j))

end Json

end Verdict
