/-
  Verdict.Text.Quoted — a text between quotes, as messages show it.

  The quotes are single, unless the text holds a single quote and no double one. Inside,
  the backslash and the quote in use are escaped, tab, line feed and carriage return have
  names, and every other character that is not printable is written by its number, in
  two, four or eight hexadecimal digits.
-/

import Verdict.Text.Blank
import Verdict.Text.PrintableTable
import Verdict.Text.Script

namespace Verdict.Text

def isPrintable (c : Char) : Bool :=
  if c.toNat < 0x80 then 0x20 ≤ c.toNat && c.toNat < 0x7F
  else inRanges printableRanges c.toNat

/-- An escape by number: the shortest of the three widths that holds it. -/
def numberEscape (n : Nat) : List Char :=
  if n ≤ 0xFF then '\\' :: 'x' :: hexDigits 2 n
  else if n ≤ 0xFFFF then '\\' :: 'u' :: hexDigits 4 n
  else '\\' :: 'U' :: hexDigits 8 n

def quoteChar (quote c : Char) : List Char :=
  if c = '\\' then ['\\', '\\']
  else if c = quote then ['\\', quote]
  else if c = '\t' then ['\\', 't']
  else if c = '\n' then ['\\', 'n']
  else if c = '\r' then ['\\', 'r']
  else if isPrintable c then [c]
  else numberEscape c.toNat

/-- The quote that a text is written between. -/
def quoteFor (cs : List Char) : Char :=
  if cs.contains '\'' && !cs.contains '"' then '"' else '\''

def quotedChars (cs : List Char) : List Char :=
  quoteFor cs :: cs.flatMap (quoteChar (quoteFor cs)) ++ [quoteFor cs]

def quoted (s : String) : String := String.ofList (quotedChars s.toList)

/-- A half is no character that could be printed: it is written by its number. -/
def quotePoint (quote : Char) : Point → List Char
  | .char c => quoteChar quote c
  | .half h => numberEscape h.code

def quotedTorn (t : Torn) : String :=
  let quote := quoteFor (t.points.filterMap Point.char?)
  String.ofList (quote :: t.points.flatMap (quotePoint quote) ++ [quote])

/-! ## Bytes -/

/-- A byte outside printable ASCII is always written by its number. -/
def quoteByte (quote : Char) (b : UInt8) : List Char :=
  if b.toNat < 0x80 then quoteChar quote (Char.ofNat b.toNat) else numberEscape b.toNat

def quotedBytes (bytes : List UInt8) : List Char :=
  let quote := quoteFor (bytes.map fun b => Char.ofNat b.toNat)
  'b' :: quote :: bytes.flatMap (quoteByte quote) ++ [quote]

end Verdict.Text
