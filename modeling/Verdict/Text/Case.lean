/-
  Verdict.Text.Case — upper case, lower case and case folding of whole texts.

  All three are the full mappings: one character may become several (`ß` becomes `SS` in
  upper case and `ss` when folded). Upper case and folding look at one character at a
  time. Lower case does so too, except for the capital sigma, which becomes the final
  form at the end of a word.
-/

import Verdict.Text.Blank
import Verdict.Text.CaseTable
import Verdict.Text.CasedTable

namespace Verdict.Text

/-- The image of a character outside ASCII: an expansion, a shift, or the character. -/
def mapBy (shifts : List Shift) (expansions : List (Nat × List Nat)) (c : Char) : List Char :=
  match expansions.lookup c.toNat with
  | some cs => cs.map Char.ofNat
  | none =>
    match shifts.find? (·.covers c.toNat) with
    | some s => [Char.ofNat ((c.toNat : Int) + s.delta).toNat]
    | none => [c]

def upperChar (c : Char) : List Char :=
  if c.toNat < 0x80 then [c.toUpper] else mapBy upperShifts upperExpansions c

def lowerChar (c : Char) : List Char :=
  if c.toNat < 0x80 then [c.toLower] else mapBy lowerShifts lowerExpansions c

def foldChar (c : Char) : List Char :=
  if c.toNat < 0x80 then [c.toLower] else mapBy foldShifts foldExpansions c

/-! ## The capital sigma -/

def isCaseIgnorable (c : Char) : Bool := inRanges caseIgnorableRanges c.toNat

def isCased (c : Char) : Bool := inRanges casedRanges c.toNat

/-- The first character that is not looked past has case. -/
def meetsCased (cs : List Char) : Bool :=
  match cs.dropWhile isCaseIgnorable with
  | [] => false
  | c :: _ => isCased c

/-- A capital sigma ends a word when a letter stands before it and none behind it. -/
def lowerSigma (before after : List Char) : Char :=
  if meetsCased before && !meetsCased after then 'ς' else 'σ'

/-- Lower case of the characters `after`, with those already passed in `before`, last
    first. -/
def lowerFrom (before : List Char) : List Char → List Char
  | [] => []
  | c :: after =>
    (if c = 'Σ' then [lowerSigma before after] else lowerChar c) ++ lowerFrom (c :: before) after

/-! ## Texts -/

def upperChars (cs : List Char) : List Char := cs.flatMap upperChar

def lowerChars (cs : List Char) : List Char := lowerFrom [] cs

def foldChars (cs : List Char) : List Char := cs.flatMap foldChar

def upper (s : String) : String := String.ofList (upperChars s.toList)

def lower (s : String) : String := String.ofList (lowerChars s.toList)

def fold (s : String) : String := String.ofList (foldChars s.toList)

end Verdict.Text
