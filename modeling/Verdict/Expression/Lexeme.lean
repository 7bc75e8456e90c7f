/-
  Verdict.Expression.Lexeme — the pieces that an expression is written with.

  Parentheses, commas and the signs `!`, `&`, `|` and `^` stand for themselves; any other
  run of characters without a blank is a word. Nothing but blanks is skipped: the lexemes
  one after the other are the text without its blanks (`flatten_lexemes`).
-/

import Verdict.Text.Blank

namespace Verdict.Expression

/-- A piece of text and the place of its first character. -/
structure Lexeme where
  text : List Char
  position : Nat
  deriving DecidableEq, Repr

/-- Characters that are a lexeme of their own. -/
def isMark (c : Char) : Bool := ['(', ')', ',', '!', '&', '|', '^'].contains c

def isWordChar (c : Char) : Bool := !Text.isBlank c && !isMark c

/-- The lexemes of a text whose first character stands at `position`. -/
def lexemes (position : Nat) : List Char → List Lexeme
  | [] => []
  | c :: cs =>
    if Text.isBlank c then lexemes (position + 1) cs
    else if isMark c then ⟨[c], position⟩ :: lexemes (position + 1) cs
    else
      let word := c :: cs.takeWhile isWordChar
      ⟨word, position⟩ :: lexemes (position + word.length) (cs.dropWhile isWordChar)
termination_by cs => cs.length
decreasing_by
  · simp
  · simp
  · exact Nat.lt_succ_of_le (List.dropWhile_sublist _).length_le

theorem filter_takeWhile (cs : List Char) :
    (cs.takeWhile isWordChar).filter (!Text.isBlank ·) = cs.takeWhile isWordChar := by
  rw [List.filter_eq_self]
  intro c hc
  have := List.all_takeWhile (p := isWordChar) (l := cs)
  have hw := List.all_eq_true.1 this c hc
  simp only [isWordChar, Bool.and_eq_true] at hw
  exact hw.1

theorem flatten_lexemes (position : Nat) (cs : List Char) :
    ((lexemes position cs).map Lexeme.text).flatten = cs.filter (!Text.isBlank ·) := by
  fun_induction lexemes position cs with
  | case1 => rfl
  | case2 position c cs hb ih => simp [hb, ih]
  | case3 position c cs hb _ ih => simp [hb, ih]
  | case4 position c cs hb _ word ih =>
    have hsplit : cs.filter (!Text.isBlank ·)
        = (cs.takeWhile isWordChar).filter (!Text.isBlank ·)
          ++ (cs.dropWhile isWordChar).filter (!Text.isBlank ·) := by
      rw [← List.filter_append, List.takeWhile_append_dropWhile]
    simp only [List.map_cons, List.flatten_cons, ih]
    rw [List.filter_cons_of_pos (by simp [hb]), hsplit, filter_takeWhile]
    rfl

end Verdict.Expression
