/-
  Verdict.Yaml.Cursor — places in a text.

  A place is what follows it, with its line and its column. Passing n characters and then
  m is passing n + m (`forward_forward`).
-/

namespace Verdict.Yaml

structure Cursor where
  rest : List Char
  line : Nat
  column : Nat
  deriving DecidableEq, Repr

namespace Cursor

def start (cs : List Char) : Cursor := ⟨cs, 0, 0⟩

/-- Passes one character. -/
def next (c : Cursor) : Cursor :=
  match c.rest with
  | [] => c
  | '\n' :: rest => ⟨rest, c.line + 1, 0⟩
  | _ :: rest => ⟨rest, c.line, c.column + 1⟩

def forward (c : Cursor) : Nat → Cursor
  | 0 => c
  | n + 1 => c.next.forward n

theorem forward_forward (c : Cursor) (n m : Nat) :
    (c.forward n).forward m = c.forward (n + m) := by
  induction n generalizing c with
  | zero => simp [forward]
  | succ n ih => rw [Nat.succ_add]; exact ih c.next

/-- Passes what stands before the rest of the text. -/
def moveTo (c : Cursor) (rest : List Char) : Cursor := c.forward (c.rest.length - rest.length)

/-- How many characters are blanks, comments and line ends. -/
def gapLength (inComment : Bool) : List Char → Nat
  | [] => 0
  | c :: rest =>
    if c = '\n' then 1 + gapLength false rest
    else if inComment || c = ' ' then 1 + gapLength inComment rest
    else if c = '#' then 1 + gapLength true rest
    else 0

/-- Passes blanks, comments and line ends. -/
def skip (c : Cursor) : Cursor := c.forward (gapLength false c.rest)

end Cursor

/-- Whether a mark before this text stands alone. -/
def standsAlone : List Char → Bool
  | [] => true
  | c :: _ => c = ' ' || c = '\t' || c = '\n'

end Verdict.Yaml
