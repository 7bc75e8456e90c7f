/-
  Verdict.Text.Segments — a text cut at every occurrence of a character.

  There is always one segment more than there are cuts, so the segments, joined again by
  the character, give the text back (`join_segments`).
-/

namespace Verdict.Text

def segments (mark : Char) : List Char → List (List Char)
  | [] => [[]]
  | c :: cs =>
    if c = mark then [] :: segments mark cs
    else
      match segments mark cs with
      | [] => [[c]]
      | s :: rest => (c :: s) :: rest

/-- The segments with the character between them. -/
def join (mark : Char) : List (List Char) → List Char
  | [] => []
  | [s] => s
  | s :: rest => s ++ mark :: join mark rest

theorem segments_ne_nil (mark : Char) (cs : List Char) : segments mark cs ≠ [] := by
  cases cs with
  | nil => simp [segments]
  | cons c cs =>
    unfold segments
    split
    · simp
    · split <;> simp

theorem join_segments (mark : Char) (cs : List Char) : join mark (segments mark cs) = cs := by
  induction cs with
  | nil => rfl
  | cons c cs ih =>
    have hne := segments_ne_nil mark cs
    unfold segments
    cases hs : segments mark cs with
    | nil => exact absurd hs hne
    | cons s rest =>
      rw [hs] at ih
      split
      · next hc => rw [join, ih, hc, List.nil_append]; simp
      · cases rest with
        | nil => simpa [join] using ih
        | cons s' rest' => simpa [join] using ih

/-- The parts of a string between the occurrences of a character. -/
def parts (mark : Char) (s : String) : List String :=
  (segments mark s.toList).map String.ofList

end Verdict.Text
