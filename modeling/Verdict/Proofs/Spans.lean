/-
  Verdict.Proofs.Spans — the tokens of a text leave out nothing but its blanks.

  Each lexeme is a span of the text: a mark, or a word that goes on in neither direction.
  The spans of the lexemes from a place on do not overlap and cover just the characters
  from there on that are no blanks (`lexemes_tile`, by the recursion of `lexemes`; what
  carries it is that the text behind a word never begins with more of the word). A token
  stands for the span of its lexeme, so the same holds of the tokens
  (`Registry.tokenize_covers`).
-/

import Verdict.Proofs.Words

namespace Verdict.Expression

/-! ## Spans -/

/-- A part of a text, with what stands before it and after it. -/
structure Span (source : List Char) where
  before : List Char
  text : List Char
  after : List Char
  whole : before ++ text ++ after = source

namespace Span

variable {source : List Char}

def start (s : Span source) : Nat := s.before.length

/-- The place behind the last character. -/
def stop (s : Span source) : Nat := s.start + s.text.length

def Covers (s : Span source) (i : Nat) : Prop := s.start ≤ i ∧ i < s.stop

def IsSign (s : Span source) : Prop := ∃ c, s.text = [c] ∧ isMark c = true

/-- A word that could be longer neither to the left nor to the right. -/
structure IsRun (s : Span source) : Prop where
  word : IsWord s.text
  before : s.before.getLast?.any isWordChar = false
  after : s.after.head?.any isWordChar = false

/-- What stands for something in an expression. -/
def IsPiece (s : Span source) : Prop := s.IsSign ∨ s.IsRun

theorem IsPiece.cases {s : Span source} (h : s.IsPiece) :
    (∃ c, s.text = [c] ∧ isMark c = true) ∨ IsWord s.text :=
  h.imp_right IsRun.word

theorem IsPiece.start_lt_stop {s : Span source} (h : s.IsPiece) : s.start < s.stop := by
  have hne : s.text ≠ [] := by
    rcases h.cases with ⟨c, htext, -⟩ | hword
    · rw [htext]; exact List.cons_ne_nil c []
    · exact hword.1
  exact Nat.lt_add_of_pos_right (List.length_pos_iff.2 hne)

theorem IsPiece.not_blank {s : Span source} (h : s.IsPiece) : ∀ c ∈ s.text, Text.isBlank c = false := by
  intro c hc
  rcases h.cases with ⟨d, htext, hmark⟩ | hword
  · rw [htext, List.mem_singleton] at hc
    exact hc ▸ isBlank_of_isMark hmark
  · have hchar := List.all_eq_true.1 hword.2 c hc
    simp only [isWordChar, Bool.and_eq_true, Bool.not_eq_true'] at hchar
    exact hchar.1

/-- A covered character is one of the span. -/
theorem mem_of_covers {s : Span source} {i : Nat} {c : Char} (hi : s.Covers i) (hc : source[i]? = some c) :
    c ∈ s.text := by
  obtain ⟨hstart, hstop⟩ := hi
  have hstop : i < (s.before ++ s.text).length := by rw [List.length_append]; exact hstop
  rw [← s.whole, List.getElem?_append_left hstop, List.getElem?_append_right hstart] at hc
  exact List.mem_of_getElem? hc

end Span

/-! ## The spans of lexemes -/

def Span.lexeme {source : List Char} (s : Span source) : Lexeme := ⟨s.text, s.start⟩

/-- Pieces one behind the other that cover a text from the place `start` on, but for its
    blanks. -/
structure Tiles {source : List Char} (start : Nat) (spans : List (Span source)) : Prop where
  pieces : ∀ s ∈ spans, s.IsPiece
  behind : ∀ s ∈ spans, start ≤ s.start
  apart : spans.Pairwise fun s s' => s.stop ≤ s'.start
  covers : ∀ i c, start ≤ i → source[i]? = some c → (Text.isBlank c = false ↔ ∃ s ∈ spans, s.Covers i)

section

variable {source : List Char} {start : Nat} {spans : List (Span source)}

theorem Tiles.nil (h : source.length ≤ start) : Tiles start ([] : List (Span source)) := by
  refine ⟨List.forall_mem_nil _, List.forall_mem_nil _, .nil, fun i c hi hc => ?_⟩
  have hlt := (List.getElem?_eq_some_iff.1 hc).1
  omega

theorem Tiles.blank {c : Char} (h : Tiles (start + 1) spans) (hc : source[start]? = some c)
    (hblank : Text.isBlank c = true) : Tiles start spans := by
  obtain ⟨hpieces, hbehind, hapart, hcovers⟩ := h
  refine ⟨hpieces, fun s hs => Nat.le_of_succ_le (hbehind s hs), hapart, ?_⟩
  intro i d hi hd
  by_cases hfirst : i = start
  · -- the blank itself lies before all spans
    subst hfirst
    obtain rfl : c = d := Option.some.inj (hc.symm.trans hd)
    refine iff_of_false (by simp [hblank]) ?_
    rintro ⟨s, hs, hstart, -⟩
    have hlater := hbehind s hs
    omega
  · exact hcovers i d (by omega) hd

theorem Tiles.cons {s : Span source} (h : Tiles s.stop spans) (hs : s.IsPiece) : Tiles s.start (s :: spans) := by
  obtain ⟨hpieces, hbehind, hapart, hcovers⟩ := h
  have hlt := hs.start_lt_stop
  refine ⟨List.forall_mem_cons.2 ⟨hs, hpieces⟩, ?_, .cons hbehind hapart, ?_⟩
  · intro s' hs'
    rcases List.mem_cons.1 hs' with rfl | hs'
    · exact Nat.le_refl _
    · have hlater := hbehind s' hs'
      omega
  · intro i c hi hc
    by_cases hstop : i < s.stop
    · have hmem := Span.mem_of_covers ⟨hi, hstop⟩ hc
      exact iff_of_true (hs.not_blank c hmem) ⟨s, List.mem_cons_self, hi, hstop⟩
    · -- what lies behind the first span is covered by the others or not at all
      have hnot : ¬s.Covers i := fun h => hstop h.2
      rw [hcovers i c (by omega) hc, List.exists_mem_cons_iff, or_iff_right hnot]

/-- The spans of the rest of a text. A word that ends where the rest begins does not go on
    in it. -/
theorem lexemes_tile {passed cs : List Char} {position : Nat} (hposition : passed.length = position)
    (hsource : passed ++ cs = source)
    (hedge : passed.getLast?.any isWordChar = false ∨ cs.head?.any isWordChar = false) :
    ∃ spans : List (Span source), lexemes position cs = spans.map Span.lexeme ∧ Tiles position spans := by
  fun_induction lexemes position cs generalizing passed with
  | case1 position =>
    refine ⟨[], rfl, Tiles.nil ?_⟩
    rw [← hsource, List.append_nil, hposition]
  | case2 position c cs hblank ih =>
    subst hposition
    have hnot : isWordChar c = false := by simp [isWordChar, hblank]
    obtain ⟨spans, hspans, h⟩ := @ih (passed ++ [c]) List.length_append
      (by rw [List.append_assoc]; exact hsource) (.inl (by simp [hnot]))
    exact ⟨spans, hspans, h.blank (by simp [← hsource]) hblank⟩
  | case3 position c cs hblank hmark ih =>
    subst hposition
    have hnot : isWordChar c = false := by simp [isWordChar, hmark]
    let s : Span source := ⟨passed, [c], cs, by rw [List.append_assoc]; exact hsource⟩
    obtain ⟨spans, hspans, h⟩ := @ih (passed ++ s.text) List.length_append s.whole (.inl (by simp [s, hnot]))
    exact ⟨s :: spans, by rw [hspans]; rfl, Tiles.cons (s := s) h (.inl ⟨c, rfl, hmark⟩)⟩
  | case4 position c cs hblank hmark word =>
    rename_i ih
    subst hposition
    have hchar : isWordChar c = true := by simp [isWordChar, hblank, hmark]
    have hbefore : passed.getLast?.any isWordChar = false :=
      hedge.resolve_right (by rw [List.head?_cons, Option.any_some, hchar]; exact Bool.noConfusion)
    have hword : IsWord word := isWord_takeWhile hblank hmark cs
    have hafter : (cs.dropWhile isWordChar).head?.any isWordChar = false := by
      have hnot := List.head?_dropWhile_not isWordChar cs
      cases hd : (cs.dropWhile isWordChar).head? with
      | none => rfl
      | some d => simpa [hd] using hnot
    have hwhole : passed ++ word ++ cs.dropWhile isWordChar = source := by
      rw [List.append_assoc, List.cons_append, List.takeWhile_append_dropWhile]
      exact hsource
    let s : Span source := ⟨passed, word, cs.dropWhile isWordChar, hwhole⟩
    obtain ⟨spans, hspans, h⟩ := @ih (passed ++ s.text) List.length_append s.whole (.inr hafter)
    exact ⟨s :: spans, by rw [hspans]; rfl, Tiles.cons (s := s) h (.inr ⟨hword, hbefore, hafter⟩)⟩

end

/-! ## The spans of tokens -/

/-- Whether a token stands for a span: it begins with it, and is what it is read as. -/
structure Token.StandsFor {source : List Char} (t : Token) (s : Span source) : Prop where
  position : t.position = s.start
  piece : s.IsPiece
  reads : t.kind.Reads s.text t.text

section

variable {r : Registry} {source : List Char} {spans : List (Span source)}

theorem tokensAfter_standFor (h : ∀ s ∈ spans, s.IsPiece) (previous : Option TokenKind) :
    List.Forall₂ Token.StandsFor (r.tokensAfter previous (spans.map Span.lexeme)) spans := by
  induction spans generalizing previous with
  | nil => exact .nil
  | cons s spans ih =>
    obtain ⟨hs, hspans⟩ := List.forall_mem_cons.1 h
    exact .cons ⟨rfl, hs, classify_reads hs.cases _⟩ (ih hspans _)

/-- Tokens are in the order of their spans. -/
theorem positions_increase {tokens : List Token} {start : Nat} (htokens : List.Forall₂ Token.StandsFor tokens spans)
    (hspans : Tiles start spans) :
    tokens.Pairwise fun t t' => t.position < t'.position := by
  have hpositions : tokens.map Token.position = spans.map Span.start := by
    rw [← List.forall₂_eq_eq_eq, List.forall₂_map_left_iff, List.forall₂_map_right_iff]
    exact htokens.imp fun _ _ h => h.position
  have hstarts : spans.Pairwise fun s s' => s.start < s'.start :=
    hspans.apart.imp_of_mem fun hs _ h => Nat.lt_of_lt_of_le (hspans.pieces _ hs).start_lt_stop h
  rw [← List.pairwise_map (f := Token.position) (R := (· < ·)), hpositions, List.pairwise_map]
  exact hstarts

/-- The tokens of a text stand, in order, for pieces of it that do not overlap and that
    together are all its characters but the blanks. -/
theorem Registry.tokenize_covers (r : Registry) (text : String) :
    ∃ spans : List (Span text.toList),
      List.Forall₂ Token.StandsFor (r.tokenize text) spans
      ∧ spans.Pairwise (fun s s' => s.stop ≤ s'.start)
      ∧ (∀ i c, text.toList[i]? = some c → (Text.isBlank c = false ↔ ∃ s ∈ spans, s.Covers i))
      ∧ (r.tokenize text).Pairwise fun t t' => t.position < t'.position := by
  obtain ⟨spans, hlexemes, hspans⟩ :=
    lexemes_tile List.length_nil (List.nil_append text.toList) (.inl rfl)
  have htokens : List.Forall₂ Token.StandsFor (r.tokenize text) spans := by
    rw [Registry.tokenize, hlexemes]
    exact tokensAfter_standFor hspans.pieces none
  exact ⟨spans, htokens, hspans.apart, fun i c => hspans.covers i c (Nat.zero_le i),
    positions_increase htokens hspans⟩

end

end Verdict.Expression
