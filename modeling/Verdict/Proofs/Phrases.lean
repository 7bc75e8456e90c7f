/-
  Verdict.Proofs.Phrases — which sequences of tokens are expressions.

  `Phrase part tokens` is the grammar: binary operators between unary expressions, `NOT`
  in front of an atom, and an atom a word, a group or a call. Read from left to right, a
  beginning of a phrase lies within the parentheses that are still open and either awaits
  an operand there (`Awaits`) or could end (`Completes`); each token that may stand in its
  place takes the one to the other (`Awaits.operand`, `Completes.connective`, …).

  In a phrase no operand begins right behind the end of another, and parentheses do not
  stand alone (`Phrase.fluent`).
-/

import Verdict.Expression.Token
import Mathlib.Data.List.Chain

namespace Verdict.Expression

/-! ## The grammar -/

/-- The operators of the language that stand between two operands. -/
def Builtin.connectives : List Builtin := [and, or, xor, majority, consensus]

namespace Token

def IsConnective (t : Token) : Prop := t.kind = .operator ∧ ∃ b ∈ Builtin.connectives, t.text = b.key

def IsNegation (t : Token) : Prop := t.kind = .operator ∧ t.text = Builtin.not.key

instance (t : Token) : Decidable t.IsConnective :=
  inferInstanceAs (Decidable (t.kind = .operator ∧ ∃ b ∈ Builtin.connectives, t.text = b.key))

instance (t : Token) : Decidable t.IsNegation :=
  inferInstanceAs (Decidable (t.kind = .operator ∧ t.text = Builtin.not.key))

end Token

inductive Part
  | expression | unary | atom
  /-- One or more expressions, with a comma between each two. -/
  | arguments
  deriving DecidableEq, Repr

inductive Phrase : Part → List Token → Prop
  | unary {ts : List Token} : Phrase .unary ts → Phrase .expression ts
  | connect {t : Token} {lefts rights : List Token} :
      Phrase .expression lefts → t.IsConnective → Phrase .expression rights →
      Phrase .expression (lefts ++ t :: rights)
  | atom {ts : List Token} : Phrase .atom ts → Phrase .unary ts
  | not {t : Token} {ts : List Token} : t.IsNegation → Phrase .unary ts → Phrase .unary (t :: ts)
  | word {t : Token} : t.kind = .operand → Phrase .atom [t]
  | group {opening closing : Token} {ts : List Token} :
      opening.kind = .opening → closing.kind = .closing → Phrase .expression ts →
      Phrase .atom (opening :: ts ++ [closing])
  | bare {name opening closing : Token} :
      name.kind = .function → opening.kind = .opening → closing.kind = .closing →
      Phrase .atom [name, opening, closing]
  | call {name opening closing : Token} {ts : List Token} :
      name.kind = .function → opening.kind = .opening → closing.kind = .closing →
      Phrase .arguments ts → Phrase .atom (name :: opening :: ts ++ [closing])
  | argument {ts : List Token} : Phrase .expression ts → Phrase .arguments ts
  | next {comma : Token} {firsts ts : List Token} :
      Phrase .arguments firsts → comma.kind = .comma → Phrase .expression ts →
      Phrase .arguments (firsts ++ comma :: ts)

/-- Whether the tokens are those of an expression, or none at all. -/
def WellFormed (tokens : List Token) : Prop := tokens = [] ∨ Phrase .expression tokens

/-! ## Beginnings of phrases -/

/-- What an open parenthesis belongs to. -/
inductive Bracket
  | group | call
  deriving DecidableEq, Repr

/-- What stands within the innermost of the open parentheses. -/
def partWithin : List Bracket → Part
  | .call :: _ => .arguments
  | _ => .expression

/-- Whether the tokens with a unary expression behind them are a phrase. -/
def Lacks (part : Part) (ts : List Token) : Prop := ∀ us, Phrase .unary us → Phrase part (ts ++ us)

/-- What stands in front of the innermost open parenthesis, and the parenthesis. -/
inductive Opened : List Bracket → List Token → Prop
  | start : Opened [] []
  | group {within : List Bracket} {outer inner : List Token} {opening : Token} :
      Opened within outer → Lacks (partWithin within) inner → opening.kind = .opening →
      Opened (.group :: within) (outer ++ inner ++ [opening])
  | call {within : List Bracket} {outer inner : List Token} {name opening : Token} :
      Opened within outer → Lacks (partWithin within) inner → name.kind = .function →
      opening.kind = .opening → Opened (.call :: within) (outer ++ inner ++ [name, opening])

def Awaits (within : List Bracket) (ts : List Token) : Prop :=
  ∃ outer inner, ts = outer ++ inner ∧ Opened within outer ∧ Lacks (partWithin within) inner

def Completes (within : List Bracket) (ts : List Token) : Prop :=
  ∃ outer inner, ts = outer ++ inner ∧ Opened within outer ∧ Phrase (partWithin within) inner

/-- Where a beginning stands whose last token is of kind `previous`. -/
def Progress (within : List Bracket) (previous : Option TokenKind) (ts : List Token) : Prop :=
  if operandMayBegin previous = false then Completes within ts
  else if previous = some .opening then Opened within ts
  else Awaits within ts

variable {within : List Bracket} {ts : List Token} {t : Token}

theorem lacks_nil (part : Part) (h : part = .expression ∨ part = .arguments) : Lacks part [] := by
  intro us hus
  rcases h with rfl | rfl
  · exact .unary hus
  · exact .argument (.unary hus)

theorem partWithin_cases (within : List Bracket) :
    partWithin within = .expression ∨ partWithin within = .arguments := by
  match within with
  | [] => exact .inl rfl
  | .group :: _ => exact .inl rfl
  | .call :: _ => exact .inr rfl

theorem Opened.awaits (h : Opened within ts) : Awaits within ts :=
  ⟨ts, [], (List.append_nil ts).symm, h, lacks_nil _ (partWithin_cases within)⟩

namespace Awaits

variable (h : Awaits within ts)

include h

theorem atom {us : List Token} (hus : Phrase .atom us) : Completes within (ts ++ us) := by
  obtain ⟨outer, inner, rfl, houter, hinner⟩ := h
  exact ⟨outer, inner ++ us, List.append_assoc .., houter, hinner us (.atom hus)⟩

theorem operand (ht : t.kind = .operand) : Completes within (ts ++ [t]) := h.atom (.word ht)

theorem negation (ht : t.IsNegation) : Awaits within (ts ++ [t]) := by
  obtain ⟨outer, inner, rfl, houter, hinner⟩ := h
  refine ⟨outer, inner ++ [t], List.append_assoc .., houter, fun us hus => ?_⟩
  rw [List.append_assoc]
  exact hinner (t :: us) (.not ht hus)

theorem opening (ht : t.kind = .opening) : Opened (.group :: within) (ts ++ [t]) := by
  obtain ⟨outer, inner, rfl, houter, hinner⟩ := h
  exact .group houter hinner ht

theorem call {name : Token} (hname : name.kind = .function) (ht : t.kind = .opening) :
    Opened (.call :: within) (ts ++ [name, t]) := by
  obtain ⟨outer, inner, rfl, houter, hinner⟩ := h
  exact .call houter hinner hname ht

end Awaits

/-- The last argument of a call goes on as an expression does. -/
theorem Phrase.lacks_connective {part : Part} (hpart : part = .expression ∨ part = .arguments)
    (h : Phrase part ts) (ht : t.IsConnective) : Lacks part (ts ++ [t]) := by
  intro us hus
  rw [List.append_assoc]
  rcases hpart with rfl | rfl
  · exact .connect h ht (.unary hus)
  · cases h with
    | argument h => exact .argument (.connect h ht (.unary hus))
    | next hfirsts hcomma h =>
      rw [List.append_assoc]
      exact .next hfirsts hcomma (.connect h ht (.unary hus))

namespace Completes

theorem connective (h : Completes within ts) (ht : t.IsConnective) : Awaits within (ts ++ [t]) := by
  obtain ⟨outer, inner, rfl, houter, hinner⟩ := h
  exact ⟨outer, inner ++ [t], List.append_assoc .., houter,
    hinner.lacks_connective (partWithin_cases within) ht⟩

theorem comma (h : Completes (.call :: within) ts) (ht : t.kind = .comma) :
    Awaits (.call :: within) (ts ++ [t]) := by
  obtain ⟨outer, inner, rfl, houter, hinner⟩ := h
  refine ⟨outer, inner ++ [t], List.append_assoc .., houter, fun us hus => ?_⟩
  rw [List.append_assoc]
  exact .next hinner ht (.unary hus)

/-- A closing parenthesis makes an atom of what stands within. -/
theorem closing {bracket : Bracket} (h : Completes (bracket :: within) ts) (ht : t.kind = .closing) :
    Completes within (ts ++ [t]) := by
  obtain ⟨outer, inner, rfl, houter, hinner⟩ := h
  cases houter with
  | @group _ front before opening hfront hbefore hopening =>
    have hatom : Phrase .atom (opening :: inner ++ [t]) := .group hopening ht hinner
    simpa only [List.append_assoc, List.cons_append, List.nil_append] using
      Awaits.atom ⟨front, before, rfl, hfront, hbefore⟩ hatom
  | @call _ front before name opening hfront hbefore hname hopening =>
    have hatom : Phrase .atom (name :: opening :: inner ++ [t]) := .call hname hopening ht hinner
    simpa only [List.append_assoc, List.cons_append, List.nil_append] using
      Awaits.atom ⟨front, before, rfl, hfront, hbefore⟩ hatom

theorem wellFormed (h : Completes [] ts) : WellFormed ts := by
  obtain ⟨outer, inner, rfl, houter, hinner⟩ := h
  cases houter
  exact .inr hinner

end Completes

/-- A call needs no arguments. -/
theorem Opened.closing (h : Opened (.call :: within) ts) (ht : t.kind = .closing) :
    Completes within (ts ++ [t]) := by
  cases h with
  | @call _ front before name opening hfront hbefore hname hopening =>
    simpa only [List.append_assoc, List.cons_append, List.nil_append] using
      Awaits.atom ⟨front, before, rfl, hfront, hbefore⟩ (.bare hname hopening ht)

namespace Progress

variable {previous : Option TokenKind} (h : Progress within previous ts)

include h

theorem completes (hprevious : operandMayBegin previous = false) : Completes within ts := by
  rwa [Progress, if_pos hprevious] at h

theorem opened (hprevious : previous = some .opening) : Opened within ts := by
  subst hprevious
  exact h

theorem awaits (hprevious : operandMayBegin previous = true) : Awaits within ts := by
  have hbegins : ¬operandMayBegin previous = false := by rw [hprevious]; decide
  rw [Progress, if_neg hbegins] at h
  by_cases hopening : previous = some .opening
  · rw [if_pos hopening] at h
    exact h.awaits
  · rwa [if_neg hopening] at h

end Progress

/-! ## Phrases are fluent -/

/-- Whether an operand begins with the token. -/
def Token.BeginsOperand (t : Token) : Prop :=
  t.kind ∈ [TokenKind.operand, .function, .opening] ∨ t.IsNegation

/-- Whether an operand begins with the second token where one ends with the first. -/
def Juxtaposed (t u : Token) : Prop := operandMayBegin (some t.kind) = false ∧ u.BeginsOperand

def Separated (tokens : List Token) : Prop := tokens.IsChain fun t u => ¬Juxtaposed t u

def Token.IsParenthesis (t : Token) : Prop := t.kind = .opening ∨ t.kind = .closing

/-- Whether no operand begins right behind the end of another, and there are not
    parentheses alone. -/
def Fluent (tokens : List Token) : Prop :=
  Separated tokens ∧ (tokens = [] ∨ ∃ t ∈ tokens, ¬t.IsParenthesis)

instance (t : Token) : Decidable t.BeginsOperand :=
  inferInstanceAs (Decidable (t.kind ∈ [TokenKind.operand, .function, .opening] ∨ t.IsNegation))

instance (t u : Token) : Decidable (Juxtaposed t u) :=
  inferInstanceAs (Decidable (operandMayBegin (some t.kind) = false ∧ u.BeginsOperand))

instance (t : Token) : Decidable t.IsParenthesis :=
  inferInstanceAs (Decidable (t.kind = .opening ∨ t.kind = .closing))

instance (tokens : List Token) : Decidable (Separated tokens) :=
  inferInstanceAs (Decidable (tokens.IsChain fun t u => ¬Juxtaposed t u))

instance (tokens : List Token) : Decidable (Fluent tokens) :=
  inferInstanceAs (Decidable (Separated tokens ∧ (tokens = [] ∨ ∃ t ∈ tokens, ¬t.IsParenthesis)))

theorem Token.IsConnective.not_begins (h : t.IsConnective) : ¬t.BeginsOperand := by
  obtain ⟨hkind, b, hb, htext⟩ := h
  have hkeys : ∀ b ∈ Builtin.connectives, b.key ≠ Builtin.not.key := by decide
  rintro (hmem | ⟨-, hnot⟩)
  · rw [hkind] at hmem
    exact absurd hmem (by decide)
  · exact hkeys b hb (htext.symm.trans hnot)

theorem Token.not_begins_of_kind (h : t.kind = .closing ∨ t.kind = .comma) : ¬t.BeginsOperand := by
  rintro (hmem | ⟨hkind, -⟩)
  · rcases h with h | h <;> rw [h] at hmem <;> exact absurd hmem (by decide)
  · rcases h with h | h <;> rw [h] at hkind <;> cases hkind

namespace Separated

variable {us : List Token}

/-- In front of the tokens stands one behind which an operand may begin. -/
theorem cons (ht : operandMayBegin (some t.kind) = true) (h : Separated ts) : Separated (t :: ts) := by
  refine List.isChain_cons.2 ⟨fun u _ hjuxtaposed => ?_, h⟩
  have hends : operandMayBegin (some t.kind) = false := hjuxtaposed.1
  rw [ht] at hends
  cases hends

theorem append (h : Separated ts) (h' : Separated us) (hus : ∀ u ∈ us.head?, ¬u.BeginsOperand) :
    Separated (ts ++ us) :=
  List.isChain_append.2 ⟨h, h', fun _ _ u hu hjuxtaposed => hus u hu hjuxtaposed.2⟩

theorem singleton (t : Token) : Separated [t] := List.isChain_singleton t

end Separated

theorem Phrase.separated {part : Part} (h : Phrase part ts) : Separated ts := by
  have hbegins : ∀ {t : Token} {kind : TokenKind}, t.kind = kind → operandMayBegin (some kind) = true →
      operandMayBegin (some t.kind) = true := fun hkind hbegin => hkind ▸ hbegin
  induction h with
  | unary _ ih | atom _ ih | argument _ ih => exact ih
  | connect _ ht _ ihleft ihright =>
    refine ihleft.append (ihright.cons (hbegins ht.1 rfl)) fun u hu => ?_
    cases hu
    exact ht.not_begins
  | not ht _ ih => exact ih.cons (hbegins ht.1 rfl)
  | @word t _ => exact .singleton t
  | @group _ closing _ hopening hclosing _ ih =>
    refine (ih.append (.singleton closing) fun u hu => ?_).cons (hbegins hopening rfl)
    cases hu
    exact Token.not_begins_of_kind (.inl hclosing)
  | @bare _ _ closing hname hopening _ =>
    exact ((Separated.singleton closing).cons (hbegins hopening rfl)).cons (hbegins hname rfl)
  | @call _ _ closing _ hname hopening hclosing _ ih =>
    refine ((ih.append (.singleton closing) fun u hu => ?_).cons (hbegins hopening rfl)).cons
      (hbegins hname rfl)
    cases hu
    exact Token.not_begins_of_kind (.inl hclosing)
  | next _ hcomma _ ihfirsts ih =>
    refine ihfirsts.append (ih.cons (hbegins hcomma rfl)) fun u hu => ?_
    cases hu
    exact Token.not_begins_of_kind (.inr hcomma)

theorem Token.not_parenthesis_of_kind (h : t.kind = .operand ∨ t.kind = .function) : ¬t.IsParenthesis := by
  rcases h with h | h <;> simp only [IsParenthesis, h] <;> decide

theorem Phrase.exists_operand {part : Part} (h : Phrase part ts) : ∃ t ∈ ts, ¬t.IsParenthesis := by
  induction h with
  | unary _ ih | atom _ ih | argument _ ih => exact ih
  | connect _ _ _ ih _ | next _ _ _ ih _ =>
    obtain ⟨u, hu, hnot⟩ := ih
    exact ⟨u, List.mem_append_left _ hu, hnot⟩
  | not _ _ ih =>
    obtain ⟨u, hu, hnot⟩ := ih
    exact ⟨u, List.mem_cons_of_mem _ hu, hnot⟩
  | @word t ht => exact ⟨t, List.mem_singleton_self t, Token.not_parenthesis_of_kind (.inl ht)⟩
  | group _ _ _ ih =>
    obtain ⟨u, hu, hnot⟩ := ih
    exact ⟨u, List.mem_append_left _ (List.mem_cons_of_mem _ hu), hnot⟩
  | @bare name _ _ hname | @call name _ _ _ hname =>
    exact ⟨name, List.mem_cons_self, Token.not_parenthesis_of_kind (.inr hname)⟩

theorem WellFormed.fluent (h : WellFormed ts) : Fluent ts := by
  rcases h with rfl | h
  · exact ⟨List.IsChain.nil, .inl rfl⟩
  · exact ⟨h.separated, .inr h.exists_operand⟩

end Verdict.Expression
