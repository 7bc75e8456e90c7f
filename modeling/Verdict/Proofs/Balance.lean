/-
  Verdict.Proofs.Balance — the height of the stack to which tokens lead.

  Run in postfix order, a token changes the height of the stack by its `gain`, whatever
  the stack holds. A beginning of an expression leads to a height of one behind an operand
  and of zero where one may begin. While no operand begins right behind another, any
  tokens lead at most as high, and as high only if they are such a beginning (`Abreast`).
-/

import Verdict.Proofs.Nesting
import Verdict.Proofs.ShuntingYard

namespace Verdict.Expression

open Registry (standard)

/-! ## Tokens of the standard language -/

namespace Token

/-- Whether the token is an operator of the language. -/
def IsBuiltin (t : Token) : Prop := t.kind = .operator ∧ ∃ b : Builtin, t.text = b.key

/-- By how much the token changes the height of the stack. -/
def gain (t : Token) : Int :=
  match t.kind with
  | .operand => 1
  | .operator => 1 - ((standard.operator? t.text).map OperatorSpec.arity).getD 1
  | .function => 1 - t.arguments
  | .opening | .comma | .closing => 0

end Token

/-- Tokens as they are read: operators are the language's own, and the name of a call
    stands in front of an open parenthesis. -/
inductive Lexed : List Token → Prop
  | nil : Lexed []
  | operand {t : Token} {ts : List Token} : t.kind = .operand → Lexed ts → Lexed (t :: ts)
  | operator {t : Token} {ts : List Token} : t.IsBuiltin → Lexed ts → Lexed (t :: ts)
  | opening {t : Token} {ts : List Token} : t.kind = .opening → Lexed ts → Lexed (t :: ts)
  | comma {t : Token} {ts : List Token} : t.kind = .comma → Lexed ts → Lexed (t :: ts)
  | closing {t : Token} {ts : List Token} : t.kind = .closing → Lexed ts → Lexed (t :: ts)
  | call {name opening : Token} {ts : List Token} :
      name.kind = .function → name.arguments = 0 → opening.kind = .opening → Lexed ts →
      Lexed (name :: opening :: ts)

section

variable {t : Token}

theorem gain_operand (ht : t.kind = .operand) : t.gain = 1 := by rw [Token.gain, ht]

theorem gain_function (ht : t.kind = .function) : t.gain = 1 - t.arguments := by rw [Token.gain, ht]

/-- The name of a call as long as its arguments are not counted. -/
theorem gain_uncounted (ht : t.kind = .function) (harguments : t.arguments = 0) : t.gain = 1 := by
  rw [gain_function ht, harguments]
  rfl

theorem gain_opening (ht : t.kind = .opening) : t.gain = 0 := by rw [Token.gain, ht]

theorem gain_builtin {b : Builtin} (ht : t.kind = .operator) (htext : t.text = b.key) :
    t.gain = 1 - b.arity := by
  rw [Token.gain, ht, htext, Registry.standard_intact.builtin b]
  rfl

theorem Builtin.arity_connective {b : Builtin} (hb : b ∈ connectives) : b.arity = 2 := by
  have hall : ∀ b ∈ connectives, b.arity = 2 := by decide
  exact hall b hb

theorem Builtin.arity_other {b : Builtin} (hb : b ≠ .not) (hconnective : b ∉ connectives) : b.arity = 3 := by
  have hall : ∀ b ∈ all, b ≠ .not → b ∉ connectives → b.arity = 3 := by decide
  exact hall b (by cases b <;> decide) hb hconnective

/-- By how much the tokens change it together. -/
def gains (ts : List Token) : Int := (ts.map Token.gain).sum

@[simp] theorem gains_nil : gains [] = 0 := rfl

@[simp] theorem gains_cons (t : Token) (ts : List Token) : gains (t :: ts) = t.gain + gains ts := by
  simp [gains]

@[simp] theorem gains_append (ts us : List Token) : gains (ts ++ us) = gains ts + gains us := by
  simp [gains]

end

theorem Legible.lexed {ts : List Token} (h : Legible standard ts) (huncounted : ∀ t ∈ ts, t.arguments = 0) :
    Lexed ts := by
  induction h with
  | nil => exact .nil
  | @cons t ts hfunction hknown _ ih =>
    obtain ⟨-, hts⟩ := List.forall_mem_cons.1 huncounted
    cases ht : t.kind with
    | operand => exact .operand ht (ih hts)
    | operator => exact .operator ⟨ht, Registry.exists_builtin_of_standard (hknown ht)⟩ (ih hts)
    | function => exact absurd ht hfunction
    | opening => exact .opening ht (ih hts)
    | comma => exact .comma ht (ih hts)
    | closing => exact .closing ht (ih hts)
  | call hname hopening _ ih =>
    obtain ⟨hname', hrest⟩ := List.forall_mem_cons.1 huncounted
    exact .call hname hname' hopening (ih (List.forall_mem_cons.1 hrest).2)

theorem lexed_tokenize (text : String) : Lexed (standard.tokenize text) :=
  (legible_tokenize .standard text).lexed (uncounted_tokenize text)

/-! ## Beginnings of expressions and their balance -/

/-- The height to which an expression leads up to a token of kind `previous`, within its
    innermost parenthesis. -/
def level (previous : Option TokenKind) : Int := if operandMayBegin previous then 0 else 1

/-- Whether the height is at most that of a beginning, and that only of one. -/
def Abreast (height : Int) (within : List Bracket) (previous : Option TokenKind) (ts : List Token) : Prop :=
  height ≤ level previous ∧ (height = level previous → Progress within previous ts)

namespace Abreast

variable {height height' : Int} {within within' : List Bracket} {previous previous' : Option TokenKind}
  {ts ts' : List Token}

/-- On from where an operand may begin. -/
theorem after_awaited (h : Abreast height within previous ts) (hprevious : operandMayBegin previous = true)
    (hheight : height' = height + level previous')
    (hnext : Awaits within ts → Progress within' previous' ts') : Abreast height' within' previous' ts' := by
  have hlevel : level previous = 0 := if_pos hprevious
  obtain ⟨hle, hprogress⟩ := h
  refine ⟨by omega, fun heq => hnext ?_⟩
  exact (hprogress (by omega)).awaits hprevious

/-- On from an open parenthesis. -/
theorem after_opened (h : Abreast height within (some .opening) ts) (hheight : height' = height + level previous')
    (hnext : Opened within ts → Progress within' previous' ts') : Abreast height' within' previous' ts' := by
  have hlevel : level (some .opening) = 0 := rfl
  obtain ⟨hle, hprogress⟩ := h
  refine ⟨by omega, fun heq => hnext ?_⟩
  exact (hprogress (by omega)).opened rfl

/-- On from where an operand ends; where none does, the height falls behind. -/
theorem after_completed (h : Abreast height within previous ts)
    (hheight : height' = height - 1 + level previous')
    (hnext : Completes within ts → Progress within' previous' ts') : Abreast height' within' previous' ts' := by
  obtain ⟨hle, hprogress⟩ := h
  by_cases hprevious : operandMayBegin previous = true
  · have hlevel : level previous = 0 := if_pos hprevious
    exact ⟨by omega, fun heq => by omega⟩
  · have hlevel : level previous = 1 := if_neg hprevious
    refine ⟨by omega, fun heq => hnext ?_⟩
    exact (hprogress (by omega)).completes (Bool.eq_false_iff.2 hprevious)

theorem behind (h : Abreast height within previous ts) (hheight : height' < height - 1 + level previous') :
    Abreast height' within' previous' ts' := by
  have hlevel : level previous ≤ 1 := by unfold level; split_ifs <;> omega
  obtain ⟨hle, -⟩ := h
  exact ⟨by omega, fun heq => by omega⟩

end Abreast

theorem Separated.before {ts : List Token} {t : Token} (h : Separated (ts ++ [t])) :
    Separated ts ∧ (t.BeginsOperand → operandMayBegin (ts.getLast?.map Token.kind) = true) := by
  obtain ⟨hts, -, hlast⟩ := List.isChain_append.1 h
  refine ⟨hts, fun ht => ?_⟩
  cases hlook : ts.getLast? with
  | none => rfl
  | some u =>
    by_contra hends
    exact hlast u hlook t rfl ⟨Bool.eq_false_iff.2 hends, ht⟩

end Verdict.Expression
