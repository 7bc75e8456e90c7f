/-
  Verdict.Proofs.Acceptance — which texts the standard language accepts.

  A run of postfix tokens ends at the height that their gains add up to, and not below one
  term once a token has run (`run_ends`). Together with the balance of the conversion: a
  text that evaluates is an expression exactly when it is fluent, and a text that does not
  evaluate fails as malformed or for a value without a state (`Registry.standard_accepts`).
-/

import Verdict.Proofs.Conversion

namespace Verdict.Expression

open Registry (standard)

/-! ## Words and values -/

def IsUnsupported (e : Error) : Prop := e.family = .unsupportedValue

/-- Whether the expression is at fault, or a value in it that has no state. -/
def IsRefusal (e : Error) : Prop := e.family = .malformedExpression ∨ e.family = .unsupportedValue

theorem IsUnsupported.refusal {e : Error} (h : IsUnsupported e) : IsRefusal e := .inr h

section

variable {context : Value}

theorem toState_unsupported (v : Value) : FailsAs IsUnsupported v.toState := by
  cases v with
  | null | bool | int | state | trit => trivial
  | str s =>
    rw [Value.toState]
    split
    · trivial
    · rfl
  | operator o =>
    rw [Value.toState]
    split
    · trivial
    · rfl
  | _ => rfl

theorem fetch_unsupported (cs : List Char) : FailsAs IsUnsupported (fetch context cs) := by
  fun_induction fetch context cs with
  | case1 path ih => exact ih.bind fun _ _ => trivial
  | case2 path _ v _ => exact toState_unsupported v
  | case3 => trivial

theorem resolveWord_unsupported (word : String) : FailsAs IsUnsupported (resolveWord context word) := by
  unfold resolveWord
  cases literal? word with
  | some s => trivial
  | none => exact fetch_unsupported _

theorem toState_ends (v : Value) : FailsAs IsRefusal v.toState :=
  (toState_unsupported v).weaken fun _ => IsUnsupported.refusal

namespace Term

theorem resolve_unsupported (t : Term) : FailsAs IsUnsupported (t.resolve context) := by
  cases t with
  | word text => exact resolveWord_unsupported text
  | state s => trivial

theorem resolveAll_unsupported (ts : List Term) : FailsAs IsUnsupported (resolveAll context ts) := by
  induction ts with
  | nil => trivial
  | cons t ts ih => exact t.resolve_unsupported.bind fun _ _ => ih.bind fun _ _ => trivial

theorem resolve_ends (t : Term) : FailsAs IsRefusal (t.resolve context) :=
  t.resolve_unsupported.weaken fun _ => IsUnsupported.refusal

theorem resolveAll_ends (ts : List Term) : FailsAs IsRefusal (resolveAll context ts) :=
  (resolveAll_unsupported ts).weaken fun _ => IsUnsupported.refusal

end Term

end

/-! ## Runs -/

section

variable {expression : String} {context : Value} {t : Token} {stack : List Term}

theorem popOperands_ends {arity : Int} (harity : 0 ≤ arity) :
    Ends IsRefusal (fun operands => (operands.2.length : Int) = stack.length - arity)
      (popOperands expression t arity stack) := by
  unfold popOperands
  by_cases hless : (stack.length : Int) < arity
  · rw [if_pos hless]
    exact .inl rfl
  · rw [if_neg hless]
    show ((stack.drop arity.toNat).length : Int) = _
    rw [List.length_drop]
    omega

theorem isCallableKey_builtin {key : String} (h : isCallableKey key = true) : ∃ b : Builtin, key = b.key := by
  obtain ⟨b, -, hb⟩ := List.any_eq_true.1 h
  simp only [Bool.and_eq_true, beq_iff_eq] at hb
  exact ⟨b, hb.2.symm⟩

/-- Nothing is registered: a call is one of an operator of the language or undecided. -/
theorem call_ends (operands : List Term) :
    FailsAs IsRefusal (standard.call context t operands).result := by
  unfold Registry.call
  by_cases hconditional : t.text = Builtin.conditional.key
  · rw [if_pos hconditional]
    by_cases hthree : operands.length ≠ 3
    · rw [if_pos hthree]
      exact .inl rfl
    · rw [if_neg hthree]
      simp only [Outcome.result_bind, Outcome.result_lift]
      exact (Term.resolveAll_ends operands).bind fun _ _ => trivial
  rw [if_neg hconditional]
  by_cases hcallable : isCallableKey t.text = true
  · obtain ⟨b, htext⟩ := isCallableKey_builtin hcallable
    rw [if_pos hcallable, htext, Registry.operator_of_operator? (Registry.standard_intact.builtin b)]
    simp only [Outcome.result_bind, Outcome.result_lift, ok_bind]
    exact (Term.resolveAll_ends operands).bind fun _ _ => trivial
  · rw [if_neg hcallable]
    trivial

/-- A token changes the height by its gain and leaves a term behind. -/
theorem step_ends (ht : t.IsCode) :
    Ends IsRefusal (fun after => (after.length : Int) = stack.length + t.gain ∧ after ≠ [])
      (standard.step expression context stack t).result := by
  unfold Registry.step
  rcases ht with ht | ht | ⟨ht, b, htext⟩
  · rw [ht]
    refine ⟨?_, List.cons_ne_nil _ _⟩
    simp [gain_operand ht]
  · rw [ht]
    simp only [Outcome.result_bind, Outcome.result_lift, gain_function ht]
    refine (popOperands_ends (by omega)).bind fun operands hlength => ?_
    refine (call_ends operands.1).bind fun s _ => ⟨?_, List.cons_ne_nil _ _⟩
    simp [hlength]
    omega
  · have harity : 0 ≤ b.spec.arity := by cases b <;> decide
    rw [ht]
    simp only [Outcome.result_bind, Outcome.result_lift, htext,
      Registry.operator_of_operator? (Registry.standard_intact.builtin b), ok_bind, gain_builtin ht htext]
    refine (popOperands_ends harity).bind fun operands hlength => ?_
    refine (Term.resolveAll_ends operands.1).bind fun states _ => ⟨?_, List.cons_ne_nil _ _⟩
    simp [hlength, Builtin.spec]
    omega

theorem run_ends {code : List Token} (hcode : ∀ t ∈ code, t.IsCode) :
    Ends IsRefusal
      (fun after => (after.length : Int) = stack.length + gains code ∧ (stack ≠ [] ∨ code ≠ [] → after ≠ []))
      (code.foldlM (standard.step expression context) stack).result := by
  induction code generalizing stack with
  | nil => exact ⟨by simp, fun h => h.resolve_right (by simp)⟩
  | cons t code ih =>
    obtain ⟨ht, hcode⟩ := List.forall_mem_cons.1 hcode
    rw [List.foldlM_cons, Outcome.result_bind]
    refine (step_ends ht).bind fun next hnext => ?_
    refine (ih hcode).imp fun after hafter => ⟨?_, fun _ => hafter.2 (.inl hnext.2)⟩
    simp [hafter.1, hnext.1]
    omega

end

/-! ## Whole texts -/

theorem Code.wellFormed {tokens code : List Token} {stack : List Term} (h : Code tokens code)
    (hfluent : Fluent tokens) (hheight : (stack.length : Int) = gains code) (hne : code ≠ [] → stack ≠ [])
    (hone : stack.length ≤ 1) : WellFormed tokens := by
  obtain ⟨hseparated, rfl | hsome⟩ := hfluent
  · exact .inl rfl
  have hpos : 0 < stack.length := List.length_pos_iff.2 (hne (h.ne_nil hsome))
  obtain ⟨hle, hprogress⟩ := h.abreast hseparated
  -- the height is that of a whole expression, which only one ends at
  by_cases hbegins : operandMayBegin (tokens.getLast?.map Token.kind) = true
  · have hlevel : level (tokens.getLast?.map Token.kind) = 0 := if_pos hbegins
    omega
  · have hlevel : level (tokens.getLast?.map Token.kind) = 1 := if_neg hbegins
    exact ((hprogress (by omega)).completes (Bool.eq_false_iff.2 hbegins)).wellFormed

/-- What the standard language makes of a text: where it has a state, it is an expression
    exactly when it is fluent, and else it is refused. -/
theorem Registry.standard_accepts (text : String) (context : Value) :
    (∀ s, (standard.evaluate text context).result = .ok s →
      (WellFormed (standard.tokenize text) ↔ Fluent (standard.tokenize text))) ∧
    ∀ e, (standard.evaluate text context).result = .error e →
      e.family = .malformedExpression ∨ e.family = .unsupportedValue := by
  have hends : Ends IsRefusal
      (fun _ => Fluent (standard.tokenize text) → WellFormed (standard.tokenize text))
      (standard.evaluate text context).result := by
    rw [Registry.evaluate]
    simp only [Outcome.result_bind, Outcome.result_lift]
    refine ((toPostfix_ends (lexed_tokenize text)).weaken (fun _ h => .inl h)).bind
      fun code hcode => ?_
    refine (run_ends hcode.isCode).bind fun stack hstack => ?_
    obtain ⟨hheight, hne⟩ := hstack
    have hexpression : stack.length ≤ 1 → Fluent (standard.tokenize text) → WellFormed (standard.tokenize text) :=
      fun hone hfluent => hcode.wellFormed hfluent (by simpa using hheight) (fun h => hne (.inr h)) hone
    rcases stack with _ | ⟨t, _ | ⟨_, _⟩⟩
    · exact hexpression (by simp)
    · exact t.resolve_ends.imp fun _ _ => hexpression (by simp)
    · exact .inl rfl
  refine ⟨fun s hs => ⟨WellFormed.fluent, ?_⟩, fun e he => ?_⟩
  · rw [hs] at hends
    exact hends
  · rw [he] at hends
    exact hends

/-- A text that is an expression because it has a state and is fluent. -/
theorem Registry.standard_accepts_negation :
    let context : Value := .map [(.str "a", .bool true), (.str "b", .bool false)]
    let text := "a AND NOT b"
    (standard.evaluate text context).result = .ok .yes ∧ WellFormed (standard.tokenize text) := by
  intro context text
  have hlexemes : lexemes 0 text.toList = [⟨['a'], 0⟩, ⟨['A', 'N', 'D'], 2⟩, ⟨['N', 'O', 'T'], 6⟩, ⟨['b'], 10⟩] := by
    rw [show text.toList = ['a', ' ', 'A', 'N', 'D', ' ', 'N', 'O', 'T', ' ', 'b'] by decide]
    simp +decide [lexemes]
  have htokens : standard.tokenize text =
      [⟨.operand, "a", 0, 0⟩, ⟨.operator, "AND", 2, 0⟩, ⟨.operator, "NOT", 6, 0⟩, ⟨.operand, "b", 10, 0⟩] := by
    rw [Registry.tokenize, hlexemes]
    decide
  have hstate : (standard.evaluate text context).result = .ok .yes := by
    rw [Registry.evaluate, htokens]
    rfl
  have hfluent : Fluent (standard.tokenize text) := by
    rw [htokens]
    decide
  exact ⟨hstate, ((Registry.standard_accepts text context).1 .yes hstate).2 hfluent⟩

/-- An operator behind both of its operands has a state, and so have parentheses without
    anything within. -/
theorem Registry.standard_accepts_unwritten :
    let context : Value := .map [(.str "a", .bool true), (.str "b", .bool true)]
    ((standard.evaluate "a b AND" context).result = .ok .yes ∧ ¬WellFormed (standard.tokenize "a b AND")) ∧
      (standard.evaluate "()" context).result = .ok .unknown ∧ ¬WellFormed (standard.tokenize "()") := by
  intro context
  have hbehind : lexemes 0 "a b AND".toList = [⟨['a'], 0⟩, ⟨['b'], 2⟩, ⟨['A', 'N', 'D'], 4⟩] := by
    rw [show "a b AND".toList = ['a', ' ', 'b', ' ', 'A', 'N', 'D'] by decide]
    simp +decide [lexemes]
  have hempty : lexemes 0 "()".toList = [⟨['('], 0⟩, ⟨[')'], 1⟩] := by
    rw [show "()".toList = ['(', ')'] by decide]
    simp +decide [lexemes]
  have htokens : standard.tokenize "a b AND" =
      [⟨.operand, "a", 0, 0⟩, ⟨.operand, "b", 2, 0⟩, ⟨.operator, "AND", 4, 0⟩] := by
    rw [Registry.tokenize, hbehind]
    decide
  have htokens' : standard.tokenize "()" = [⟨.opening, "(", 0, 0⟩, ⟨.closing, ")", 1, 0⟩] := by
    rw [Registry.tokenize, hempty]
    decide
  simp only [Registry.evaluate, htokens, htokens']
  exact ⟨⟨rfl, fun h => absurd h.fluent (by decide)⟩, rfl, fun h => absurd h.fluent (by decide)⟩

end Verdict.Expression
