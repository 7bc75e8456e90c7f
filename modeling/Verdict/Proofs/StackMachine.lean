/-
  Verdict.Proofs.StackMachine — what postfix tokens compute.

  `Yields code states`: on every stack, running the tokens leaves terms that resolve to
  the states, in their order, on top of what was there. Code is put together as trees are:
  one piece after the other yields the states of both, and a token for an operator or a
  call behind the code of its operands yields what the operator makes of them.
-/

import Verdict.Proofs.Names
import Verdict.Proofs.Results
import Verdict.Proofs.Votes

namespace Verdict.Expression

/-! ## Operators and handlers -/

theorem Builtin.choose_eq_value {states : List State} (h : states.length = 3) :
    choose states = conditional.value states := by
  match states with
  | [.yes, _, _] => rfl
  | [.no, _, _] => rfl
  | [.unknown, s, t] => cases s <;> cases t <;> rfl

/-- An operator of the language makes of its operands what the grammar says. -/
theorem Builtin.apply_eq_value {b : Builtin} {states : List State}
    (h : (states.length : Int) = b.arity ∨ b ∈ [majority, consensus]) : b.apply states = b.value states := by
  cases b with
  | not =>
    match states, h with
    | [s], _ => rfl
  | and =>
    match states, h with
    | [s, t], _ => cases s <;> cases t <;> rfl
  | or =>
    match states, h with
    | [s, t], _ => cases s <;> cases t <;> rfl
  | xor => exact Vote.lead_eq_sign states
  | majority => exact Vote.consensus_eq_sum states
  | consensus => exact Vote.consensus_eq_sum states
  | conditional =>
    have hthree : (states.length : Int) = 3 := h.resolve_right (by decide)
    exact choose_eq_value (by omega)

theorem Handler.Reliable.result_apply {handler : Handler} (h : handler.Reliable) (states : List State) :
    (handler.apply states).result = .ok (handler.answer states) := by
  obtain ⟨v, s, hv, hs⟩ := h states
  have hanswer : handler.answer states = s := by
    simp only [Handler.answer, hv, hs]
    rfl
  rw [Handler.apply, Outcome.result_bind, hv, hanswer]
  exact hs

namespace Registry

variable {r : Registry}

theorem Reliable.operator (h : r.Reliable) {key : String} {spec : OperatorSpec} {handler : Handler}
    (hspec : r.operator? key = some spec) (hhandler : spec.action = .custom handler) :
    handler.Reliable := h.1 spec (List.mem_of_find?_eq_some hspec) handler hhandler

theorem Reliable.function (h : r.Reliable) {key : String} {handler : Handler}
    (hhandler : r.function? key = some handler) : handler.Reliable := by
  obtain ⟨before, after, hsplit, -⟩ := List.lookup_eq_some_iff.1 hhandler
  exact h.2 (key, handler) (by rw [hsplit]; simp)

theorem operator_of_operator? {key : String} {spec : OperatorSpec} (h : r.operator? key = some spec) :
    r.operator key = .ok spec := by
  rw [operator, h]

end Registry

/-! ## Operands -/

theorem Term.resolveAll_append {context : Value} {ts us : List Term} {ss rest : List State}
    (h : resolveAll context ts = .ok ss) (h' : resolveAll context us = .ok rest) :
    resolveAll context (ts ++ us) = .ok (ss ++ rest) := by
  induction ts generalizing ss with
  | nil => cases h; exact h'
  | cons t ts ih =>
    simp only [resolveAll, bind_eq_ok] at h
    obtain ⟨s, hs, tail, htail, heq⟩ := h
    cases heq
    rw [List.cons_append, resolveAll, hs, ok_bind, ih htail]
    rfl

theorem Term.length_resolveAll {context : Value} {ts : List Term} {ss : List State}
    (h : resolveAll context ts = .ok ss) : ts.length = ss.length := by
  induction ts generalizing ss with
  | nil => cases h; rfl
  | cons t ts ih =>
    simp only [resolveAll, bind_eq_ok] at h
    obtain ⟨s, -, tail, htail, heq⟩ := h
    cases heq
    rw [List.length_cons, List.length_cons, ih htail]

/-- Operands that were put on the stack come back in their order. -/
theorem popOperands_pushed (expression : String) (t : Token) {n : Int} {ts : List Term}
    (hn : n = ts.length) (stack : List Term) :
    popOperands expression t n (ts.reverse ++ stack) = .ok (ts, stack) := by
  have hlen : ts.reverse.length = n.toNat := by rw [List.length_reverse, hn]; rfl
  have henough : ¬((ts.reverse ++ stack).length : Int) < n := by
    rw [List.length_append, List.length_reverse, hn]
    omega
  rw [popOperands, if_neg henough, ← hlen, List.take_left, List.drop_left, List.reverse_reverse]

theorem resolveWord_path {context : Value} {word : String} (hword : IsWord word.toList)
    (hliteral : literal? word = none) (hoffers : Offers context word) :
    resolveWord context word = .ok (stateAt context word) := by
  rw [resolveWord, hliteral, stateAt]
  simp only []
  rw [fetch, String.ofList_toList]
  · cases hv : context.resolve? word with
    | none => rfl
    | some v =>
      obtain ⟨s, hs⟩ := hoffers v hv
      simp only [hs]
      rfl
  · exact hword.not_inverted

/-! ## Runs -/

section

variable (r : Registry) (expression : String) (context : Value)

def Yields (code : List Token) (states : List State) : Prop :=
  ∃ terms, Term.resolveAll context terms = .ok states ∧
    ∀ stack, code.foldlM (fun s t => (r.step expression context s t).result) stack =
      .ok (terms.reverse ++ stack)

end

variable {r : Registry} {expression : String} {context : Value}

theorem Yields.append {code code' : List Token} {ss rest : List State}
    (h : Yields r expression context code ss) (h' : Yields r expression context code' rest) :
    Yields r expression context (code ++ code') (ss ++ rest) := by
  obtain ⟨ts, hts, hrun⟩ := h
  obtain ⟨us, hus, hrun'⟩ := h'
  refine ⟨ts ++ us, Term.resolveAll_append hts hus, fun stack => ?_⟩
  rw [List.foldlM_append, hrun, ok_bind, hrun', List.reverse_append, List.append_assoc]

theorem Yields.operand {t : Token} {s : State} (hkind : t.kind = .operand)
    (hs : resolveWord context t.text = .ok s) : Yields r expression context [t] [s] := by
  refine ⟨[.word t.text], ?_, fun stack => ?_⟩
  · rw [Term.resolveAll, Term.resolve, hs]
    rfl
  · rw [List.foldlM_cons, Registry.step, hkind]
    rfl

/-- A token that takes its operands off the stack, behind the code for them. -/
theorem Yields.then {code : List Token} {states : List State} {t : Token} {s : State}
    (h : Yields r expression context code states)
    (hstep : ∀ terms, Term.resolveAll context terms = .ok states → ∀ stack,
      (r.step expression context (terms.reverse ++ stack) t).result = .ok (.state s :: stack)) :
    Yields r expression context (code ++ [t]) [s] := by
  obtain ⟨ts, hts, hrun⟩ := h
  refine ⟨[.state s], rfl, fun stack => ?_⟩
  rw [List.foldlM_append, hrun, ok_bind, List.foldlM_cons, hstep ts hts]
  rfl

theorem Yields.operator {code : List Token} {states : List State} {t : Token} {spec : OperatorSpec}
    {s : State} (h : Yields r expression context code states) (hkind : t.kind = .operator)
    (hspec : r.operator? t.text = some spec) (harity : spec.arity = states.length)
    (hs : (spec.action.apply states).result = .ok s) :
    Yields r expression context (code ++ [t]) [s] := by
  refine h.then fun terms hterms stack => ?_
  have hpop := popOperands_pushed expression t (harity.trans (by rw [Term.length_resolveAll hterms])) stack
  rw [Registry.step, hkind]
  simp only [Outcome.result_bind, Outcome.result_lift, Registry.operator_of_operator? hspec, ok_bind, hpop,
    hterms, hs, Outcome.result_pure]

theorem Yields.call {code : List Token} {states : List State} {t : Token} {s : State}
    (h : Yields r expression context code states) (hkind : t.kind = .function)
    (harguments : t.arguments = states.length)
    (hs : ∀ terms, Term.resolveAll context terms = .ok states → (r.call context t terms).result = .ok s) :
    Yields r expression context (code ++ [t]) [s] := by
  refine h.then fun terms hterms stack => ?_
  have hcount : (t.arguments : Int) = terms.length := by
    rw [harguments, Term.length_resolveAll hterms]
  rw [Registry.step, hkind]
  simp only [Outcome.result_bind, Outcome.result_lift, popOperands_pushed expression t hcount stack, ok_bind,
    hs terms hterms, Outcome.result_pure]

/-! ## Operations -/

/-- What stands between operands has two of them, and makes of them what the grammar
    says. -/
theorem Joins.spec (hr : r.Intact) (hreliable : r.Reliable) {op : Operation} {precedence : Int}
    (h : Joins r op precedence) :
    ∃ spec, r.operator? op.key = some spec ∧ spec.precedence = precedence ∧ spec.arity = 2 ∧
      ∀ s t, (spec.action.apply [s, t]).result = .ok (op.joined r [s, t]) := by
  cases op with
  | builtin b =>
    have hall : ∀ b ∈ [Builtin.or, .xor, .majority, .consensus], b.precedence = 1 ∧ b.arity = 2 := by
      decide
    have htable : b.precedence = precedence ∧ b.arity = 2 := by
      rcases h with ⟨rfl, rfl⟩ | ⟨hb, rfl⟩
      · exact ⟨rfl, rfl⟩
      · exact hall b hb
    refine ⟨b.spec, hr.builtin b, htable.1, htable.2, fun s t => ?_⟩
    exact congrArg Except.ok (Builtin.apply_eq_value (.inl htable.2.symm))
  | named key =>
    obtain ⟨-, handler, hspec⟩ := h
    refine ⟨_, hspec, rfl, rfl, fun s t => ?_⟩
    rw [Operation.joined, hspec]
    exact (hreliable.operator hspec rfl).result_apply [s, t]

theorem isCallableKey_other {key : String} (h : ∀ b : Builtin, key ∉ b.spellings) :
    isCallableKey key = false := by
  refine Bool.eq_false_iff.2 fun hany => ?_
  obtain ⟨b, -, hb⟩ := List.any_eq_true.1 hany
  simp only [Bool.and_eq_true, beq_iff_eq] at hb
  exact h b (hb.2 ▸ key_mem_spellings b)

theorem Takes.not_spelling (hr : r.Intact) {key : String} {count : Nat}
    (h : Takes r (.named key) count) (b : Builtin) : key ∉ b.spellings := by
  rcases h with hfunction | hfree
  · exact fun hb => hr.function key hfunction (.inl ⟨b, hb⟩)
  · exact fun hb => hfree (.inl ⟨b, hb⟩)

section

variable {t : Token} {terms : List Term} {states : List State}

theorem call_conditional (htext : t.text = Builtin.conditional.key) (hthree : states.length = 3)
    (hterms : Term.resolveAll context terms = .ok states) :
    (r.call context t terms).result = .ok (Builtin.conditional.value states) := by
  have hlen : ¬terms.length ≠ 3 := by
    rw [Term.length_resolveAll hterms, hthree]
    simp
  rw [Registry.call, if_pos htext]
  simp only [if_neg hlen, Outcome.result_bind, Outcome.result_lift, hterms, ok_bind, Outcome.result_pure,
    Builtin.choose_eq_value hthree]

theorem call_vote (hr : r.Intact) {b : Builtin} (hb : b ∈ [.majority, .consensus])
    (htext : t.text = b.key) (hterms : Term.resolveAll context terms = .ok states) :
    (r.call context t terms).result = .ok (b.value states) := by
  have hall : ∀ b ∈ [Builtin.majority, .consensus],
      b.key ≠ Builtin.conditional.key ∧ isCallableKey b.key = true := by decide
  obtain ⟨hkey, hcallable⟩ := hall b hb
  rw [Registry.call, htext, if_neg hkey, if_pos hcallable]
  simp only [Outcome.result_bind, Outcome.result_lift, Registry.operator_of_operator? (hr.builtin b), hterms,
    ok_bind]
  exact congrArg Except.ok (Builtin.apply_eq_value (.inr hb))

theorem call_named (hreliable : r.Reliable) {key : String} (hkey : ∀ b : Builtin, key ∉ b.spellings)
    (htext : t.text = key) (hterms : Term.resolveAll context terms = .ok states) :
    (r.call context t terms).result = .ok (Operation.called r (.named key) states) := by
  have hne : key ≠ Builtin.conditional.key := fun heq =>
    hkey .conditional (heq ▸ key_mem_spellings .conditional)
  rw [Registry.call, htext, if_neg hne, isCallableKey_other hkey, if_neg Bool.false_ne_true,
    Operation.called]
  cases hfunction : r.function? key with
  | none => rfl
  | some handler =>
    simp only [Outcome.result_bind, Outcome.result_lift, hterms, ok_bind]
    exact (hreliable.function hfunction).result_apply states

/-- A call makes of its arguments what the grammar says. -/
theorem call_result (hr : r.Intact) (hreliable : r.Reliable) {op : Operation}
    (htakes : Takes r op states.length) (htext : t.text = op.key)
    (hterms : Term.resolveAll context terms = .ok states) :
    (r.call context t terms).result = .ok (op.called r states) := by
  cases op with
  | builtin b =>
    rcases htakes with ⟨rfl, hthree⟩ | hb
    · exact call_conditional htext hthree hterms
    · exact call_vote hr hb htext hterms
  | named key => exact call_named hreliable (htakes.not_spelling hr) htext hterms

end

end Verdict.Expression
