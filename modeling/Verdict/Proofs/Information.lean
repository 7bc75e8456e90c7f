/-
  Verdict.Proofs.Information — learning more never takes a verdict back.

  States are ordered by what is known: the undecided one lies below both others. The
  connectives of Kleene's logic keep that order (`Builtin.apply_below`), so two runs of the
  same postfix tokens, in contexts the second of which decides at least what the first
  does, keep stacks of terms that resolve in that order (`step_below`, `run_below`).
  Main statement: an expression of `NOT`, `AND` and `OR` that is decided in the first
  context has the same state in the second (`Registry.verdict_stands`).
-/

import Verdict.Proofs.Acceptance
import Verdict.Proofs.Words
import Mathlib.Data.List.Forall2

namespace Verdict

/-! ## The order of information -/

/-- Whether a state is undecided, or the other one. -/
def State.Below (s t : State) : Prop := s = .unknown ∨ s = t

instance (s t : State) : Decidable (s.Below t) := inferInstanceAs (Decidable (s = .unknown ∨ s = t))

namespace State.Below

variable {s t s' t' : State}

theorem refl (s : State) : s.Below s := .inr rfl

/-- A decided state lies below itself only. -/
theorem eq_of_decided (h : s.Below t) (hs : s ≠ .unknown) : t = s := (h.resolve_left hs).symm

theorem invert (h : s.Below t) : s.invert.Below t.invert := by
  rcases h with rfl | rfl
  · exact .inl rfl
  · exact refl _

theorem and (h : s.Below t) (h' : s'.Below t') : (s.and s').Below (t.and t') := by
  rcases h with rfl | rfl <;> rcases h' with rfl | rfl
  · exact .inl rfl
  · cases s' <;> cases t <;> decide
  · cases s <;> cases t' <;> decide
  · exact refl _

theorem or (h : s.Below t) (h' : s'.Below t') : (s.or s').Below (t.or t') := by
  rcases h with rfl | rfl <;> rcases h' with rfl | rfl
  · exact .inl rfl
  · cases s' <;> cases t <;> decide
  · cases s <;> cases t' <;> decide
  · exact refl _

end State.Below

namespace Vote

variable {states states' : List State}

theorem all_below (h : List.Forall₂ State.Below states states') : (all states).Below (all states') := by
  rw [all_eq_foldr, all_eq_foldr]
  induction h with
  | nil => exact .refl _
  | cons hs _ ih => exact hs.and ih

theorem any_below (h : List.Forall₂ State.Below states states') : (any states).Below (any states') := by
  rw [any_eq_foldr, any_eq_foldr]
  induction h with
  | nil => exact .refl _
  | cons hs _ ih => exact hs.or ih

end Vote

namespace Expression

open Registry (standard)

/-- The connectives of Kleene's logic. -/
def Builtin.kleene : List Builtin := [not, and, or]

/-- They keep the order of information, operand by operand. -/
theorem Builtin.apply_below {b : Builtin} (hb : b ∈ kleene) {states states' : List State}
    (h : List.Forall₂ State.Below states states') : (b.apply states).Below (b.apply states') := by
  have hcases : b = .not ∨ b = .and ∨ b = .or := by simpa [kleene] using hb
  rcases hcases with rfl | rfl | rfl
  · cases h with
    | nil => exact .refl _
    | cons hs _ => exact hs.invert
  · exact Vote.all_below h
  · exact Vote.any_below h

/-! ## Runs -/

/-- Whether the state that a term resolves to lies below that of another term in another
    context. -/
def Term.Below (context context' : Value) (t t' : Term) : Prop :=
  ∀ s s', t.resolve context = .ok s → t'.resolve context' = .ok s' → s.Below s'

section

variable {context context' : Value} {expression : String}

theorem Term.resolveAll_below {ts ts' : List Term} (h : List.Forall₂ (Term.Below context context') ts ts')
    {states states' : List State} (hts : Term.resolveAll context ts = .ok states)
    (hts' : Term.resolveAll context' ts' = .ok states') : List.Forall₂ State.Below states states' := by
  induction h generalizing states states' with
  | nil =>
    cases hts
    cases hts'
    exact .nil
  | cons hbelow _ ih =>
    simp only [Term.resolveAll, bind_eq_ok] at hts hts'
    obtain ⟨s, hs, rest, hrest, hstates⟩ := hts
    obtain ⟨s', hs', rest', hrest', hstates'⟩ := hts'
    cases hstates
    cases hstates'
    exact .cons (hbelow s s' hs hs') (ih hrest hrest')

theorem popOperands_below {stack stack' : List Term}
    (h : List.Forall₂ (Term.Below context context') stack stack') {t : Token} {arity : Int}
    {operands operands' : List Term × List Term} (hpop : popOperands expression t arity stack = .ok operands)
    (hpop' : popOperands expression t arity stack' = .ok operands') :
    List.Forall₂ (Term.Below context context') operands.1 operands'.1 ∧
      List.Forall₂ (Term.Below context context') operands.2 operands'.2 := by
  unfold popOperands at hpop hpop'
  split at hpop
  · cases hpop
  · split at hpop'
    · cases hpop'
    · cases hpop
      cases hpop'
      exact ⟨List.rel_reverse (List.forall₂_take _ h), List.forall₂_drop _ h⟩

/-- Whether the token is an operand or a connective of Kleene's logic, and no call. -/
def Token.IsKleene (t : Token) : Prop :=
  t.kind ≠ .function ∧ (t.kind = .operator → t.text ∈ Builtin.kleene.map Builtin.key)

instance (t : Token) : Decidable t.IsKleene :=
  inferInstanceAs (Decidable (t.kind ≠ .function ∧ (t.kind = .operator → t.text ∈ Builtin.kleene.map Builtin.key)))

/-- Whether a word that is decided in the first context has the same state in the second. -/
def Settled (context context' : Value) (word : String) : Prop :=
  ∀ s, s ≠ .unknown → resolveWord context word = .ok s → resolveWord context' word = .ok s

theorem Settled.below {word : String} (h : Settled context context' word) :
    (Term.word word).Below context context' (.word word) := by
  intro s s' hs hs'
  by_cases hunknown : s = .unknown
  · exact .inl hunknown
  · have hsame : resolveWord context' word = .ok s := h s hunknown hs
    exact .inr (Except.ok.inj (hsame.symm.trans hs'))

variable {stack stack' next next' : List Term} {t : Token}

/-- The terms that an operator of the language leaves on the stack. -/
theorem step_operator {b : Builtin} (ht : t.kind = .operator) (htext : t.text = b.key)
    (h : (standard.step expression context stack t).result = .ok next) :
    ∃ operands states, popOperands expression t b.arity stack = .ok operands ∧
      Term.resolveAll context operands.1 = .ok states ∧ next = .state (b.apply states) :: operands.2 := by
  rw [Registry.step, ht] at h
  simp only [Outcome.result_bind, Outcome.result_lift, htext,
    Registry.operator_of_operator? (Registry.standard_intact.builtin b), ok_bind] at h
  obtain ⟨operands, hpop, h⟩ := bind_eq_ok.1 h
  obtain ⟨states, hstates, h⟩ := bind_eq_ok.1 h
  exact ⟨operands, states, hpop, hstates, (Except.ok.inj h).symm⟩

/-- One token keeps the order of two stacks. -/
theorem step_below (hcode : t.IsCode) (hkleene : t.IsKleene)
    (hword : t.kind = .operand → Settled context context' t.text)
    (hstack : List.Forall₂ (Term.Below context context') stack stack')
    (h : (standard.step expression context stack t).result = .ok next)
    (h' : (standard.step expression context' stack' t).result = .ok next') :
    List.Forall₂ (Term.Below context context') next next' := by
  rcases hcode with ht | ht | ⟨ht, -⟩
  · rw [Registry.step, ht] at h h'
    cases h
    cases h'
    exact .cons (hword ht).below hstack
  · exact absurd ht hkleene.1
  · obtain ⟨b, hb, htext⟩ := List.mem_map.1 (hkleene.2 ht)
    obtain ⟨operands, states, hpop, hstates, rfl⟩ := step_operator ht htext.symm h
    obtain ⟨operands', states', hpop', hstates', rfl⟩ := step_operator ht htext.symm h'
    obtain ⟨habove, hbelow⟩ := popOperands_below hstack hpop hpop'
    refine .cons (fun s s' hs hs' => ?_) hbelow
    cases hs
    cases hs'
    exact Builtin.apply_below hb (Term.resolveAll_below habove hstates hstates')

/-- By induction on the tokens, with the order of the stacks as the invariant. -/
theorem run_below {code : List Token} (hcode : ∀ t ∈ code, t.IsCode ∧ t.IsKleene ∧
      (t.kind = .operand → Settled context context' t.text))
    (hstack : List.Forall₂ (Term.Below context context') stack stack')
    (h : (code.foldlM (standard.step expression context) stack).result = .ok next)
    (h' : (code.foldlM (standard.step expression context') stack').result = .ok next') :
    List.Forall₂ (Term.Below context context') next next' := by
  induction code generalizing stack stack' with
  | nil =>
    cases h
    cases h'
    exact hstack
  | cons t code ih =>
    obtain ⟨⟨ht, hkleene, hword⟩, hcode⟩ := List.forall_mem_cons.1 hcode
    rw [List.foldlM_cons] at h h'
    obtain ⟨middle, hstep, hrest⟩ := Outcome.result_bind_eq_ok.1 h
    obtain ⟨middle', hstep', hrest'⟩ := Outcome.result_bind_eq_ok.1 h'
    exact ih hcode (step_below ht hkleene hword hstack hstep hstep') hrest hrest'

theorem conclude_below {s s' : State} (hstack : List.Forall₂ (Term.Below context context') stack stack')
    (h : conclude expression context stack = .ok s) (h' : conclude expression context' stack' = .ok s') :
    s.Below s' := by
  cases hstack with
  | nil =>
    cases h
    exact .inl rfl
  | cons hbelow hrest =>
    cases hrest with
    | nil => exact hbelow s s' h h'
    | cons _ _ => cases h

/-- The state of an expression of connectives is only ever decided further. -/
theorem Registry.evaluate_below {text : String} {s s' : State}
    (hkleene : ∀ t ∈ standard.tokenize text, t.IsKleene)
    (hwords : ∀ t ∈ standard.tokenize text, t.kind = .operand → Settled context context' t.text)
    (h : (standard.evaluate text context).result = .ok s)
    (h' : (standard.evaluate text context').result = .ok s') : s.Below s' := by
  unfold Registry.evaluate at h h'
  simp only [Outcome.result_bind, Outcome.result_lift] at h h'
  obtain ⟨code, hcode, h⟩ := bind_eq_ok.1 h
  obtain ⟨code', hcode', h'⟩ := bind_eq_ok.1 h'
  obtain rfl : code = code' := Except.ok.inj (hcode.symm.trans hcode')
  obtain ⟨stack, hrun, hend⟩ := bind_eq_ok.1 h
  obtain ⟨stack', hrun', hend'⟩ := bind_eq_ok.1 h'
  have hisCode : ∀ t ∈ code, t.IsCode := by
    have hends := toPostfix_ends (lexed_tokenize text)
    rw [hcode] at hends
    exact hends.isCode
  have hknown : ∀ t ∈ code, t.IsKleene ∧ (t.kind = .operand → Settled context context' t.text) :=
    toPostfix_holds (fun _ _ ht => ht) (fun t ht => ⟨hkleene t ht, hwords t ht⟩) hcode
  exact conclude_below (run_below (fun t ht => ⟨hisCode t ht, hknown t ht⟩) .nil hrun hrun') hend hend'

end

/-- A verdict that an expression of `NOT`, `AND` and `OR` has reached stands, whatever else
    becomes known: if both contexts give it a state, and the second has the state of each
    word that the first decides, then the second has the verdict of the first. -/
theorem Registry.verdict_stands {text : String} {context context' : Value} {s s' : State}
    (hkleene : ∀ t ∈ standard.tokenize text, t.IsKleene)
    (hwords : ∀ t ∈ standard.tokenize text, t.kind = .operand → Settled context context' t.text)
    (h : (standard.evaluate text context).result = .ok s)
    (h' : (standard.evaluate text context').result = .ok s') (hs : s ≠ .unknown) : s' = s :=
  (evaluate_below hkleene hwords h h').eq_of_decided hs

/-- The second context decides `b` and contradicts nothing that the first decides. -/
theorem Registry.verdict_stands_disjunction :
    let text := "a OR b AND NOT c"
    let context : Value := .map [(.str "a", .bool true), (.str "c", .bool false)]
    let context' : Value := .map [(.str "a", .bool true), (.str "b", .bool false), (.str "c", .bool false)]
    (standard.evaluate text context).result = .ok .yes ∧ (standard.evaluate text context').result = .ok .yes := by
  intro text context context'
  have hlexemes : lexemes 0 text.toList = [⟨['a'], 0⟩, ⟨['O', 'R'], 2⟩, ⟨['b'], 5⟩, ⟨['A', 'N', 'D'], 7⟩,
      ⟨['N', 'O', 'T'], 11⟩, ⟨['c'], 15⟩] := by
    rw [show text.toList = ['a', ' ', 'O', 'R', ' ', 'b', ' ', 'A', 'N', 'D', ' ', 'N', 'O', 'T', ' ', 'c'] by decide]
    simp +decide [lexemes]
  have htokens : standard.tokenize text =
      [⟨.operand, "a", 0, 0⟩, ⟨.operator, "OR", 2, 0⟩, ⟨.operand, "b", 5, 0⟩, ⟨.operator, "AND", 7, 0⟩,
        ⟨.operator, "NOT", 11, 0⟩, ⟨.operand, "c", 15, 0⟩] := by
    rw [Registry.tokenize, hlexemes]
    decide
  have hkleene : ∀ t ∈ standard.tokenize text, t.IsKleene := by
    rw [htokens]
    decide
  have hnames : ∀ t ∈ standard.tokenize text, t.kind = .operand → t.text = "a" ∨ t.text = "b" ∨ t.text = "c" := by
    rw [htokens]
    decide
  have hwords : ∀ t ∈ standard.tokenize text, t.kind = .operand → Settled context context' t.text := by
    intro t ht hkind s hs hresolves
    have hunknown : resolveWord context "b" = .ok .unknown := rfl
    rcases hnames t ht hkind with hname | hname | hname <;> rw [hname] at hresolves ⊢
    · exact hresolves
    · exact absurd (Except.ok.inj (hresolves.symm.trans hunknown)) hs
    · exact hresolves
  have hfirst : (standard.evaluate text context).result = .ok .yes := by
    rw [Registry.evaluate, htokens]
    rfl
  obtain ⟨s', hsecond⟩ : ∃ s', (standard.evaluate text context').result = .ok s' := by
    rw [Registry.evaluate, htokens]
    exact ⟨_, rfl⟩
  have hsame : s' = .yes := verdict_stands hkleene hwords hfirst hsecond (by decide)
  exact ⟨hfirst, hsame ▸ hsecond⟩

end Expression
end Verdict
