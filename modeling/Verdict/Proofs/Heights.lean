/-
  Verdict.Proofs.Heights — what is malformed about a text can be seen without any data.

  `Registry.check` goes the way of an evaluation with the height of the stack in place of
  the stack: no word is looked up and no handler is called. An evaluation heeds it: on the
  way it may fail for a value or in a handler, but wherever the check finds too few
  operands, a wrong number of arguments or more than one term at the end, so does the
  evaluation, unless it failed before (`evaluate_heeds`). So what is malformed in one
  context has a state in none, and is malformed in the same way wherever it is found to be
  (`Registry.malformed_in_every_context`).
-/

import Verdict.Proofs.Acceptance

namespace Verdict.Expression

/-! ## Handlers -/

/-- Whether no call of the handler fails as a malformed expression does. -/
def Handler.NeverMalformed (handler : Handler) : Prop :=
  ∀ states e, (handler states).result = .error e → ¬IsMalformed e

/-- Whether this is so for each handler that is found under some key. -/
structure Registry.NeverMalformed (r : Registry) : Prop where
  operator : ∀ key spec handler, r.operator? key = some spec → spec.action = .custom handler → handler.NeverMalformed
  function : ∀ key handler, r.function? key = some handler → handler.NeverMalformed

/-! ## Runs without data -/

/-- The height below the operands of a token. -/
def lowered (expression : String) (t : Token) (arity : Int) (height : Nat) : Except Error Nat :=
  if (height : Int) < arity then .error (.malformed (.missingOperands t.text arity expression t.position))
  else .ok (height - arity.toNat)

/-- Only the conditional asks for a number of arguments. -/
def Token.checkArguments (t : Token) : Except Error Unit :=
  if t.text = Builtin.conditional.key ∧ t.arguments ≠ 3 then
    .error (.malformed (.argumentCount t.arguments t.position))
  else .ok ()

/-- The height to which a token leads. -/
def Registry.climb (r : Registry) (expression : String) (height : Nat) (t : Token) : Except Error Nat := do
  match t.kind with
  | .operand => return height + 1
  | .function =>
    let below ← lowered expression t t.arguments height
    t.checkArguments
    return below + 1
  | _ =>
    let spec ← r.operator t.text
    let below ← lowered expression t spec.arity height
    return below + 1

/-- At the end there may be one term, or none. -/
def checkEnd (expression : String) (height : Nat) : Except Error Unit :=
  if height ≤ 1 then .ok () else .error (.malformed (.operandsLeft expression))

/-- What an evaluation of the text is malformed by, in whatever context. -/
def Registry.check (r : Registry) (expression : String) : Except Error Unit := do
  let code ← r.toPostfix (r.tokenize expression)
  let height ← code.foldlM (r.climb expression) 0
  checkEnd expression height

/-! ## The way of another computation -/

section

variable {α β γ δ : Type} {R : α → β → Prop} {S : γ → δ → Prop}

/-- Whether a computation goes the way of another: both have results that are related, or
    both fail alike, unless the first fails for another reason than being malformed. -/
inductive Heeds (R : α → β → Prop) : Except Error α → Except Error β → Prop
  | astray {e : Error} {y : Except Error β} : ¬IsMalformed e → Heeds R (.error e) y
  | error (e : Error) : Heeds R (.error e) (.error e)
  | ok {a : α} {b : β} : R a b → Heeds R (.ok a) (.ok b)

namespace Heeds

theorem self (x : Except Error α) : Heeds Eq x x := by
  cases x with
  | error e => exact .error e
  | ok a => exact .ok rfl

theorem bind {x : Except Error α} {y : Except Error β} {f : α → Except Error γ} {g : β → Except Error δ}
    (h : Heeds R x y) (hf : ∀ a b, R a b → Heeds S (f a) (g b)) : Heeds S (x >>= f) (y >>= g) := by
  cases h with
  | astray he => exact .astray he
  | error e => exact .error e
  | ok hab => exact hf _ _ hab

/-- A step that only the first computation takes, and that is never malformed. -/
theorem after {x : Except Error α} {y : Except Error δ} {f : α → Except Error γ} (h : FailsAs (¬IsMalformed ·) x)
    (hf : ∀ a, Heeds S (f a) y) : Heeds S (x >>= f) y := by
  cases x with
  | error e => exact .astray h
  | ok a => exact hf a

theorem of_fails {x : Except Error α} {b : β} (h : FailsAs (¬IsMalformed ·) x) :
    Heeds (fun _ _ => True) x (.ok b) := by
  cases x with
  | error e => exact .astray h
  | ok a => exact .ok trivial

theorem foldlM {σ τ : Type} {K : σ → τ → Prop} {f : σ → α → Except Error σ} {g : τ → α → Except Error τ}
    (h : ∀ a s t, K s t → Heeds K (f s a) (g t a)) (as : List α) {s : σ} {t : τ} (hst : K s t) :
    Heeds K (as.foldlM f s) (as.foldlM g t) := by
  induction as generalizing s t with
  | nil => exact .ok hst
  | cons a as ih =>
    rw [List.foldlM_cons, List.foldlM_cons]
    exact (h a s t hst).bind fun _ _ hnext => ih hnext

theorem check_of_ok {x : Except Error α} {y : Except Error β} {a : α} (h : Heeds R x y) (hx : x = .ok a) :
    ∃ b, y = .ok b := by
  subst hx
  cases h with
  | ok _ => exact ⟨_, rfl⟩

theorem check_of_error {x : Except Error α} {y : Except Error β} {e : Error} (h : Heeds R x y) (hx : x = .error e)
    (he : IsMalformed e) : y = .error e := by
  subst hx
  cases h with
  | astray hne => exact absurd he hne
  | error _ => rfl

end Heeds

end

/-! ## Evaluations heed the check -/

theorem IsUnsupported.not_malformed {e : Error} (h : IsUnsupported e) : ¬IsMalformed e := by
  intro hmalformed
  rw [IsMalformed, h] at hmalformed
  cases hmalformed

section

variable {r : Registry} {expression : String} {context : Value} {t : Token} {stack : List Term}

theorem Handler.NeverMalformed.apply {handler : Handler} (h : handler.NeverMalformed) (states : List State) :
    FailsAs (¬IsMalformed ·) (handler.apply states).result := by
  rw [Handler.apply, Outcome.result_bind]
  cases hanswer : (handler states).result with
  | error e => exact h states e hanswer
  | ok v => exact (toState_unsupported v).weaken fun _ => IsUnsupported.not_malformed

theorem Registry.NeverMalformed.action (hr : r.NeverMalformed) {key : String} {spec : OperatorSpec}
    (hspec : r.operator? key = some spec) (states : List State) :
    FailsAs (¬IsMalformed ·) (spec.action.apply states).result := by
  cases haction : spec.action with
  | builtin b => trivial
  | custom handler => exact (hr.operator key spec handler hspec haction).apply states

theorem resolveAll_not_malformed (ts : List Term) : FailsAs (¬IsMalformed ·) (Term.resolveAll context ts) :=
  (Term.resolveAll_unsupported ts).weaken fun _ => IsUnsupported.not_malformed

/-- Operands are missing on a stack if they are at its height. -/
theorem popOperands_heeds (expression : String) (t : Token) (arity : Int) (stack : List Term) :
    Heeds (fun parts height => parts.1.length = arity.toNat ∧ parts.2.length = height)
      (popOperands expression t arity stack) (lowered expression t arity stack.length) := by
  unfold popOperands lowered
  by_cases hless : (stack.length : Int) < arity
  · rw [if_pos hless, if_pos hless]
    exact .error _
  · rw [if_neg hless, if_neg hless]
    refine .ok ⟨?_, ?_⟩
    · rw [List.length_reverse, List.length_take]
      omega
    · rw [List.length_drop]

/-- A call is malformed only if it is the conditional's, with a wrong number of arguments. -/
theorem call_not_malformed (hr : r.NeverMalformed) {operands : List Term}
    (h : t.text = Builtin.conditional.key → operands.length = 3) :
    FailsAs (¬IsMalformed ·) (r.call context t operands).result := by
  unfold Registry.call
  by_cases hconditional : t.text = Builtin.conditional.key
  · rw [if_pos hconditional, if_neg (not_not.2 (h hconditional))]
    simp only [Outcome.result_bind, Outcome.result_lift]
    exact (resolveAll_not_malformed operands).bind fun _ _ => trivial
  rw [if_neg hconditional]
  by_cases hcallable : isCallableKey t.text = true
  · rw [if_pos hcallable]
    simp only [Outcome.result_bind, Outcome.result_lift]
    unfold Registry.operator
    cases hspec : r.operator? t.text with
    | none => exact nofun
    | some spec => exact (resolveAll_not_malformed operands).bind fun states _ => hr.action hspec states
  · rw [if_neg hcallable]
    cases hfunction : r.function? t.text with
    | none => trivial
    | some handler =>
      simp only [Outcome.result_bind, Outcome.result_lift]
      exact (resolveAll_not_malformed operands).bind fun states _ => (hr.function _ handler hfunction).apply states

theorem call_heeds (hr : r.NeverMalformed) {operands : List Term} (hoperands : operands.length = t.arguments) :
    Heeds (fun _ _ => True) (r.call context t operands).result t.checkArguments := by
  unfold Token.checkArguments
  by_cases hwrong : t.text = Builtin.conditional.key ∧ t.arguments ≠ 3
  · rw [if_pos hwrong, Registry.call, if_pos hwrong.1, hoperands, if_pos hwrong.2]
    exact .error _
  · rw [if_neg hwrong]
    refine .of_fails (call_not_malformed hr fun hconditional => ?_)
    rw [hoperands]
    exact not_not.1 fun hne => hwrong ⟨hconditional, hne⟩

/-- One token leads a stack to the height to which it leads its height. -/
theorem step_heeds (hr : r.NeverMalformed) (t : Token) (stack : List Term) :
    Heeds (fun next height => next.length = height) (r.step expression context stack t).result
      (r.climb expression stack.length t) := by
  have hoperator : Heeds (fun (next : List Term) height => next.length = height)
      (do
        let spec ← r.operator t.text
        let parts ← popOperands expression t spec.arity stack
        let states ← Term.resolveAll context parts.1
        let s ← (spec.action.apply states).result
        return .state s :: parts.2)
      (do
        let spec ← r.operator t.text
        let below ← lowered expression t spec.arity stack.length
        return below + 1) := by
    unfold Registry.operator
    cases hspec : r.operator? t.text with
    | none => exact .error _
    | some spec =>
      refine (popOperands_heeds expression t spec.arity stack).bind fun parts height hparts => ?_
      refine .after (resolveAll_not_malformed parts.1) fun states => ?_
      refine .after (hr.action hspec states) fun s => .ok ?_
      rw [List.length_cons, hparts.2]
  unfold Registry.step Registry.climb
  cases t.kind with
  | operand => exact .ok (List.length_cons ..)
  | function =>
    simp only [Outcome.result_bind, Outcome.result_lift]
    refine (popOperands_heeds expression t t.arguments stack).bind fun parts height hparts => ?_
    refine (call_heeds hr (hparts.1.trans (Int.toNat_natCast _))).bind fun s _ _ => .ok ?_
    rw [List.length_cons, hparts.2]
  | operator | opening | closing | comma =>
    simp only [Outcome.result_bind, Outcome.result_lift]
    exact hoperator

theorem conclude_heeds (expression : String) (context : Value) (stack : List Term) :
    Heeds (fun _ _ => True) (conclude expression context stack) (checkEnd expression stack.length) := by
  match stack with
  | [] => exact .ok trivial
  | [t] => exact .of_fails (t.resolve_unsupported.weaken fun _ => IsUnsupported.not_malformed)
  | _ :: _ :: _ => exact .error _

/-- By induction on the postfix tokens: the stack always has the height of the check. -/
theorem evaluate_heeds (hr : r.NeverMalformed) (text : String) (context : Value) :
    Heeds (fun _ _ => True) (r.evaluate text context).result (r.check text) := by
  unfold Registry.evaluate Registry.check
  simp only [Outcome.result_bind, Outcome.result_lift, Outcome.result_foldlM]
  refine (Heeds.self _).bind fun code _ heq => ?_
  subst heq
  have hrun : Heeds (fun (stack : List Term) height => stack.length = height)
      (code.foldlM (fun stack t => (r.step text context stack t).result) []) (code.foldlM (r.climb text) 0) := by
    refine Heeds.foldlM (fun t stack height hheight => ?_) code rfl
    rw [← hheight]
    exact step_heeds hr t stack
  refine hrun.bind fun stack height hheight => ?_
  rw [← hheight]
  exact conclude_heeds text context stack

end

/-- What has a state in one context is malformed in none, and what is malformed in one has
    a state in none; where it is found to be malformed again, it is so in the same way. -/
theorem Registry.malformed_in_every_context {r : Registry} (hr : r.NeverMalformed) (text : String)
    (context context' : Value) :
    (∀ s, (r.evaluate text context).result = .ok s →
      ∀ e, (r.evaluate text context').result = .error e → e.family ≠ .malformedExpression) ∧
    ∀ e, (r.evaluate text context).result = .error e → e.family = .malformedExpression →
      (∀ s, (r.evaluate text context').result ≠ .ok s) ∧
        ∀ e', (r.evaluate text context').result = .error e' → e'.family = .malformedExpression → e' = e := by
  have hheeds := evaluate_heeds hr text context
  have hheeds' := evaluate_heeds hr text context'
  refine ⟨fun s hs e he hmalformed => ?_, fun e he hmalformed => ⟨fun s hs => ?_, fun e' he' hmalformed' => ?_⟩⟩
  · obtain ⟨_, hcheck⟩ := hheeds.check_of_ok hs
    rw [hheeds'.check_of_error he hmalformed] at hcheck
    cases hcheck
  · obtain ⟨_, hcheck⟩ := hheeds'.check_of_ok hs
    rw [hheeds.check_of_error he hmalformed] at hcheck
    cases hcheck
  · have hcheck := hheeds'.check_of_error he' hmalformed'
    rw [hheeds.check_of_error he hmalformed] at hcheck
    exact (Except.error.inj hcheck).symm

/-- A handler that fails where it hears a no. -/
def Handler.veto : Handler := fun states =>
  if .no ∈ states then throw (.hostFailure "vetoed") else return .state .yes

def Registry.vetoing : Registry := Registry.standard.registerFunction "veto" Handler.veto

theorem Handler.veto_neverMalformed : Handler.veto.NeverMalformed := by
  intro states e he
  unfold Handler.veto at he
  by_cases hno : .no ∈ states
  · rw [if_pos hno] at he
    cases he
    exact nofun
  · rw [if_neg hno] at he
    cases he

theorem Registry.vetoing_neverMalformed : Registry.vetoing.NeverMalformed := by
  refine ⟨fun key spec handler hspec hcustom => ?_, fun key handler hfunction => ?_⟩
  · obtain ⟨b, -, rfl⟩ := List.mem_map.1 (List.mem_of_find?_eq_some hspec)
    cases hcustom
  · rw [vetoing, function?_registerFunction] at hfunction
    split at hfunction
    · cases hfunction
      exact Handler.veto_neverMalformed
    · cases hfunction

/-- A term too many is one in every context, also where the call in front of it fails
    first. -/
theorem Registry.malformed_in_every_context_veto :
    let context : Value := .map [(.str "a", .bool true)]
    let context' : Value := .map [(.str "a", .bool false)]
    vetoing.NeverMalformed ∧
      ((vetoing.evaluate "veto(a)" context).result = .ok .yes ∧
        ∀ e, (vetoing.evaluate "veto(a)" context').result = .error e → e.family ≠ .malformedExpression) ∧
      (vetoing.evaluate "veto(a) a" context).result = .error (.malformed (.operandsLeft "veto(a) a")) ∧
        ∀ s, (vetoing.evaluate "veto(a) a" context').result ≠ .ok s := by
  intro context context'
  have hcall : lexemes 0 "veto(a)".toList = [⟨['v', 'e', 't', 'o'], 0⟩, ⟨['('], 4⟩, ⟨['a'], 5⟩, ⟨[')'], 6⟩] := by
    rw [show "veto(a)".toList = ['v', 'e', 't', 'o', '(', 'a', ')'] by decide]
    simp +decide [lexemes]
  have hmore : lexemes 0 "veto(a) a".toList =
      [⟨['v', 'e', 't', 'o'], 0⟩, ⟨['('], 4⟩, ⟨['a'], 5⟩, ⟨[')'], 6⟩, ⟨['a'], 8⟩] := by
    rw [show "veto(a) a".toList = ['v', 'e', 't', 'o', '(', 'a', ')', ' ', 'a'] by decide]
    simp +decide [lexemes]
  have hstate : (vetoing.evaluate "veto(a)" context).result = .ok .yes := by
    rw [evaluate, tokenize, hcall]
    rfl
  have hleft : (vetoing.evaluate "veto(a) a" context).result = .error (.malformed (.operandsLeft "veto(a) a")) := by
    rw [evaluate, tokenize, hmore]
    rfl
  refine ⟨vetoing_neverMalformed, ⟨hstate, ?_⟩, hleft, ?_⟩
  · exact (malformed_in_every_context vetoing_neverMalformed "veto(a)" context context').1 .yes hstate
  · exact ((malformed_in_every_context vetoing_neverMalformed "veto(a) a" context context').2 _ hleft rfl).1

end Verdict.Expression
