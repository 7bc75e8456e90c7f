/-
  Verdict.Proofs.Results — results taken apart and put together.

  A sequence of steps gives a result exactly when each step does (`bind_eq_ok`), and the
  result of a fold of outcomes is the fold of their results (`result_foldlM`): statements
  about results never look at events. `Ends` says of a sequence of steps both how it fails
  and what it gives.
-/

import Verdict.Outcome

namespace Verdict

variable {α β σ : Type}

/-! ## Results -/

theorem bind_eq_ok {x : Except Error α} {f : α → Except Error β} {b : β} :
    x >>= f = .ok b ↔ ∃ a, x = .ok a ∧ f a = .ok b := by
  cases x with
  | error e => exact ⟨fun h => (nomatch h), fun ⟨_, h, _⟩ => (nomatch h)⟩
  | ok a => exact ⟨fun h => ⟨a, rfl, h⟩, fun ⟨_, h, hb⟩ => by cases h; exact hb⟩

@[simp] theorem ok_bind (a : α) (f : α → Except Error β) : (Except.ok a >>= f) = f a := rfl

/-- Whether the result, or the error in place of it, is as stated. -/
def Ends (failure : Error → Prop) (success : α → Prop) : Except Error α → Prop
  | .ok a => success a
  | .error e => failure e

/-- Whether the error, if there is one, is as stated. -/
abbrev FailsAs (failure : Error → Prop) (x : Except Error α) : Prop := Ends failure (fun _ => True) x

namespace Ends

variable {failure failure' : Error → Prop} {success success' : α → Prop} {x : Except Error α}

theorem bind {after : β → Prop} {f : α → Except Error β} (h : Ends failure success x)
    (hf : ∀ a, success a → Ends failure after (f a)) : Ends failure after (x >>= f) := by
  cases x with
  | error e => exact h
  | ok a => exact hf a h

theorem weaken (h : Ends failure success x) (hfailure : ∀ e, failure e → failure' e) :
    Ends failure' success x := by
  cases x with
  | error e => exact hfailure e h
  | ok a => exact h

theorem imp (h : Ends failure success x) (hsuccess : ∀ a, success a → success' a) :
    Ends failure success' x := by
  cases x with
  | error e => exact h
  | ok a => exact hsuccess a h

/-- What each step keeps, the whole fold keeps. -/
theorem foldlM_keeps {kept : σ → Prop} {f : σ → α → Except Error σ} {as : List α}
    (h : ∀ a ∈ as, ∀ s, kept s → Ends failure kept (f s a)) {s : σ} (hs : kept s) :
    Ends failure kept (as.foldlM f s) := by
  induction as generalizing s with
  | nil => exact hs
  | cons a as ih =>
    obtain ⟨ha, has⟩ := List.forall_mem_cons.1 h
    rw [List.foldlM_cons]
    exact (ha s hs).bind fun _ hnext => ih has hnext

theorem foldlM {f : σ → α → Except Error σ} (h : ∀ s a, FailsAs failure (f s a)) (s : σ) (as : List α) :
    FailsAs failure (as.foldlM f s) :=
  foldlM_keeps (fun a _ s _ => h s a) trivial

end Ends

namespace Outcome

/-! ## Outcomes -/

@[simp] theorem result_lift (x : Except Error α) : (liftM x : Outcome α).result = x := rfl

@[simp] theorem result_throw (e : Error) : (throw e : Outcome α).result = .error e := rfl

@[simp] theorem result_log (logger : String) (level : Level) (message : String) :
    (log logger level message).result = .ok () := rfl

theorem lift_ok_bind (a : α) (f : α → Outcome β) :
    ((liftM (Except.ok a : Except Error α) : Outcome α) >>= f) = f a := pure_bind a f

theorem result_bind_eq_ok {x : Outcome α} {f : α → Outcome β} {b : β} :
    (x >>= f).result = .ok b ↔ ∃ a, x.result = .ok a ∧ (f a).result = .ok b := by
  rw [result_bind, bind_eq_ok]

/-- What comes after a step matters for its results only. -/
theorem bind_congr_of_ok {x : Outcome α} {f g : α → Outcome β} (h : ∀ a, x.result = .ok a → f a = g a) :
    x >>= f = x >>= g := by
  rw [bind_def, bind_def]
  unfold Outcome.bind
  cases hx : x.result with
  | error e => rfl
  | ok a => simp only [h a hx]

theorem result_foldlM (f : σ → α → Outcome σ) (s : σ) (as : List α) :
    (as.foldlM f s).result = as.foldlM (fun s a => (f s a).result) s := by
  induction as generalizing s with
  | nil => rfl
  | cons a as ih => simp only [List.foldlM_cons, result_bind, ih]

/-! ## Going on with a state -/

/-- The events of an outcome come first, and without a result nothing more happens. -/
theorem carry_of_ok {x : Outcome α} {a : α} (h : x.result = .ok a) (s : σ) (next : α → σ × Outcome β) :
    x.carry s next = ((next a).1, ⟨x.events ++ (next a).2.events, (next a).2.result⟩) := by
  simp only [carry, h]

theorem carry_of_error {x : Outcome α} {e : Error} (h : x.result = .error e) (s : σ)
    (next : α → σ × Outcome β) : x.carry s next = (s, ⟨x.events, .error e⟩) := by
  simp only [carry, h]

/-- Going on from two outcomes one after the other. -/
theorem carry_bind {γ : Type} (x : Outcome α) (f : α → Outcome β) (s : σ) (next : β → σ × Outcome γ) :
    (x >>= f).carry s next = x.carry s fun a => (f a).carry s next := by
  obtain ⟨events, result⟩ := x
  cases result with
  | error e => rfl
  | ok a =>
    have hbind : (⟨events, .ok a⟩ : Outcome α) >>= f = ⟨events ++ (f a).events, (f a).result⟩ := rfl
    have hfirst : (⟨events, .ok a⟩ : Outcome α).result = .ok a := rfl
    rw [hbind, carry_of_ok hfirst]
    cases hresult : (f a).result with
    | error e => simp only [carry, hresult]
    | ok b => simp only [carry, hresult, List.append_assoc]

theorem carry_pure (a : α) (s : σ) (next : α → σ × Outcome β) :
    (pure a : Outcome α).carry s next = next a := rfl

theorem carry_ok {x : Outcome α} {a : α} (h : x.result = .ok a) (s : σ)
    (next : α → σ × Outcome β) :
    (x.carry s next).1 = (next a).1 ∧ (x.carry s next).2.result = (next a).2.result := by
  rw [carry_of_ok h]
  exact ⟨rfl, rfl⟩

theorem carry_error {x : Outcome α} {e : Error} (h : x.result = .error e) (s : σ)
    (next : α → σ × Outcome β) :
    (x.carry s next).1 = s ∧ (x.carry s next).2.result = .error e := by
  rw [carry_of_error h]
  exact ⟨rfl, rfl⟩

end Outcome

end Verdict
