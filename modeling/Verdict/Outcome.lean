/-
  Verdict.Outcome — a computation's result together with what it did on the way.

  A computation either returns a value or stops with an error; in both cases it leaves
  behind the host functions it called, the observers it told and the messages it logged,
  in order. Running one
  computation after another appends the events, and `result` turns that into running one
  result after the other (`result_bind`): a statement about results alone never has to
  look at events.
-/

import Verdict.Error

namespace Verdict

/-! ## Events -/

inductive Level
  | debug | info | warning | error | critical
  | other (number : Int)
  deriving DecidableEq, Repr

/-- A message for the log, with the fields that structured logs add to it. -/
structure LogRecord where
  logger : String
  level : Level
  message : String
  fields : List (String × Value)
  failure : Option String
  deriving Repr

inductive Event
  | called (f : FunctionRef)
  /-- The observer at a place of the list was told of a report. -/
  | notified (place : Nat)
  | logged (record : LogRecord)
  deriving Repr

/-! ## Outcomes -/

structure Outcome (α : Type) where
  events : List Event
  result : Except Error α
  deriving Repr

namespace Outcome

variable {α β : Type}

@[ext] theorem ext {x y : Outcome α} (he : x.events = y.events) (hr : x.result = y.result) :
    x = y := by
  cases x; cases y; simp_all

def ofExcept (r : Except Error α) : Outcome α := ⟨[], r⟩

protected def pure (a : α) : Outcome α := ofExcept (.ok a)

protected def bind (x : Outcome α) (f : α → Outcome β) : Outcome β :=
  match x.result with
  | .ok a => ⟨x.events ++ (f a).events, (f a).result⟩
  | .error e => ⟨x.events, .error e⟩

instance : Monad Outcome where
  pure := Outcome.pure
  bind := Outcome.bind

instance : MonadLift (Except Error) Outcome := ⟨ofExcept⟩

instance : MonadExceptOf Error Outcome where
  throw e := ofExcept (.error e)
  tryCatch x handler :=
    match x.result with
    | .ok _ => x
    | .error e => ⟨x.events ++ (handler e).events, (handler e).result⟩

/-- Leaves one event behind. -/
def emit (e : Event) : Outcome Unit := ⟨[e], .ok ()⟩

/-- Goes on from an outcome with a state; without a result the state stays as it is. -/
def carry {σ : Type} (x : Outcome α) (s : σ) (next : α → σ × Outcome β) : σ × Outcome β :=
  match x.result with
  | .ok a => ((next a).1, ⟨x.events ++ (next a).2.events, (next a).2.result⟩)
  | .error e => (s, ⟨x.events, .error e⟩)

def log (logger : String) (level : Level) (message : String) : Outcome Unit :=
  emit (.logged ⟨logger, level, message, [], none⟩)

/-! ## Laws -/

@[simp] theorem result_ofExcept (r : Except Error α) : (ofExcept r).result = r := rfl

@[simp] theorem events_ofExcept (r : Except Error α) : (ofExcept r).events = [] := rfl

@[simp] theorem result_pure (a : α) : (pure a : Outcome α).result = .ok a := rfl

@[simp] theorem events_pure (a : α) : (pure a : Outcome α).events = [] := rfl

@[simp] theorem result_emit (e : Event) : (emit e).result = .ok () := rfl

theorem bind_def (x : Outcome α) (f : α → Outcome β) : x >>= f = x.bind f := rfl

/-- Results run one after the other, whatever the events are. -/
@[simp] theorem result_bind (x : Outcome α) (f : α → Outcome β) :
    (x >>= f).result = x.result >>= fun a => (f a).result := by
  rw [bind_def]
  unfold Outcome.bind
  cases x.result <;> rfl

theorem map_id_bind (x : Outcome α) : x.bind Outcome.pure = x := by
  obtain ⟨es, r⟩ := x
  cases r <;> simp [Outcome.bind, Outcome.pure, ofExcept]

theorem pure_then (a : α) (f : α → Outcome β) : (Outcome.pure a).bind f = f a := by
  simp [Outcome.bind, Outcome.pure, ofExcept]

theorem bind_then {γ : Type} (x : Outcome α) (f : α → Outcome β) (g : β → Outcome γ) :
    (x.bind f).bind g = x.bind fun a => (f a).bind g := by
  obtain ⟨es, r⟩ := x
  cases r with
  | error e => rfl
  | ok a =>
    rcases h : f a with ⟨es', r'⟩
    cases r' <;> simp [Outcome.bind, h, List.append_assoc]

instance : LawfulMonad Outcome :=
  LawfulMonad.mk' Outcome map_id_bind pure_then bind_then

end Outcome

end Verdict
