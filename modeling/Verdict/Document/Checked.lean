/-
  Verdict.Document.Checked — a result, or everything that is wrong with the data.

  Checks that stand side by side are all made, and their faults follow one another
  (`faults_seq`). A check that builds on others is made only when these found no fault
  (`faults_followedBy`).
-/

import Verdict.Blueprint.Fault

namespace Verdict.Document

open Blueprint (Fault FaultKind)

inductive Checked (α : Type)
  | sound (a : α)
  | faulty (faults : List Fault)
  deriving Repr

namespace Checked

variable {α β : Type}

def faults : Checked α → List Fault
  | sound _ => []
  | faulty fs => fs

def fault (kind : FaultKind) (place : List Value) : Checked α := faulty [⟨kind, place⟩]

protected def seq (f : Checked (α → β)) (x : Checked α) : Checked β :=
  match f, x with
  | sound g, sound a => sound (g a)
  | f, x => faulty (f.faults ++ x.faults)

instance : Applicative Checked where
  pure := sound
  seq f x := Checked.seq f (x ())

theorem faults_seq (f : Checked (α → β)) (x : Checked α) :
    (Checked.seq f x).faults = f.faults ++ x.faults := by
  cases f <;> cases x <;> rfl

/-- Adds faults that no result depends on. -/
def withFaults (x : Checked α) (more : List Fault) : Checked α :=
  match x, more with
  | sound a, [] => sound a
  | x, more => faulty (x.faults ++ more)

theorem faults_withFaults (x : Checked α) (more : List Fault) :
    (x.withFaults more).faults = x.faults ++ more := by
  cases x <;> cases more <;> rfl

def followedBy (x : Checked α) (next : α → Checked α) : Checked α :=
  match x with
  | sound a => next a
  | faulty fs => faulty fs

theorem faults_followedBy (x : Checked α) (next : α → Checked α) (h : x.faults ≠ []) :
    (x.followedBy next).faults = x.faults := by
  cases x with
  | sound a => exact absurd rfl h
  | faulty fs => rfl

/-- Checks every element. -/
def all (check : α → Checked β) : List α → Checked (List β)
  | [] => sound []
  | a :: rest => Checked.seq (Checked.seq (sound List.cons) (check a)) (all check rest)

theorem faults_all (check : α → Checked β) (as : List α) :
    (all check as).faults = as.flatMap fun a => (check a).faults := by
  induction as with
  | nil => rfl
  | cons a rest ih => rw [all, faults_seq, faults_seq, ih, List.flatMap_cons]; rfl

end Checked

end Verdict.Document
