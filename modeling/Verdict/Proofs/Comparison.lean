/-
  Verdict.Proofs.Comparison — two evaluations of one blueprint, side by side.

  The same gates are decided twice, from scopes with the same keys whose states are related
  in some way (`Table.Matches`). A gate keeps the relation (`Gate.Keeps`) when its operator
  does, operand by operand, and its operands do. Deciding one gate after the other then
  keeps the scopes related and makes decisions that differ in related states only
  (`decideAll_matches`); the same holds of what is put out (`evaluate_matches`). Nothing is
  said of the two hosts: they only have to give the inputs related states.
-/

import Verdict.Proofs.Replay

namespace Verdict

/-! ## Tables with the same keys -/

namespace Table

variable {α β : Type} {R : α → β → Prop} {t : Table α} {u : Table β}

/-- Whether two tables have the same keys in the same order, and related things under each. -/
def Matches (R : α → β → Prop) (t : Table α) (u : Table β) : Prop :=
  List.Forall₂ (fun e f => e.1 = f.1 ∧ R e.2 f.2) t u

theorem Matches.set (h : Matches R t u) (key : Value) {a : α} {b : β} (hab : R a b) :
    Matches R (set t key a) (set u key b) := by
  induction h with
  | nil => exact .cons ⟨rfl, hab⟩ .nil
  | @cons e f t u hhead htail ih =>
    obtain ⟨k, x⟩ := e
    obtain ⟨k', y⟩ := f
    obtain ⟨hkey, hxy⟩ := hhead
    obtain rfl : k = k' := hkey
    simp only [Table.set]
    by_cases hsame : k.same key = true
    · rw [if_pos hsame, if_pos hsame]
      exact .cons ⟨rfl, hab⟩ htail
    · rw [if_neg hsame, if_neg hsame]
      exact .cons ⟨rfl, hxy⟩ ih

theorem Matches.find? (h : Matches R t u) (key : Value) : Option.Rel R (find? t key) (find? u key) := by
  induction h with
  | nil => exact .none
  | @cons e f t u hhead _ ih =>
    obtain ⟨k, x⟩ := e
    obtain ⟨k', y⟩ := f
    obtain ⟨hkey, hxy⟩ := hhead
    obtain rfl : k = k' := hkey
    rw [find?_cons, find?_cons]
    by_cases hsame : k.same key = true
    · rw [if_pos hsame, if_pos hsame]
      exact .some hxy
    · rw [if_neg hsame, if_neg hsame]
      exact ih

theorem Matches.getD (h : Matches R t u) (key : Value) {a : α} {b : β} (hab : R a b) :
    R ((Table.find? t key).getD a) ((Table.find? u key).getD b) :=
  match Table.find? t key, Table.find? u key, h.find? key with
  | _, _, .none => hab
  | _, _, .some hxy => hxy

end Table

/-! ## Decisions that differ in their states -/

/-- Evidence for one operand, with related states. -/
structure Evidence.Matches (R : State → State → Prop) (e f : Evidence) : Prop where
  operand : e.operand = f.operand
  state : R e.state f.state

/-- Decisions of one gate, with related states throughout. -/
structure Decision.Matches (R : State → State → Prop) (d e : Decision) : Prop where
  name : d.name = e.name
  operator : d.operator = e.operator
  description : d.description = e.description
  evidence : List.Forall₂ (Evidence.Matches R) d.evidence e.evidence
  state : R d.state e.state

/-! ## Gates that keep a relation -/

/-- Whether related states of the operands make related states. -/
def Operator.Keeps (R : State → State → Prop) (o : Operator) (weights : List Int) : Prop :=
  ∀ states states' : List State, List.Forall₂ R states states' → R (o.apply weights states) (o.apply weights states')

/-- Whether an operand takes over related states from the scope, with nothing else to look
    at. -/
def Operand.Keeps (R : State → State → Prop) : Operand → Prop
  | .reference _ negated => negated = true → ∀ s t, R s t → R s.invert t.invert
  | .literal s => R s s
  | .expression _ | .computed _ _ => False

structure Gate.Keeps (R : State → State → Prop) (g : Gate) : Prop where
  operands : ∀ o ∈ g.operands, o.Keeps R
  unexpressed : g.operator ≠ .expression
  operator : g.operator.Keeps R g.weights

namespace Blueprint.Setting

variable {R : State → State → Prop} {env env' : Setting} {context context' : Value} {scope scope' : Scope}

theorem resolveOperand_matches (h : Table.Matches R scope scope') {ds ds' : List Decision} {gate gate' : Value}
    {o : Operand} (ho : o.Keeps R) {s s' : State} (hs : (env.resolveOperand scope ds gate o).result = .ok s)
    (hs' : (env'.resolveOperand scope' ds' gate' o).result = .ok s') : R s s' := by
  cases o with
  | literal t =>
    cases hs
    cases hs'
    exact ho
  | reference name negated =>
    simp only [resolveOperand] at hs hs'
    obtain ⟨found, hfound, hs⟩ := Outcome.result_bind_eq_ok.1 hs
    obtain ⟨found', hfound', hs'⟩ := Outcome.result_bind_eq_ok.1 hs'
    have hrel := h.find? (.str name)
    rw [refer_ok hfound, refer_ok hfound'] at hrel
    cases hs
    cases hs'
    cases hrel with
    | some hrel =>
      cases negated with
      | false => exact hrel
      | true => exact ho rfl _ _ hrel
  | expression text => exact ho.elim
  | computed f label => exact ho.elim

theorem gather_matches (h : Table.Matches R scope scope') {ds ds' : List Decision} {gate gate' : Value}
    {os : List Operand} (hos : ∀ o ∈ os, o.Keeps R) {evidence evidence' : List Evidence}
    (hs : (env.gather scope ds gate os).result = .ok evidence)
    (hs' : (env'.gather scope' ds' gate' os).result = .ok evidence') :
    List.Forall₂ (Evidence.Matches R) evidence evidence' := by
  induction os generalizing evidence evidence' with
  | nil =>
    cases hs
    cases hs'
    exact .nil
  | cons o os ih =>
    obtain ⟨ho, hos⟩ := List.forall_mem_cons.1 hos
    simp only [gather] at hs hs'
    obtain ⟨s, hstate, hs⟩ := Outcome.result_bind_eq_ok.1 hs
    obtain ⟨others, hothers, hs⟩ := Outcome.result_bind_eq_ok.1 hs
    obtain ⟨s', hstate', hs'⟩ := Outcome.result_bind_eq_ok.1 hs'
    obtain ⟨others', hothers', hs'⟩ := Outcome.result_bind_eq_ok.1 hs'
    cases hs
    cases hs'
    exact .cons ⟨rfl, resolveOperand_matches h ho hstate hstate'⟩ (ih hos hothers hothers')

theorem decideGate_matches (h : Table.Matches R scope scope') {ds ds' : List Decision} {g : Gate}
    (hg : g.Keeps R) {d d' : Decision} (hd : (env.decideGate context scope ds g).result = .ok d)
    (hd' : (env'.decideGate context' scope' ds' g).result = .ok d') : d.Matches R d' := by
  obtain ⟨evidence, s, hevidence, hs, rfl⟩ := decideGate_ok.1 hd
  obtain ⟨evidence', s', hevidence', hs', rfl⟩ := decideGate_ok.1 hd'
  rw [if_neg hg.unexpressed] at hs hs'
  have hmatches := gather_matches h hg.operands hevidence hevidence'
  refine ⟨rfl, rfl, rfl, hmatches, ?_⟩
  show R s s'
  rw [← hs, ← hs']
  apply hg.operator
  rw [List.forall₂_map_left_iff, List.forall₂_map_right_iff]
  exact hmatches.imp fun _ _ he => he.state

/-- By induction on the gates: the scopes stay related, and so do the decisions. -/
theorem decideAll_matches {gates : List Gate} (hgates : ∀ g ∈ gates, g.Keeps R) (h : Table.Matches R scope scope')
    {before before' decisions decisions' : List Decision} {after after' : Scope}
    (hbefore : List.Forall₂ (Decision.Matches R) before before')
    (hs : (env.decideAll context scope before gates).result = .ok (after, decisions))
    (hs' : (env'.decideAll context' scope' before' gates).result = .ok (after', decisions')) :
    Table.Matches R after after' ∧ List.Forall₂ (Decision.Matches R) decisions decisions' := by
  induction gates generalizing scope scope' before before' with
  | nil =>
    cases hs
    cases hs'
    exact ⟨h, hbefore⟩
  | cons g gates ih =>
    obtain ⟨hg, hgates⟩ := List.forall_mem_cons.1 hgates
    obtain ⟨d, hd, -, hs⟩ := decideAll_cons_ok.1 hs
    obtain ⟨d', hd', -, hs'⟩ := decideAll_cons_ok.1 hs'
    have hmatches := decideGate_matches h hg hd hd'
    have hnext : Table.Matches R (Table.set scope d.name d.state) (Table.set scope' d'.name d'.state) := by
      rw [hmatches.name]
      exact h.set _ hmatches.state
    exact ih hgates hnext (List.rel_append hbefore (.cons hmatches .nil)) hs hs'

theorem resolveInputs_matches {inputs : List (String × Source)}
    (hinputs : ∀ p ∈ inputs, ∀ s s', (env.resolveInput context p.2).result = .ok s →
      (env'.resolveInput context' p.2).result = .ok s' → R s s')
    (h : Table.Matches R scope scope') {after after' : Scope}
    (hs : (env.resolveInputs context scope inputs).result = .ok after)
    (hs' : (env'.resolveInputs context' scope' inputs).result = .ok after') : Table.Matches R after after' := by
  induction inputs generalizing scope scope' with
  | nil =>
    cases hs
    cases hs'
    exact h
  | cons p inputs ih =>
    obtain ⟨hp, hinputs⟩ := List.forall_mem_cons.1 hinputs
    simp only [resolveInputs] at hs hs'
    obtain ⟨s, hstate, hs⟩ := Outcome.result_bind_eq_ok.1 hs
    obtain ⟨s', hstate', hs'⟩ := Outcome.result_bind_eq_ok.1 hs'
    exact ih hinputs (h.set _ (hp s s' hstate hstate')) hs hs'

theorem lastState_matches (hunknown : R .unknown .unknown) {decisions decisions' : List Decision}
    (h : List.Forall₂ (Decision.Matches R) decisions decisions') :
    R (lastState decisions) (lastState decisions') := by
  induction h with
  | nil => exact hunknown
  | @cons d d' ds ds' hd htail ih =>
    cases htail with
    | nil => exact hd.state
    | cons _ _ => simpa only [lastState, List.getLast?_cons_cons] using ih

/-- What is put out is found in both scopes or in neither. -/
theorem select_matches (hunknown : R .unknown .unknown) (h : Table.Matches R scope scope')
    {decisions decisions' : List Decision} (hd : List.Forall₂ (Decision.Matches R) decisions decisions')
    {output : Value} {s s' : State} (hs : select output scope decisions = .ok s)
    (hs' : select output scope' decisions' = .ok s') : R s s' := by
  have hlast := lastState_matches hunknown hd
  by_cases hnull : output = .null
  · subst hnull
    cases hs
    cases hs'
    exact hlast
  · rw [select_key hnull] at hs hs'
    by_cases hkey : output.isKey = true
    · rw [if_pos hkey] at hs hs'
      cases hs
      cases hs'
      exact h.getD output hlast
    · rw [if_neg hkey] at hs
      cases hs

/-- Two reports on gates that keep a relation have related decisions and results, if the
    inputs are related. -/
theorem evaluate_matches (hunknown : R .unknown .unknown) {b : Blueprint} (hgates : ∀ g ∈ b.gates, g.Keeps R)
    (hinputs : ∀ p ∈ b.inputs, ∀ s s', (env.resolveInput context p.2).result = .ok s →
      (env'.resolveInput context' p.2).result = .ok s' → R s s')
    {r r' : Report} (h : (env.evaluate b context).result = .ok r)
    (h' : (env'.evaluate b context').result = .ok r') :
    List.Forall₂ (Decision.Matches R) r.decisions r'.decisions ∧ R r.result r'.result := by
  obtain ⟨scope, after, decisions, s, hresolve, hdecide, hselect, rfl⟩ := evaluate_ok.1 h
  obtain ⟨scope', after', decisions', s', hresolve', hdecide', hselect', rfl⟩ := evaluate_ok.1 h'
  have hscope := resolveInputs_matches hinputs .nil hresolve hresolve'
  obtain ⟨hafter, hdecisions⟩ := decideAll_matches hgates hscope .nil hdecide hdecide'
  exact ⟨hdecisions, select_matches hunknown hafter hdecisions hselect hselect'⟩

end Blueprint.Setting

end Verdict
