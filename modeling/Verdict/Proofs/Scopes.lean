/-
  Verdict.Proofs.Scopes — gates in scopes that hold the same states.

  Gates look into their scope by name only. Two scopes that hold the same states under
  the same names (`Near`) give gates that are alike (`Like`) the same decisions, one after
  the other (`decideAll_near`), in whatever order the names came into the scopes. Weights
  are the one thing that need not agree, as long as the vote comes out the same.

  A scope knows names when it holds a state under each (`Knows`); it comes to know those of
  the inputs, and gains that of each gate.
-/

import Verdict.Proofs.Contexts
import Verdict.Proofs.Replay

namespace Verdict

open Value (Alike)

/-! ## Scopes -/

namespace Scope

/-- Scopes with the same states under the same names, each name once. -/
structure Near (s t : Scope) : Prop where
  find : ∀ key : Value, key.isAtom = true → Table.find? s key = Table.find? t key
  left : Table.Distinct s
  right : Table.Distinct t

theorem Near.set {s t : Scope} (h : Near s t) (k : Value) (state : State) :
    Near (Table.set s k state) (Table.set t k state) :=
  ⟨fun key hk => by rw [Table.find?_set s _ _ hk, Table.find?_set t _ _ hk, h.find key hk],
    h.left.set k state, h.right.set k state⟩

theorem find?_toEntries (s : Scope) (key : Value) :
    Table.find? s.toEntries key = (Table.find? s key).map Value.state := by
  induction s with
  | nil => rfl
  | cons e s ih =>
    obtain ⟨k, state⟩ := e
    have hcons : toEntries ((k, state) :: s) = (k, .state state) :: toEntries s := rfl
    rw [hcons, Table.find?_cons, Table.find?_cons, ih]
    split <;> rfl

theorem Near.shows {s t : Scope} (h : Near s t) : Shows (.map s.toEntries) (.map t.toEntries) :=
  shows_map fun name => by
    rw [find?_toEntries, find?_toEntries, h.find _ rfl]
    exact Value.alike_self _

/-- Either scope on top of a context shows the same states. -/
theorem Near.shows_merge {s t : Scope} (h : Near s t) (entries : Entries) :
    Shows (.map (Table.merge entries s.toEntries)) (.map (Table.merge entries t.toEntries)) :=
  shows_map fun name => by
    have hrev (u : Scope) : u.toEntries.reverse = toEntries u.reverse := List.map_reverse.symm
    rw [Table.find?_merge _ _ rfl, Table.find?_merge _ _ rfl, hrev, hrev, find?_toEntries, find?_toEntries,
      h.left.find?_reverse rfl, h.right.find?_reverse rfl, h.find _ rfl]
    exact Value.alike_self _

/-- Whether the scope holds a state under each of the names that are texts. -/
def Knows (scope : Scope) (names : List Value) : Prop :=
  ∀ word ∈ names.filterMap Value.text?, (Table.find? scope (.str word)).isSome = true

theorem knows_nil (scope : Scope) : scope.Knows [] := nofun

theorem Knows.set {scope : Scope} {names : List Value} (h : scope.Knows names) (key : Value) (s : State) :
    Knows (Table.set scope key s) (names ++ [key]) := by
  intro word hword
  rw [Table.find?_set scope _ _ rfl]
  by_cases hsame : key.same (.str word) = true
  · rw [if_pos hsame]
    rfl
  · rw [if_neg hsame]
    obtain ⟨name, hname, htext⟩ := List.mem_filterMap.1 hword
    rcases List.mem_append.1 hname with hmem | hmem
    · exact h word (List.mem_filterMap.2 ⟨name, hmem, htext⟩)
    · rw [List.mem_singleton.1 hmem] at htext
      exact absurd ((Value.same_str key word).2 htext) hsame

end Scope

/-! ## Gates -/

/-- Whether the host is asked for the state of an operand. -/
def Operand.isComputed : Operand → Bool
  | .computed _ _ => true
  | _ => false

/-- Gates that differ in their weights, and in the order of mappings, only. -/
structure Gate.Like (g h : Gate) : Prop where
  name : g.name = h.name
  operator : g.operator = h.operator
  label : g.operatorLabel = h.operatorLabel
  operands : g.operands = h.operands
  pure : ∀ o ∈ g.operands, o.isComputed = false
  expression : Alike g.expression h.expression
  description : Alike g.description h.description

/-- What a gate needs to come to a decision when the evidence is there. -/
structure Gate.Retells (g : Gate) (d : Decision) : Prop where
  name : g.name = d.name
  label : g.operatorLabel = d.operator
  operands : g.operands.map Operand.label = d.evidence.map Evidence.operand
  vote : g.operator = .weighted → Vote.weighted g.weights (d.evidence.map Evidence.state) = d.state

/-- Decisions that differ in the order of mappings in their descriptions only. -/
structure Decision.Like (d e : Decision) : Prop where
  name : d.name = e.name
  state : d.state = e.state
  operator : d.operator = e.operator
  evidence : d.evidence = e.evidence
  description : Alike d.description e.description

namespace Blueprint.Setting

variable {env : Setting} {context : Value} {s t : Scope}

theorem resolveOperand_near (h : Scope.Near s t) {ds es : List Decision} {gate gate' : Value} {o : Operand}
    (ho : o.isComputed = false) {state : State} (hs : (env.resolveOperand s ds gate o).result = .ok state) :
    (env.resolveOperand t es gate' o).result = .ok state := by
  cases o with
  | literal => exact hs
  | computed => cases ho
  | reference name negated =>
    simp only [resolveOperand] at hs ⊢
    obtain ⟨found, hf, hs⟩ := Outcome.result_bind_eq_ok.1 hs
    have hfind := refer_ok hf
    rw [h.find _ rfl] at hfind
    refine Outcome.result_bind_eq_ok.2 ⟨found, ?_, hs⟩
    simp only [refer, hfind]
    rfl
  | expression text =>
    simp only [resolveOperand] at hs ⊢
    rwa [← expression_shows env.logic (orElse_map _) (orElse_map _) h.shows]

theorem gather_near (h : Scope.Near s t) {ds es : List Decision} {gate gate' : Value} {os : List Operand}
    (ho : ∀ o ∈ os, o.isComputed = false) {evidence : List Evidence}
    (hs : (env.gather s ds gate os).result = .ok evidence) :
    (env.gather t es gate' os).result = .ok evidence := by
  induction os generalizing evidence with
  | nil => exact hs
  | cons o os ih =>
    obtain ⟨hfirst, hrest⟩ := List.forall_mem_cons.1 ho
    simp only [gather] at hs ⊢
    obtain ⟨state, hstate, hs⟩ := Outcome.result_bind_eq_ok.1 hs
    obtain ⟨others, hothers, hs⟩ := Outcome.result_bind_eq_ok.1 hs
    exact Outcome.result_bind_eq_ok.2 ⟨state, resolveOperand_near h hfirst hstate,
      Outcome.result_bind_eq_ok.2 ⟨others, ih hrest hothers, hs⟩⟩

theorem express_text {text v : Value} (hv : text.orElse (.str "") = .ok v) {state : State}
    (hs : (env.express context s text).result = .ok state) : v.text?.isSome = true := by
  simp only [express] at hs
  rw [hv, Outcome.lift_ok_bind] at hs
  split at hs
  · obtain ⟨⟨_ | r⟩, _⟩ := env
    · cases hs
    · simp only [Logic.expression, orElse_map, Outcome.lift_ok_bind] at hs
      split at hs
      · next htext => rw [htext]; rfl
      · cases hs
  · cases hs

theorem express_near (h : Scope.Near s t) {text text' : Value} (ht : Alike text text') {state : State}
    (hs : (env.express context s text).result = .ok state) :
    (env.express context t text').result = .ok state := by
  have hsame (text : Value) : env.express context s text = env.express context t text := by
    simp only [express]
    cases context.entries? with
    | none => rfl
    | some entries =>
      exact congrArg _ (funext fun text =>
        expression_shows env.logic (orElse_map _) (orElse_map _) (h.shows_merge entries) text)
  obtain rfl | hr := ht
  · rwa [← hsame]
  · -- other than a text, only an empty list or mapping has a state here
    cases hr.form with
    | atom => rwa [← hsame]
    | list hall =>
      cases hall with
      | nil => rwa [← hsame]
      | cons => cases express_text rfl hs
    | @map es _ _ _ hnil _ =>
      cases es with
      | nil => rw [hnil.1 rfl, ← hsame]; exact hs
      | cons => cases express_text rfl hs

/-- Only a weighted vote looks at the weights. -/
theorem apply_congr {o : Operator} {weights weights' : List Int} {states : List State}
    (h : o = .weighted → Vote.weighted weights states = Vote.weighted weights' states) :
    o.apply weights states = o.apply weights' states := by
  cases o with
  | weighted => exact h rfl
  | _ => rfl

theorem gather_labels {ds : List Decision} {gate : Value} {os : List Operand} {evidence : List Evidence}
    (h : (env.gather s ds gate os).result = .ok evidence) :
    os.map Operand.label = evidence.map Evidence.operand := by
  induction os generalizing evidence with
  | nil => cases h; rfl
  | cons o os ih =>
    simp only [gather] at h
    obtain ⟨state, -, h⟩ := Outcome.result_bind_eq_ok.1 h
    obtain ⟨others, ho, h⟩ := Outcome.result_bind_eq_ok.1 h
    cases h
    exact congrArg (o.label :: ·) (ih ho)

theorem decideGate_retells {ds : List Decision} {g : Gate} {d : Decision}
    (hd : (env.decideGate context s ds g).result = .ok d) : g.Retells d := by
  obtain ⟨evidence, state, hev, hs, rfl⟩ := decideGate_ok.1 hd
  refine ⟨rfl, rfl, gather_labels hev, fun hw => ?_⟩
  rw [hw] at hs
  exact hs

theorem decideGate_near (h : Scope.Near s t) {ds : List Decision} (es : List Decision) {g g' : Gate} (hg : g.Like g')
    {d : Decision} (hd : (env.decideGate context s ds g).result = .ok d) (hr : g'.Retells d) :
    ∃ e, (env.decideGate context t es g').result = .ok e ∧ d.Like e := by
  have hvote := (decideGate_retells hd).vote
  obtain ⟨evidence, state, hev, hs, rfl⟩ := decideGate_ok.1 hd
  have hev' : (env.gather t es g'.name g'.operands).result = .ok evidence :=
    hg.operands ▸ gather_near h hg.pure hev
  refine ⟨_, decideGate_ok.2 ⟨evidence, state, hev', ?_, rfl⟩,
    ⟨hg.name, rfl, hg.label, rfl, hg.description⟩⟩
  rw [← hg.operator]
  split at hs
  · next hx => rw [if_pos hx]; exact express_near h hg.expression hs
  · next hx =>
    rw [if_neg hx, ← hs]
    exact apply_congr fun hw => (hr.vote (hg.operator ▸ hw)).trans (hvote hw).symm

theorem decideAll_retells {gates : List Gate} {before decisions : List Decision} {s' : Scope}
    (h : (env.decideAll context s before gates).result = .ok (s', decisions)) :
    ∃ ds, decisions = before ++ ds ∧ List.Forall₂ Gate.Retells gates ds := by
  induction gates generalizing s before with
  | nil => cases h; exact ⟨[], (List.append_nil _).symm, .nil⟩
  | cons g gates ih =>
    obtain ⟨d, hd, -, h⟩ := decideAll_cons_ok.1 h
    obtain ⟨ds, rfl, hr⟩ := ih h
    exact ⟨d :: ds, by simp, .cons (decideGate_retells hd) hr⟩

/-- Gates that are alike come to the same decisions, where each can come to the one in its
    place. -/
theorem decideAll_near {gates gates' : List Gate} (h : Scope.Near s t)
    (hgates : List.Forall₂ Gate.Like gates gates') {before ds : List Decision} {s' : Scope}
    (before' : List Decision) (hr : List.Forall₂ Gate.Retells gates' ds)
    (hs : (env.decideAll context s before gates).result = .ok (s', before ++ ds)) :
    ∃ t' es, (env.decideAll context t before' gates').result = .ok (t', before' ++ es) ∧
      List.Forall₂ Decision.Like ds es ∧ Scope.Near s' t' := by
  induction hgates generalizing s t before before' ds with
  | nil =>
    cases hr
    rw [List.append_nil] at hs
    cases hs
    exact ⟨t, [], by rw [List.append_nil]; rfl, .nil, h⟩
  | cons hg hgates ih =>
    obtain ⟨d, hd, hk, hs⟩ := decideAll_cons_ok.1 hs
    cases hr with
    | @cons _ d' _ ds hfirst hrest =>
      obtain ⟨ds', heq, -⟩ := decideAll_retells hs
      rw [List.append_assoc, List.append_cancel_left_eq] at heq
      obtain ⟨rfl, rfl⟩ := List.cons.inj heq
      obtain ⟨e, he, hlike⟩ := decideGate_near h before' hg hd hfirst
      have hstep : before ++ d' :: ds = before ++ [d'] ++ ds := by simp
      rw [hstep] at hs
      have hnext : Scope.Near (Table.set s d'.name d'.state) (Table.set t e.name e.state) := by
        rw [← hlike.name, ← hlike.state]
        exact h.set _ _
      obtain ⟨t', es, ht, hes, hnear⟩ := ih hnext (before' ++ [e]) hrest hs
      refine ⟨t', e :: es, decideAll_cons_ok.2 ⟨e, he, hlike.name ▸ hk, ?_⟩, .cons hlike hes, hnear⟩
      rw [ht, List.append_assoc, List.singleton_append]

/-! ## Inputs -/

theorem resolveInputs_cons_ok {scope s' : Scope} {name : String} {source : Source}
    {inputs : List (String × Source)} :
    (env.resolveInputs context scope ((name, source) :: inputs)).result = .ok s' ↔
      ∃ state, (env.resolveInput context source).result = .ok state ∧
        (env.resolveInputs context (Table.set scope (.str name) state) inputs).result = .ok s' := by
  simp only [resolveInputs]
  exact Outcome.result_bind_eq_ok

theorem resolveInputs_distinct {inputs : List (String × Source)} {scope s' : Scope}
    (hd : Table.Distinct scope) (h : (env.resolveInputs context scope inputs).result = .ok s') :
    Table.Distinct s' := by
  induction inputs generalizing scope with
  | nil => cases h; exact hd
  | cons p inputs ih =>
    obtain ⟨state, -, h⟩ := resolveInputs_cons_ok.1 h
    exact ih (hd.set _ _) h

/-- The names of the inputs are known from then on. -/
theorem resolveInputs_knows {names : List Value} {inputs : List (String × Source)} {scope s' : Scope}
    (hknows : scope.Knows names) (h : (env.resolveInputs context scope inputs).result = .ok s') :
    s'.Knows (names ++ inputs.map fun p => .str p.1) := by
  induction inputs generalizing scope names with
  | nil =>
    cases h
    rwa [List.map_nil, List.append_nil]
  | cons p inputs ih =>
    obtain ⟨state, -, h⟩ := resolveInputs_cons_ok.1 h
    rw [List.map_cons, List.append_cons]
    exact ih (hknows.set _ state) h

/-- Inputs resolve when each of them does, in whatever order they stand. -/
theorem resolveInputs_ok {inputs : List (String × Source)} {scope : Scope} :
    (∃ s', (env.resolveInputs context scope inputs).result = .ok s') ↔
      ∀ p ∈ inputs, ∃ state, (env.resolveInput context p.2).result = .ok state := by
  induction inputs generalizing scope with
  | nil => exact ⟨fun _ => nofun, fun _ => ⟨scope, rfl⟩⟩
  | cons p inputs ih =>
    rw [List.forall_mem_cons]
    constructor
    · rintro ⟨s', h⟩
      obtain ⟨state, hstate, h⟩ := resolveInputs_cons_ok.1 h
      exact ⟨⟨state, hstate⟩, ih.1 ⟨s', h⟩⟩
    · rintro ⟨⟨state, hstate⟩, hrest⟩
      obtain ⟨s', h⟩ := ih.2 hrest
      exact ⟨s', resolveInputs_cons_ok.2 ⟨state, hstate, h⟩⟩

/-- Two lists with the same pairs, each name once, hold the same pair under a key. -/
theorem find?_reverse_inputs {inputs inputs' : List (String × Source)} (hsame : ∀ p, p ∈ inputs ↔ p ∈ inputs')
    (hone : ∀ p ∈ inputs, ∀ q ∈ inputs, p.1 = q.1 → p = q) {key : Value} (hk : key.isAtom = true) :
    (inputs.reverse.find? fun p => (Value.str p.1).same key)
      = inputs'.reverse.find? fun p => (Value.str p.1).same key := by
  have hname : ∀ p q : String × Source, (Value.str p.1).same key = true → (Value.str q.1).same key = true →
      p.1 = q.1 := by
    intro p q hp hq
    have := Value.same_of_same_atom hk hp hq
    rw [Value.same_str] at this
    exact Option.some.inj this
  cases hp : inputs.reverse.find? fun p => (Value.str p.1).same key with
  | none =>
    rw [List.find?_eq_none] at hp
    refine (List.find?_eq_none.2 fun q hq => hp q ?_).symm
    rw [List.mem_reverse] at hq ⊢
    exact (hsame q).2 hq
  | some p =>
    have hpk := List.find?_some hp
    have hmem := List.mem_reverse.1 (List.mem_of_find?_eq_some hp)
    cases hq : inputs'.reverse.find? fun p => (Value.str p.1).same key with
    | none =>
      rw [List.find?_eq_none] at hq
      exact absurd hpk (hq p (List.mem_reverse.2 ((hsame p).1 hmem)))
    | some q =>
      have hqk := List.find?_some hq
      have hmem' := (hsame q).2 (List.mem_reverse.1 (List.mem_of_find?_eq_some hq))
      rw [hone p hmem q hmem' (hname p q hpk hqk)]

theorem resolveInputs_near {inputs inputs' : List (String × Source)} (hsame : ∀ p, p ∈ inputs ↔ p ∈ inputs')
    (hone : ∀ p ∈ inputs, ∀ q ∈ inputs, p.1 = q.1 → p = q)
    (h : (env.resolveInputs context [] inputs).result = .ok s) :
    ∃ t, (env.resolveInputs context [] inputs').result = .ok t ∧ Scope.Near s t := by
  have hall := resolveInputs_ok.1 ⟨s, h⟩
  obtain ⟨t, ht⟩ := resolveInputs_ok.2 fun p hp => hall p ((hsame p).2 hp)
  refine ⟨t, ht, fun key hk => ?_, resolveInputs_distinct .nil h, resolveInputs_distinct .nil ht⟩
  rw [find?_resolveInputs h hk, find?_resolveInputs ht hk, find?_reverse_inputs hsame hone hk]

end Blueprint.Setting

end Verdict
