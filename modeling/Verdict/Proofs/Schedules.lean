/-
  Verdict.Proofs.Schedules — gates may stand in any order that lets them see what they
  refer to.

  States for all names solve a blueprint of references and fixed states when each input has
  the state that it resolves to and each gate the one that it has among these states
  (`Solves`); no order is in that. As long as no name is used twice, an evaluation that
  makes a report finds a solution (`evaluate_solves`): what a gate sees goes on being part
  of the scope. And any order in which the gates see what they refer to arrives at the
  solution (`evaluate_of_solves`). So one order makes a report when another does, with the
  same decision for each gate (`reordered_gates_agree`).
-/

import Verdict.Proofs.Grounding
import Verdict.Proofs.Monotonicity

namespace Verdict

/-! ## Gates among states -/

/-- The state of an operand among those of a scope. -/
def Operand.stateIn (scope : Scope) : Operand → State
  | .literal s => s
  | .reference name negated =>
    let s := (Table.find? scope (.str name)).getD .unknown
    if negated then s.invert else s
  | .expression _ | .computed _ _ => .unknown

def Operand.evidenceIn (scope : Scope) (o : Operand) : Evidence := ⟨o.label, o.stateIn scope⟩

/-- Whether a gate votes on the states of names and on fixed states only. -/
structure Gate.IsGiven (g : Gate) : Prop where
  operator : g.operator ≠ .expression
  operands : ∀ o ∈ g.operands, o.isGiven = true

/-- The decision of such a gate among the states of a scope. -/
def Gate.decisionIn (scope : Scope) (g : Gate) : Decision := {
  name := g.name
  state := g.operator.apply g.weights (g.operands.map (Operand.stateIn scope))
  operator := g.operatorLabel
  evidence := g.operands.map (Operand.evidenceIn scope)
  description := g.description }

/-! ## Growing scopes -/

namespace Scope

/-- Whether the state stands under all keys that are the name. -/
def Holds (scope : Scope) (name : Value) (state : State) : Prop :=
  ∀ key : Value, key.isAtom = true → name.same key = true → Table.find? scope key = some state

/-- Whether all that the first scope holds is held by the second. -/
def IsPart (t s : Scope) : Prop :=
  ∀ key : Value, key.isAtom = true → ∀ state, Table.find? t key = some state → Table.find? s key = some state

variable {s t u : Scope} {known : List Value}

theorem IsPart.refl (t : Scope) : IsPart t t := fun _ _ _ h => h

theorem isPart_nil (s : Scope) : IsPart [] s := nofun

theorem IsPart.trans (h : IsPart t s) (h' : IsPart s u) : IsPart t u :=
  fun key hk state hstate => h' key hk state (h key hk state hstate)

theorem holds_set (t : Scope) (name : Value) (state : State) : Holds (Table.set t name state) name state :=
  fun _ hk hsame => by rw [Table.find?_set t _ _ hk, if_pos hsame]

theorem IsPart.holds {name : Value} {state : State} (h : IsPart t s) (hname : t.Holds name state) :
    s.Holds name state :=
  fun key hk hsame => h key hk state (hname key hk hsame)

/-- A new name takes nothing away. -/
theorem isPart_set {name : Value} (hspans : t.Spans known)
    (hnew : ∀ k ∈ known, k.same name = false) (state : State) : IsPart t (Table.set t name state) := by
  intro key hk found hfound
  have hamong : key.isAmong known = true := by
    rw [← hspans key hk, hfound]
    rfl
  obtain ⟨k, hmem, hsame⟩ := List.any_eq_true.1 hamong
  have hdiffers : ¬name.same key = true := fun hname =>
    Bool.false_ne_true ((hnew k hmem).symm.trans (Value.same_of_same_atom hk hsame hname))
  rw [Table.find?_set t _ _ hk, if_neg hdiffers]
  exact hfound

theorem IsPart.set {name : Value} {state : State} (h : IsPart t s) (hname : s.Holds name state) :
    IsPart (Table.set t name state) s := by
  intro key hk found hfound
  rw [Table.find?_set t _ _ hk] at hfound
  split at hfound
  · next hsame => rw [hname key hk hsame, hfound]
  · exact h key hk found hfound

/-- What a scope spans has one state in it and in any that it is part of. -/
theorem IsPart.find? (h : IsPart t s) (hspans : t.Spans known) {key : Value} (hk : key.isAtom = true)
    (hamong : key.isAmong known = true) : ∃ state, Table.find? t key = some state ∧ Table.find? s key = some state := by
  obtain ⟨state, hstate⟩ := Option.isSome_iff_exists.1 ((hspans key hk).trans hamong)
  exact ⟨state, hstate, h key hk state hstate⟩

theorem IsPart.stateIn (h : IsPart t s) (hspans : t.Spans known) {o : Operand} (ho : o.isWithin known = true) :
    o.stateIn t = o.stateIn s := by
  cases o with
  | reference name negated =>
    obtain ⟨state, ht, hs⟩ := h.find? hspans rfl ho
    simp only [Operand.stateIn, ht, hs]
  | _ => rfl

theorem IsPart.decisionIn (h : IsPart t s) (hspans : t.Spans known) {g : Gate}
    (hg : ∀ o ∈ g.operands, o.isWithin known = true) : g.decisionIn t = g.decisionIn s := by
  have hstates : g.operands.map (Operand.stateIn t) = g.operands.map (Operand.stateIn s) :=
    List.map_congr_left fun o ho => h.stateIn hspans (hg o ho)
  have hevidence : g.operands.map (Operand.evidenceIn t) = g.operands.map (Operand.evidenceIn s) :=
    List.map_congr_left fun o ho => by rw [Operand.evidenceIn, Operand.evidenceIn, h.stateIn hspans (hg o ho)]
  rw [Gate.decisionIn, Gate.decisionIn, hstates, hevidence]

end Scope

namespace Blueprint.Setting

variable {env : Setting} {context : Value} {s t : Scope} {known : List Value}

/-! ## One gate -/

theorem resolveOperand_given {o : Operand} (ho : o.isGiven = true) (hspans : t.Spans known) {before : List Decision}
    {gate : Value} {state : State} :
    (env.resolveOperand t before gate o).result = .ok state ↔ o.isWithin known = true ∧ state = o.stateIn t := by
  cases o with
  | literal s => exact ⟨fun h => ⟨rfl, (Except.ok.inj h).symm⟩, fun h => congrArg _ h.2.symm⟩
  | reference name negated =>
    simp only [resolveOperand]
    constructor
    · intro h
      obtain ⟨found, hfound, h⟩ := Outcome.result_bind_eq_ok.1 h
      have hfind : Table.find? t (.str name) = some found := refer_ok hfound
      refine ⟨?_, ?_⟩
      · rw [Operand.isWithin, ← hspans (.str name) rfl, hfind]
        rfl
      · rw [Operand.stateIn, hfind]
        exact (Except.ok.inj h).symm
    · rintro ⟨hwithin, rfl⟩
      obtain ⟨found, hfind⟩ := Option.isSome_iff_exists.1 ((hspans (.str name) rfl).trans hwithin)
      refine Outcome.result_bind_eq_ok.2 ⟨found, ?_, ?_⟩
      · rw [refer, hfind]
        rfl
      · rw [Operand.stateIn, hfind]
        rfl
  | expression => cases ho
  | computed => cases ho

theorem gather_given {os : List Operand} (hos : ∀ o ∈ os, o.isGiven = true) (hspans : t.Spans known)
    {before : List Decision} {gate : Value} {evidence : List Evidence} :
    (env.gather t before gate os).result = .ok evidence ↔
      (∀ o ∈ os, o.isWithin known = true) ∧ evidence = os.map (Operand.evidenceIn t) := by
  induction os generalizing evidence with
  | nil => exact ⟨fun h => ⟨List.forall_mem_nil _, (Except.ok.inj h).symm⟩, fun h => congrArg _ h.2.symm⟩
  | cons o os ih =>
    obtain ⟨ho, hos⟩ := List.forall_mem_cons.1 hos
    simp only [gather]
    constructor
    · intro h
      obtain ⟨state, hstate, h⟩ := Outcome.result_bind_eq_ok.1 h
      obtain ⟨others, hothers, h⟩ := Outcome.result_bind_eq_ok.1 h
      obtain ⟨hwithin, rfl⟩ := (resolveOperand_given ho hspans).1 hstate
      obtain ⟨hrest, rfl⟩ := (ih hos).1 hothers
      exact ⟨List.forall_mem_cons.2 ⟨hwithin, hrest⟩, (Except.ok.inj h).symm⟩
    · rintro ⟨hall, rfl⟩
      obtain ⟨hwithin, hrest⟩ := List.forall_mem_cons.1 hall
      exact Outcome.result_bind_eq_ok.2 ⟨_, (resolveOperand_given ho hspans).2 ⟨hwithin, rfl⟩,
        Outcome.result_bind_eq_ok.2 ⟨_, (ih hos).2 ⟨hrest, rfl⟩, rfl⟩⟩

/-- A gate of the kind is decided when it refers to what is known, and as its scope says. -/
theorem decideGate_given {g : Gate} (hg : g.IsGiven) (hspans : t.Spans known) {before : List Decision} {d : Decision} :
    (env.decideGate context t before g).result = .ok d ↔
      (∀ o ∈ g.operands, o.isWithin known = true) ∧ d = g.decisionIn t := by
  have hstates : (g.operands.map (Operand.evidenceIn t)).map Evidence.state = g.operands.map (Operand.stateIn t) :=
    List.map_map
  rw [decideGate_ok]
  constructor
  · rintro ⟨evidence, state, hevidence, hstate, rfl⟩
    obtain ⟨hwithin, rfl⟩ := (gather_given hg.operands hspans).1 hevidence
    rw [if_neg hg.operator, hstates] at hstate
    exact ⟨hwithin, by rw [Gate.decisionIn, hstate]⟩
  · rintro ⟨hwithin, rfl⟩
    refine ⟨_, _, (gather_given hg.operands hspans).2 ⟨hwithin, rfl⟩, ?_, rfl⟩
    rw [if_neg hg.operator, hstates]

/-! ## Solutions -/

/-- Whether the states of a scope are those of the inputs and of the gates among them. -/
structure Solves (env : Setting) (b : Blueprint) (context : Value) (s : Scope) : Prop where
  inputs : ∀ p ∈ b.inputs, ∃ state, (env.resolveInput context p.2).result = .ok state ∧ s.Holds (.str p.1) state
  gates : ∀ g ∈ b.gates, g.name.isKey = true ∧ s.Holds g.name (g.decisionIn s).state

/-- Whether a report has the decisions of a solution, and its state under the output. -/
structure Tells (b : Blueprint) (s : Scope) (r : Report) : Prop where
  decisions : r.decisions = b.gates.map (Gate.decisionIn s)
  result : b.output ≠ .null → b.output.isAtom = true → b.output.isAmong (b.inputNames ++ b.gateNames) = true →
    Table.find? s b.output = some r.result

/-- Names of which none is another. -/
def Different (names : List Value) : Prop := names.Pairwise fun p q => p.same q = false

theorem Different.new {name : Value} {rest : List Value} (h : Different (known ++ name :: rest)) :
    ∀ k ∈ known, k.same name = false :=
  fun k hk => (List.pairwise_append.1 h).2.2 k hk name List.mem_cons_self

/-! ### What an evaluation finds -/

theorem resolveInputs_holds {inputs : List (String × Source)} (hspans : t.Spans known)
    (hnames : Different (known ++ inputs.map fun p => .str p.1))
    (h : (env.resolveInputs context t inputs).result = .ok s) :
    t.IsPart s ∧ s.Spans (known ++ inputs.map fun p => .str p.1) ∧
      ∀ p ∈ inputs, ∃ state, (env.resolveInput context p.2).result = .ok state ∧ s.Holds (.str p.1) state := by
  induction inputs generalizing t known with
  | nil =>
    cases h
    rw [List.map_nil, List.append_nil]
    exact ⟨.refl _, hspans, List.forall_mem_nil _⟩
  | cons p inputs ih =>
    obtain ⟨state, hstate, h⟩ := resolveInputs_cons_ok.1 h
    have hpart := Scope.isPart_set hspans hnames.new state
    rw [List.map_cons, List.append_cons] at hnames ⊢
    obtain ⟨hrest, hspans, hall⟩ := ih (hspans.set _ state) hnames h
    have hfirst : s.Holds (.str p.1) state := hrest.holds (Scope.holds_set t _ state)
    exact ⟨hpart.trans hrest, hspans, List.forall_mem_cons.2 ⟨⟨state, hstate, hfirst⟩, hall⟩⟩

/-- By induction on the gates: what a gate sees is part of the scope in the end, so it is
    decided as it would be there. -/
theorem decideAll_solves {gates : List Gate} (hgates : ∀ g ∈ gates, g.IsGiven) (hspans : t.Spans known)
    (hnames : Different (known ++ gates.map Gate.name)) {before decisions : List Decision}
    (h : (env.decideAll context t before gates).result = .ok (s, decisions)) :
    t.IsPart s ∧ s.Spans (known ++ gates.map Gate.name) ∧ decisions = before ++ gates.map (Gate.decisionIn s) ∧
      ∀ g ∈ gates, g.name.isKey = true ∧ s.Holds g.name (g.decisionIn s).state := by
  induction gates generalizing t known before with
  | nil =>
    cases h
    rw [List.map_nil, List.map_nil, List.append_nil, List.append_nil]
    exact ⟨.refl _, hspans, rfl, List.forall_mem_nil _⟩
  | cons g gates ih =>
    obtain ⟨hg, hgates⟩ := List.forall_mem_cons.1 hgates
    obtain ⟨d, hd, hkey, h⟩ := decideAll_cons_ok.1 h
    obtain ⟨hwithin, rfl⟩ := (decideGate_given hg hspans).1 hd
    have hpart := Scope.isPart_set hspans hnames.new (g.decisionIn t).state
    rw [List.map_cons, List.append_cons] at hnames ⊢
    obtain ⟨hrest, hspans', rfl, hall⟩ := ih hgates (hspans.set _ _) hnames h
    have hsame : g.decisionIn t = g.decisionIn s := (hpart.trans hrest).decisionIn hspans hwithin
    have hfirst : s.Holds g.name (g.decisionIn s).state := by
      rw [← hsame]
      exact hrest.holds (Scope.holds_set t _ _)
    refine ⟨hpart.trans hrest, hspans', ?_, List.forall_mem_cons.2 ⟨⟨hkey, hfirst⟩, hall⟩⟩
    rw [hsame, List.map_cons, List.append_assoc, List.singleton_append]

/-- The state under an output that is found. -/
theorem select_found {output : Value} (hnull : output ≠ .null) {decisions : List Decision} {state result : State}
    (hfind : Table.find? s output = some state) (h : select output s decisions = .ok result) : result = state := by
  rw [select_key hnull, hfind] at h
  split at h
  · exact (Except.ok.inj h).symm
  · cases h

/-- An evaluation that makes a report has found a solution. -/
theorem evaluate_solves {b : Blueprint} {r : Report} (hnames : Different (b.inputNames ++ b.gateNames))
    (hgates : ∀ g ∈ b.gates, g.IsGiven) (hr : (env.evaluate b context).result = .ok r) :
    ∃ s, Solves env b context s ∧ Tells b s r := by
  obtain ⟨t, s, decisions, result, hinputs, hdecisions, hselect, rfl⟩ := evaluate_ok.1 hr
  have hdifferent : Different ([] ++ b.inputNames) := (List.pairwise_append.1 hnames).1
  obtain ⟨-, hspans, hresolved⟩ := resolveInputs_holds Scope.spans_nil hdifferent hinputs
  obtain ⟨hpart, hall, rfl, hdecided⟩ := decideAll_solves hgates hspans hnames hdecisions
  refine ⟨s, ⟨fun p hp => ?_, hdecided⟩, ⟨rfl, fun hnull hatom hamong => ?_⟩⟩
  · obtain ⟨state, hstate, hholds⟩ := hresolved p hp
    exact ⟨state, hstate, hpart.holds hholds⟩
  · obtain ⟨state, hfind⟩ := Option.isSome_iff_exists.1 ((hall b.output hatom).trans hamong)
    rw [hfind, select_found hnull hfind hselect]

/-! ### What a solution foretells -/

theorem resolveInputs_part {inputs : List (String × Source)} (hpart : t.IsPart s) (hspans : t.Spans known)
    (h : ∀ p ∈ inputs, ∃ state, (env.resolveInput context p.2).result = .ok state ∧ s.Holds (.str p.1) state) :
    ∃ t', (env.resolveInputs context t inputs).result = .ok t' ∧ t'.IsPart s ∧
      t'.Spans (known ++ inputs.map fun p => .str p.1) := by
  induction inputs generalizing t known with
  | nil =>
    rw [List.map_nil, List.append_nil]
    exact ⟨t, rfl, hpart, hspans⟩
  | cons p inputs ih =>
    obtain ⟨⟨state, hstate, hholds⟩, hrest⟩ := List.forall_mem_cons.1 h
    obtain ⟨t', ht', hpart', hspans'⟩ := ih (hpart.set hholds) (hspans.set _ state) hrest
    rw [List.map_cons, List.append_cons]
    exact ⟨t', resolveInputs_cons_ok.2 ⟨state, hstate, ht'⟩, hpart', hspans'⟩

/-- By induction on the gates: each sees a part of the solution that has all it refers to. -/
theorem decideAll_part {gates : List Gate} (hgates : ∀ g ∈ gates, g.IsGiven) (hpart : t.IsPart s)
    (hspans : t.Spans known) (hgrounded : Gate.areGrounded known gates = true)
    (h : ∀ g ∈ gates, g.name.isKey = true ∧ s.Holds g.name (g.decisionIn s).state) (before : List Decision) :
    ∃ t', (env.decideAll context t before gates).result = .ok (t', before ++ gates.map (Gate.decisionIn s)) ∧
      t'.IsPart s ∧ t'.Spans (known ++ gates.map Gate.name) := by
  induction gates generalizing t known before with
  | nil =>
    rw [List.map_nil, List.map_nil, List.append_nil, List.append_nil]
    exact ⟨t, rfl, hpart, hspans⟩
  | cons g gates ih =>
    obtain ⟨hg, hgates⟩ := List.forall_mem_cons.1 hgates
    obtain ⟨⟨hkey, hholds⟩, hrest⟩ := List.forall_mem_cons.1 h
    obtain ⟨hwithin, hgrounded⟩ := Gate.areGrounded_cons.1 hgrounded
    have hd : (env.decideGate context t before g).result = .ok (g.decisionIn s) :=
      (decideGate_given hg hspans).2 ⟨hwithin, (hpart.decisionIn hspans hwithin).symm⟩
    obtain ⟨t', ht', hpart', hspans'⟩ :=
      ih hgates (hpart.set hholds) (hspans.set _ _) hgrounded hrest (before ++ [g.decisionIn s])
    rw [List.map_cons, List.map_cons, List.append_cons known, List.append_cons before]
    exact ⟨t', decideAll_cons_ok.2 ⟨_, hd, hkey, ht'⟩, hpart', hspans'⟩

/-- Any order of gates that see what they refer to arrives at the solution. -/
theorem evaluate_of_solves {b : Blueprint} (hgates : ∀ g ∈ b.gates, g.IsGiven) (hgrounded : b.isGrounded = true)
    (h : Solves env b context s) (houtput : ∀ scope decisions, ∃ result, select b.output scope decisions = .ok result) :
    ∃ r, (env.evaluate b context).result = .ok r ∧ Tells b s r := by
  obtain ⟨t, ht, hpart, hspans⟩ := resolveInputs_part (Scope.isPart_nil s) Scope.spans_nil h.inputs
  obtain ⟨t', ht', hpart', hspans'⟩ := decideAll_part hgates hpart hspans hgrounded h.gates []
  obtain ⟨result, hresult⟩ := houtput t' (b.gates.map (Gate.decisionIn s))
  refine ⟨_, evaluate_ok.2 ⟨t, t', _, result, ht, ht', hresult, rfl⟩, rfl, fun hnull hatom hamong => ?_⟩
  obtain ⟨state, hfind, hsolved⟩ := hpart'.find? hspans' hatom hamong
  rw [hsolved, select_found hnull hfind hresult]

/-- Whether an output can be looked up does not depend on what is there. -/
theorem select_anywhere {output : Value} {decisions : List Decision} {result : State}
    (h : select output s decisions = .ok result) (scope : Scope) (others : List Decision) :
    ∃ result, select output scope others = .ok result := by
  by_cases hnull : output = .null
  · exact hnull ▸ ⟨_, rfl⟩
  · rw [select_key hnull] at h ⊢
    split at h
    · next hkey => exact ⟨_, if_pos hkey⟩
    · cases h

end Blueprint.Setting

/-! ## Orders of gates -/

namespace Blueprint

open Setting (Solves Different)

/-- Blueprints with the same inputs, gates and output, in whatever order. -/
structure Reorders (b b' : Blueprint) : Prop where
  inputs : b.inputs.Perm b'.inputs
  gates : b.gates.Perm b'.gates
  output : b.output = b'.output

variable {env : Setting} {b b' : Blueprint} {context : Value}

theorem Reorders.solves (h : Reorders b b') {s : Scope} (hs : Solves env b context s) : Solves env b' context s :=
  ⟨fun p hp => hs.inputs p (h.inputs.mem_iff.2 hp), fun g hg => hs.gates g (h.gates.mem_iff.2 hg)⟩

/-- When a blueprint of references and fixed states makes a report, so does any reordering
    of it in which each gate refers to inputs and to gates before it, with the same decision
    for each gate and the same state under the output. -/
theorem reordered_gates_agree {r : Report} (h : Reorders b b') (hgates : ∀ g ∈ b.gates, g.IsGiven)
    (hnames : Different (b.inputNames ++ b.gateNames)) (hgrounded : b'.isGrounded = true)
    (hr : (env.evaluate b context).result = .ok r) :
    ∃ r', (env.evaluate b' context).result = .ok r' ∧
      (∃ decision : Gate → Decision, (∀ g, (decision g).name = g.name) ∧
        r.decisions = b.gates.map decision ∧ r'.decisions = b'.gates.map decision) ∧
      (b.output ≠ .null → b.output.isAtom = true → b.output.isAmong (b.inputNames ++ b.gateNames) = true →
        r'.result = r.result) := by
  obtain ⟨s, hs, htells⟩ := Setting.evaluate_solves hnames hgates hr
  obtain ⟨scope, scope', ds, result, -, -, hselect, -⟩ := evaluate_ok.1 hr
  rw [h.output] at hselect
  have hgates' : ∀ g ∈ b'.gates, g.IsGiven := fun g hg => hgates g (h.gates.mem_iff.2 hg)
  obtain ⟨r', hr', htells'⟩ :=
    Setting.evaluate_of_solves hgates' hgrounded (h.solves hs) (Setting.select_anywhere hselect)
  refine ⟨r', hr', ⟨Gate.decisionIn s, fun _ => rfl, htells.decisions, htells'.decisions⟩, ?_⟩
  intro hnull hatom hamong
  have hamong' : b'.output.isAmong (b'.inputNames ++ b'.gateNames) = true := by
    obtain ⟨name, hname, hsame⟩ := List.any_eq_true.1 hamong
    have hperm : (b.inputNames ++ b.gateNames).Perm (b'.inputNames ++ b'.gateNames) :=
      (h.inputs.map _).append (h.gates.map _)
    exact h.output ▸ List.any_eq_true.2 ⟨name, hperm.mem_iff.1 hname, hsame⟩
  have hfound := htells.result hnull hatom hamong
  rw [h.output] at hnull hatom hfound
  exact Option.some.inj ((htells'.result hnull hatom hamong').symm.trans hfound)

/-- The last two gates change places, and so do the inputs. -/
theorem reordered_gates_agree_turned :
    let env : Setting := ⟨.standard, .none⟩
    let context : Value := .map [(.str "user", .map [(.str "c", .bool false)])]
    let x : Gate := ⟨.str "x", .and, [.reference "a" false, .reference "c" true], [], .null, .null, none⟩
    let y : Gate := ⟨.str "y", .not, [.reference "x" false], [], .null, .str "turned", none⟩
    let z : Gate := ⟨.str "z", .weighted, [.reference "a" false, .literal .unknown], [2, 1], .null, .null, none⟩
    let inputs : List (String × Source) := [("a", .literal .yes), ("c", .context "user.c")]
    let b : Blueprint := { inputs, gates := [x, y, z], output := .str "y", name := .null, source := none }
    let b' : Blueprint := {
      inputs := inputs.reverse, gates := [x, z, y], output := .str "y", name := .null, source := none }
    ∃ r r', (env.evaluate b context).result = .ok r ∧ (env.evaluate b' context).result = .ok r' ∧
      r.encoded = "+-+" ∧ r.result = .no ∧ r'.result = .no ∧
      ∃ decision : Gate → Decision, r.decisions = [x, y, z].map decision ∧ r'.decisions = [x, z, y].map decision := by
  intro env context x y z inputs b b'
  have hreorders : Reorders b b' := ⟨(List.reverse_perm inputs).symm, .cons x (.swap z y []), rfl⟩
  have hgates : ∀ g ∈ b.gates, g.IsGiven := by
    have hx : x.IsGiven := ⟨by decide, by decide⟩
    have hy : y.IsGiven := ⟨by decide, by decide⟩
    have hz : z.IsGiven := ⟨by decide, by decide⟩
    exact List.forall_mem_cons.2 ⟨hx, List.forall_mem_cons.2 ⟨hy, List.forall_mem_singleton.2 hz⟩⟩
  have hnames : Different (b.inputNames ++ b.gateNames) := by
    unfold Different
    decide
  obtain ⟨r, hr, hencoded, hresult⟩ :
      ∃ r, (env.evaluate b context).result = .ok r ∧ r.encoded = "+-+" ∧ r.result = .no := ⟨_, rfl, rfl, rfl⟩
  obtain ⟨r', hr', ⟨decision, -, hds, hds'⟩, hsame⟩ := reordered_gates_agree hreorders hgates hnames (by decide) hr
  have houtput : r'.result = r.result := hsame nofun rfl (by decide)
  exact ⟨r, r', hr, hr', hencoded, hresult, houtput.trans hresult, decision, hds, hds'⟩

end Blueprint

end Verdict
