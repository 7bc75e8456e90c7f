/-
  Verdict.Proofs.Replay — a report replays its blueprint.

  The decisions of a report are those of the gates, one for each and in their order
  (`Replays`). The evidence for an operand that refers to a name shows the state of the
  latest earlier decision of that name, else that of the input (`standing?`), inverted if
  the operand is negated, and what the operator makes of the evidence is the decision.
  The invariant behind it is that the scope holds, under every key without parts, what
  that key stands for after the decisions so far (`Tracks`).
-/

import Verdict.Blueprint.Evaluation
import Verdict.Proofs.Keys
import Verdict.Proofs.Results
import Verdict.Proofs.Votes
import Mathlib.Data.List.Forall2

namespace Verdict

/-! ## What a faithful report is -/

/-- The latest decision of a name. -/
def Decision.latest? (decisions : List Decision) (name : Value) : Option Decision :=
  decisions.reverse.find? fun d => d.name.same name

/-- What an operator makes of the states of its operands. An expression does not look at
    them. -/
def Operator.Makes (o : Operator) (weights : List Int) (states : List State) (s : State) : Prop :=
  match o with
  | .and => s = states.foldr State.and .yes
  | .or => s = states.foldr State.or .no
  | .not => s = match states with | [] => .unknown | first :: _ => first.invert
  | .consensus => s = .ofTrit (.ofInt (states.map State.toInt).sum)
  | .weighted =>
    -- positions without a weight count once
    let padded := weights ++ List.replicate (states.length - weights.length) 1
    s = .ofTrit (.ofInt (List.zipWith (fun s w => s.toInt * w) states padded).sum)
  | .expression => True

namespace Blueprint

/-- The source of the input of a name. -/
def input? (b : Blueprint) (name : Value) : Option Source :=
  (b.inputs.reverse.find? fun p => (Value.str p.1).same name).map (·.2)

section

variable (env : Setting) (b : Blueprint) (context : Value)

/-- The state that a name stands for after the decisions `before`: that of the latest of
    them under the name, else that of the input. -/
def standing? (before : List Decision) (name : Value) : Option State :=
  match Decision.latest? before name with
  | some d => some d.state
  | none => (b.input? name).bind fun source => (env.resolveInput context source).result.toOption

/-- Under every key without parts the scope holds what the key stands for. -/
def Tracks (scope : Scope) (before : List Decision) : Prop :=
  ∀ key : Value, key.isAtom = true → Table.find? scope key = standing? env b context before key

/-- What the evidence for an operand has to say. -/
structure Explains (before : List Decision) (o : Operand) (e : Evidence) : Prop where
  label : e.operand = o.label
  state : match o with
    | .reference name negated => ∃ s, standing? env b context before (.str name) = some s ∧
        e.state = if negated then s.invert else s
    | .literal s => e.state = s
    | .expression text => ∃ scope, Tracks env b context scope before ∧
        (env.logic.expression (.str text) (.map scope.toEntries)).result = .ok e.state
    | .computed f _ => ∃ scope v, Tracks env b context scope before ∧
        (env.host.operand f scope before).result = .ok v ∧ v.toState = .ok e.state

/-- What the decision of a gate has to say. -/
structure Decides (before : List Decision) (g : Gate) (d : Decision) : Prop where
  name : d.name = g.name
  description : d.description = g.description
  operator : d.operator = g.operatorLabel
  evidence : List.Forall₂ (Explains env b context before) g.operands d.evidence
  state : if g.operator = .expression then
      ∃ scope, Tracks env b context scope before ∧
        (env.express context scope g.expression).result = .ok d.state
    else g.operator.Makes g.weights (d.evidence.map Evidence.state) d.state

/-- The state that a blueprint puts out after its decisions: what its output stands for,
    else the state of the last decision. -/
def putOut (decisions : List Decision) : State :=
  let last := (decisions.getLast?.map Decision.state).getD .unknown
  match b.output with
  | .null => last
  | name => (standing? env b context decisions name).getD last

/-- The decisions are those of the gates, one for each, in their order. -/
inductive Replays : List Decision → List Gate → List Decision → Prop
  | nil (before : List Decision) : Replays before [] []
  | cons {before : List Decision} {g : Gate} {d : Decision} {gs : List Gate} {ds : List Decision} :
      Decides env b context before g d → Replays (before ++ [d]) gs ds →
      Replays before (g :: gs) (d :: ds)

end

/-! ## Operators -/

theorem apply_makes (o : Operator) (weights : List Int) (states : List State) :
    o.Makes weights states (o.apply weights states) := by
  cases o with
  | and => exact Vote.all_eq_foldr states
  | or => exact Vote.any_eq_foldr states
  | not => cases states <;> rfl
  | consensus => exact Vote.consensus_eq_sum states
  | weighted => exact congrArg (fun n => State.ofTrit (.ofInt n)) (Vote.weightedSum_eq_sum weights states)
  | expression => trivial

/-! ## The scope tracks what names stand for -/

section

variable {env : Setting} {b : Blueprint} {context : Value}

theorem latest?_append (before : List Decision) (d : Decision) (name : Value) :
    Decision.latest? (before ++ [d]) name =
      if d.name.same name then some d else Decision.latest? before name := by
  simp only [Decision.latest?, List.reverse_append, List.reverse_singleton, List.singleton_append,
    List.find?_cons]
  cases d.name.same name <;> rfl

/-- Where no name is decided twice, the latest decision of a name is the first. -/
theorem latest?_of_distinct {decisions : List Decision}
    (h : (decisions.map Decision.name).Pairwise fun k k' => k.same k' = false) {key : Value}
    (hk : key.isAtom = true) :
    Decision.latest? decisions key = decisions.find? fun d => d.name.same key := by
  have htable (ds : List Decision) :
      Table.find? (ds.map fun d => (d.name, d)) key = ds.find? fun d => d.name.same key := by
    rw [Table.find?, List.find?_map, Option.map_map]
    exact congrFun Option.map_id _
  have hdistinct : Table.Distinct (decisions.map fun d => (d.name, d)) :=
    List.pairwise_map.2 (List.pairwise_map.1 h)
  rw [← htable, ← hdistinct.find?_reverse hk, ← List.map_reverse, htable]
  rfl

theorem standing?_append (before : List Decision) (d : Decision) (name : Value) :
    standing? env b context (before ++ [d]) name =
      if d.name.same name then some d.state else standing? env b context before name := by
  simp only [standing?, latest?_append]
  by_cases h : d.name.same name = true <;> simp [h]

theorem Tracks.set {scope : Scope} {before : List Decision} (h : Tracks env b context scope before)
    (d : Decision) : Tracks env b context (Table.set scope d.name d.state) (before ++ [d]) := by
  intro key hk
  rw [Table.find?_set scope _ _ hk, standing?_append, h key hk]

/-- Inputs resolved one after the other leave, under every key, the last input of that name. -/
theorem find?_resolveInputs {inputs : List (String × Source)} {scope scope' : Scope}
    (h : (env.resolveInputs context scope inputs).result = .ok scope') {key : Value}
    (hk : key.isAtom = true) :
    Table.find? scope' key = match inputs.reverse.find? fun p => (Value.str p.1).same key with
      | some p => (env.resolveInput context p.2).result.toOption
      | none => Table.find? scope key := by
  induction inputs generalizing scope with
  | nil => cases h; rfl
  | cons p inputs ih =>
    obtain ⟨name, source⟩ := p
    simp only [Setting.resolveInputs] at h
    obtain ⟨s, hs, h⟩ := Outcome.result_bind_eq_ok.1 h
    rw [ih h, List.reverse_cons, List.find?_append]
    cases inputs.reverse.find? fun p => (Value.str p.1).same key with
    | some p => rfl
    | none =>
      rw [Table.find?_set scope _ _ hk, Option.none_or, List.find?_singleton]
      by_cases hn : (Value.str name).same key = true
      · simp only [hn, if_true, hs, Except.toOption]
      · simp only [hn, if_false, Bool.false_eq_true]

theorem tracks_inputs {scope : Scope}
    (h : (env.resolveInputs context [] b.inputs).result = .ok scope) :
    Tracks env b context scope [] := by
  intro key hk
  rw [find?_resolveInputs h hk]
  simp only [standing?, Decision.latest?, List.reverse_nil, List.find?_nil, input?]
  cases b.inputs.reverse.find? fun p => (Value.str p.1).same key <;> rfl

/-- A scope that tracks decisions with different names holds the state of each. -/
theorem Tracks.decided {scope : Scope} {decisions : List Decision} (h : Tracks env b context scope decisions)
    (hnames : (decisions.map Decision.name).Pairwise fun k k' => k.same k' = false) {name : String}
    (hname : .str name ∈ decisions.map Decision.name) :
    ∃ d, (decisions.find? fun d => d.name.same (.str name)) = some d ∧
      Table.find? scope (.str name) = some d.state := by
  obtain ⟨d, hd⟩ : ∃ d, (decisions.find? fun d => d.name.same (.str name)) = some d := by
    obtain ⟨d, hd, hsame⟩ := List.mem_map.1 hname
    rw [← Option.isSome_iff_exists, List.find?_isSome]
    exact ⟨d, hd, by rw [hsame]; exact (Value.same_str _ _).2 rfl⟩
  refine ⟨d, hd, ?_⟩
  rw [h _ rfl]
  unfold standing?
  rw [latest?_of_distinct hnames rfl, hd]

/-! ## Gates -/

theorem refer_ok {scope : Scope} {gate : Value} {name : String} {s : State}
    (h : Setting.refer scope gate name = .ok s) : Table.find? scope (.str name) = some s := by
  simp only [Setting.refer] at h
  split at h
  · next hf => cases h; exact hf
  · obtain ⟨_, _, h⟩ := bind_eq_ok.1 h
    cases h

theorem resolveOperand_explains {scope : Scope} {before : List Decision} {gate : Value} {o : Operand}
    {s : State} (ht : Tracks env b context scope before)
    (h : (env.resolveOperand scope before gate o).result = .ok s) :
    Explains env b context before o ⟨o.label, s⟩ := by
  refine ⟨rfl, ?_⟩
  cases o with
  | reference name negated =>
    simp only [Setting.resolveOperand] at h
    obtain ⟨found, hf, h⟩ := Outcome.result_bind_eq_ok.1 h
    cases h
    exact ⟨found, by rw [← ht _ rfl]; exact refer_ok hf, rfl⟩
  | literal t => cases h; rfl
  | expression text => exact ⟨scope, ht, h⟩
  | computed f label =>
    simp only [Setting.resolveOperand] at h
    obtain ⟨v, hv, h⟩ := Outcome.result_bind_eq_ok.1 h
    exact ⟨scope, v, ht, hv, h⟩

theorem gather_explains {scope : Scope} {before : List Decision} {gate : Value} {os : List Operand}
    {es : List Evidence} (ht : Tracks env b context scope before)
    (h : (env.gather scope before gate os).result = .ok es) :
    List.Forall₂ (Explains env b context before) os es := by
  induction os generalizing es with
  | nil => cases h; exact .nil
  | cons o os ih =>
    simp only [Setting.gather] at h
    obtain ⟨s, hs, h⟩ := Outcome.result_bind_eq_ok.1 h
    obtain ⟨others, ho, h⟩ := Outcome.result_bind_eq_ok.1 h
    cases h
    exact .cons (resolveOperand_explains ht hs) (ih ho)

/-- A gate is decided when its evidence is there and, for an expression, that has a state. -/
theorem decideGate_ok {scope : Scope} {before : List Decision} {g : Gate} {d : Decision} :
    (env.decideGate context scope before g).result = .ok d ↔
      ∃ evidence state, (env.gather scope before g.name g.operands).result = .ok evidence ∧
        (if g.operator = .expression then (env.express context scope g.expression).result = .ok state
          else g.operator.apply g.weights (evidence.map Evidence.state) = state) ∧
        d = ⟨g.name, state, g.operatorLabel, evidence, g.description⟩ := by
  simp only [Setting.decideGate]
  by_cases hx : g.operator = .expression
  · simp only [hx, if_true]
    constructor
    · intro h
      obtain ⟨evidence, hev, h⟩ := Outcome.result_bind_eq_ok.1 h
      obtain ⟨state, hs, h⟩ := Outcome.result_bind_eq_ok.1 h
      cases h
      exact ⟨evidence, state, hev, hs, rfl⟩
    · rintro ⟨evidence, state, hev, hs, rfl⟩
      exact Outcome.result_bind_eq_ok.2 ⟨evidence, hev, Outcome.result_bind_eq_ok.2 ⟨state, hs, rfl⟩⟩
  · simp only [hx, if_false]
    constructor
    · intro h
      obtain ⟨evidence, hev, h⟩ := Outcome.result_bind_eq_ok.1 h
      cases h
      exact ⟨evidence, _, hev, rfl, rfl⟩
    · rintro ⟨evidence, _, hev, rfl, rfl⟩
      exact Outcome.result_bind_eq_ok.2 ⟨evidence, hev, rfl⟩

theorem decideGate_decides {scope : Scope} {before : List Decision} {g : Gate} {d : Decision}
    (ht : Tracks env b context scope before)
    (h : (env.decideGate context scope before g).result = .ok d) :
    Decides env b context before g d := by
  obtain ⟨evidence, state, hev, hs, rfl⟩ := decideGate_ok.1 h
  refine ⟨rfl, rfl, rfl, gather_explains ht hev, ?_⟩
  split at hs
  · next hx => rw [if_pos hx]; exact ⟨scope, ht, hs⟩
  · next hx => rw [if_neg hx, ← hs]; exact apply_makes _ _ _

theorem announce_ok {scope scope' : Scope} {d : Decision} :
    (Setting.announce scope d).result = .ok scope' ↔
      d.name.isKey = true ∧ scope' = Table.set scope d.name d.state := by
  unfold Setting.announce
  cases hk : d.name.isKey with
  | false => exact ⟨fun h => (nomatch h), fun h => (nomatch h.1)⟩
  | true =>
    constructor
    · intro h
      obtain ⟨_, -, h⟩ := Outcome.result_bind_eq_ok.1 h
      cases h
      exact ⟨rfl, rfl⟩
    · rintro ⟨-, rfl⟩
      exact Outcome.result_bind_eq_ok.2 ⟨(), rfl, rfl⟩

/-- Deciding a gate and those after it: the decision comes first, and its state is known
    to the others. -/
theorem decideAll_cons_ok {scope scope' : Scope} {before decisions : List Decision} {g : Gate}
    {gates : List Gate} :
    (env.decideAll context scope before (g :: gates)).result = .ok (scope', decisions) ↔
      ∃ d, (env.decideGate context scope before g).result = .ok d ∧ d.name.isKey = true ∧
        (env.decideAll context (Table.set scope d.name d.state) (before ++ [d]) gates).result
          = .ok (scope', decisions) := by
  simp only [Setting.decideAll]
  constructor
  · intro h
    obtain ⟨d, hd, h⟩ := Outcome.result_bind_eq_ok.1 h
    obtain ⟨next, hn, h⟩ := Outcome.result_bind_eq_ok.1 h
    obtain ⟨hk, rfl⟩ := announce_ok.1 hn
    exact ⟨d, hd, hk, h⟩
  · rintro ⟨d, hd, hk, h⟩
    exact Outcome.result_bind_eq_ok.2 ⟨d, hd, Outcome.result_bind_eq_ok.2 ⟨_, announce_ok.2 ⟨hk, rfl⟩, h⟩⟩

/-- Deciding gates adds their decisions to those so far, and the scope goes on tracking. -/
theorem decideAll_replays {gates : List Gate} {scope scope' : Scope} {before decisions : List Decision}
    (ht : Tracks env b context scope before)
    (h : (env.decideAll context scope before gates).result = .ok (scope', decisions)) :
    ∃ ds, decisions = before ++ ds ∧ Replays env b context before gates ds ∧
      Tracks env b context scope' decisions := by
  induction gates generalizing scope before with
  | nil => cases h; exact ⟨[], (List.append_nil _).symm, .nil _, ht⟩
  | cons g gates ih =>
    obtain ⟨d, hd, -, h⟩ := decideAll_cons_ok.1 h
    have hdec := decideGate_decides ht hd
    obtain ⟨ds, rfl, hr, ht'⟩ := ih (ht.set d) h
    exact ⟨d :: ds, by simp, .cons hdec hr, ht'⟩

theorem Replays.names {before ds : List Decision} {gates : List Gate} (h : Replays env b context before gates ds) :
    ds.map Decision.name = gates.map Gate.name := by
  induction h with
  | nil => rfl
  | cons hd _ ih => rw [List.map_cons, List.map_cons, hd.name, ih]

end

/-! ## Labels and codes -/

/-- A string operand is labelled by its own text, whatever it starts with. -/
theorem label_ofText (s : String) : (Operand.ofText s).label = s := by
  unfold Operand.ofText
  split
  · next rest h => simp [Operand.label, ← String.toList_inj, h]
  · next rest h => simp [Operand.label, ← String.toList_inj, h]
  · rfl

theorem label_ofValue {s : String} {index : Nat} {o : Operand}
    (h : Operand.ofValue (.str s) index = .ok o) : o.label = s := by
  cases h
  exact label_ofText s

theorem decodeStates_encodeStates (states : List State) :
    decodeStates (encodeStates states) = .ok states := by
  simp only [decodeStates, encodeStates, String.toList_ofList]
  induction states with
  | nil => rfl
  | cons s states ih =>
    have hs : Trit.ofSymbol s.toTrit.symbol.toString = .ok s.toTrit := by cases s <;> rfl
    simp only [List.map_cons, decodeSymbols, hs, ok_bind, ih, State.ofTrit_toTrit]
    rfl

/-! ## Reports -/

theorem select_key {scope : Scope} {decisions : List Decision} {output : Value} (h : output ≠ .null) :
    Setting.select output scope decisions =
      if output.isKey then .ok ((Table.find? scope output).getD (Setting.lastState decisions))
      else .error .wrongType := by
  cases output with
  | null => exact absurd rfl h
  | _ => rfl

theorem putOut_key {env : Setting} {b : Blueprint} {context : Value} {decisions : List Decision}
    (h : b.output ≠ .null) :
    putOut env b context decisions =
      (standing? env b context decisions b.output).getD (Setting.lastState decisions) := by
  obtain ⟨inputs, gates, output, name, source⟩ := b
  cases output with
  | null => exact absurd rfl h
  | _ => rfl

theorem select_ok {env : Setting} {b : Blueprint} {context : Value} {scope : Scope}
    {decisions : List Decision} {s : State} (ht : Tracks env b context scope decisions)
    (hk : b.output.isAtom = true) (h : Setting.select b.output scope decisions = .ok s) :
    s = putOut env b context decisions := by
  by_cases hn : b.output = .null
  · rw [hn] at h
    cases h
    rw [putOut, hn]
    rfl
  · rw [select_key hn, ht _ hk] at h
    rw [putOut_key hn]
    split at h
    · exact (Except.ok.inj h).symm
    · cases h

/-- What a report is made of. -/
theorem evaluate_ok {env : Setting} {b : Blueprint} {context : Value} {r : Report} :
    (env.evaluate b context).result = .ok r ↔
      ∃ scope scope' decisions result, (env.resolveInputs context [] b.inputs).result = .ok scope ∧
        (env.decideAll context scope [] b.gates).result = .ok (scope', decisions) ∧
        Setting.select b.output scope' decisions = .ok result ∧
        r = ⟨result, decisions, encodeStates (decisions.map Decision.state),
          [(.str "total_gates", .int decisions.length), (.str "blueprint", b.name)]⟩ := by
  simp only [Setting.evaluate]
  constructor
  · intro h
    obtain ⟨scope, hs, h⟩ := Outcome.result_bind_eq_ok.1 h
    obtain ⟨⟨scope', decisions⟩, hd, h⟩ := Outcome.result_bind_eq_ok.1 h
    obtain ⟨result, hsel, h⟩ := Outcome.result_bind_eq_ok.1 h
    cases h
    exact ⟨scope, scope', decisions, result, hs, hd, hsel, rfl⟩
  · rintro ⟨scope, scope', decisions, result, hs, hd, hsel, rfl⟩
    exact Outcome.result_bind_eq_ok.2 ⟨scope, hs, Outcome.result_bind_eq_ok.2
      ⟨(scope', decisions), hd, Outcome.result_bind_eq_ok.2 ⟨result, hsel, rfl⟩⟩⟩

theorem replays_of_report {env : Setting} {b : Blueprint} {context : Value} {r : Report}
    (h : (env.evaluate b context).result = .ok r) : Replays env b context [] b.gates r.decisions := by
  obtain ⟨scope, scope', decisions, s, hs, hd, -, rfl⟩ := evaluate_ok.1 h
  obtain ⟨ds, hds, hr, -⟩ := decideAll_replays (tracks_inputs hs) hd
  obtain rfl : decisions = ds := hds
  exact hr

/-- Every report is a faithful replay: one decision for each gate, in order, with evidence
    for each operand, and a code and a result that follow from the decisions. -/
theorem evaluate_replays {env : Setting} {b : Blueprint} {context : Value} {r : Report}
    (h : (env.evaluate b context).result = .ok r) :
    Replays env b context [] b.gates r.decisions ∧
      (∀ (s : String) (index : Nat) (o : Operand),
        Operand.ofValue (.str s) index = .ok o → o.label = s) ∧
      decodeStates r.encoded = .ok (r.decisions.map Decision.state) ∧
      r.metadata.field "total_gates" = .int r.decisions.length ∧
      (b.output.isAtom = true → r.result = putOut env b context r.decisions) := by
  obtain ⟨scope, scope', decisions, s, hs, hd, hsel, rfl⟩ := evaluate_ok.1 h
  obtain ⟨ds, hds, hr, ht⟩ := decideAll_replays (tracks_inputs hs) hd
  obtain rfl : decisions = ds := hds
  exact ⟨hr, fun _ _ _ => label_ofValue, decodeStates_encodeStates _, rfl, fun hk => select_ok ht hk hsel⟩

/-- The gate `a` hides the input `a`: the gate after it sees the inverted state, and so does
    the output. -/
theorem evaluate_replays_hidden_input :
    let env : Setting := ⟨.standard, .none⟩
    let b : Blueprint := {
      inputs := [("a", .literal .yes), ("b", .context "user.b")]
      gates := [
        ⟨.str "a", .not, [.reference "a" false], [], .null, .str "turned", none⟩,
        ⟨.str "g", .weighted, [.reference "a" true, .reference "b" false, .literal .no], [2], .null, .null, none⟩]
      output := .str "a", name := .null, source := none }
    let context : Value := .map [(.str "user", .map [(.str "b", .bool false)])]
    let decisions : List Decision := [
      ⟨.str "a", .no, "NOT", [⟨"a", .yes⟩], .str "turned"⟩,
      ⟨.str "g", .unknown, "WEIGHTED", [⟨"!a", .yes⟩, ⟨"b", .no⟩, ⟨"false", .no⟩], .null⟩]
    let r : Report :=
      ⟨.no, decisions, "-0", [(.str "total_gates", .int 2), (.str "blueprint", .null)]⟩
    (env.evaluate b context).result = .ok r ∧ Replays env b context [] b.gates decisions ∧
      decodeStates "-0" = .ok [.no, .unknown] ∧ State.no = putOut env b context decisions := by
  intro env b context decisions r
  have h : (env.evaluate b context).result = .ok r := rfl
  obtain ⟨hr, _, hc, _, ho⟩ := evaluate_replays h
  exact ⟨h, hr, hc, ho rfl⟩

end Blueprint

end Verdict
