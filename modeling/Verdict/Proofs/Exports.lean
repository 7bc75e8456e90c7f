/-
  Verdict.Proofs.Exports — what the engine reads from the blueprint of a circuit.

  A circuit exports its inputs and gates as they were given, names and literal values
  alike, and the engine tells them apart when it reads them: a signal becomes the state
  that it stands for, any other operand a name. Tables of circuits have strings as keys,
  each once (`Circuit.Built.inputs_named`), so reading loses none of them.
  - `Circuit.blueprint_read`: the blueprint of a circuit whose gates fit has a source for
    each input and, for each gate, a gate whose operator combines states as the circuit
    does (`Gate.Exports`).
-/

import Verdict.Circuit
import Verdict.Proofs.Leaves
import Verdict.Proofs.Readings

namespace Verdict

/-! ## Signals -/

/-- Whether a value is a state, a digit, a truth value, a whole number or nothing. -/
def Value.isSignal : Value → Bool
  | null | bool _ | int _ | state _ | trit _ => true
  | _ => false

/-- Whether a value is such a signal of a state. -/
structure Value.Signals (v : Value) (s : State) : Prop where
  signal : v.isSignal = true
  state : v.toState = .ok s

namespace Value

theorem signals_state (s : State) : (state s).Signals s := ⟨rfl, rfl⟩

theorem exists_signals {v : Value} (h : v.isSignal = true) : ∃ s, v.Signals s := by
  cases v with
  | null | bool | int | state | trit => exact ⟨_, h, rfl⟩
  | _ => cases h

namespace Signals

variable {v : Value} {s : State}

theorem leaves (h : v.Signals s) : v.leaves = [v] := by
  obtain ⟨hsignal, -⟩ := h
  cases v with
  | null | bool | int | state | trit => rfl
  | _ => cases hsignal

theorem source (h : v.Signals s) : Source.ofValue v = .ok (.literal s) := by
  obtain ⟨hsignal, hstate⟩ := h
  cases v with
  | null | bool | int | state | trit => cases hstate; rfl
  | _ => cases hsignal

theorem operand (h : v.Signals s) (index : Nat) : Operand.ofValue v index = .ok (.literal s) := by
  obtain ⟨hsignal, hstate⟩ := h
  cases v with
  | null | bool | int | state | trit => cases hstate; rfl
  | _ => cases hsignal

theorem text? (h : v.Signals s) : v.text? = none := by
  obtain ⟨hsignal, -⟩ := h
  cases v with
  | null | bool | int | state | trit => rfl
  | _ => cases hsignal

end Signals

variable {values : List Value} {states : List State}

theorem leavesOfAll_signals (h : List.Forall₂ Signals values states) : leavesOfAll values = values := by
  induction h with
  | nil => rfl
  | cons hv _ ih => rw [leavesOfAll, hv.leaves, ih, List.singleton_append]

theorem toStates_signals (h : List.Forall₂ Signals values states) : toStates values = .ok states :=
  toStates_standing (h.imp fun _ _ hs => hs.state)

/-- A list of signals holds their states, on its own and in another. -/
theorem toVector_signals (h : List.Forall₂ Signals values states) : (list values).toVector = .ok states := by
  show toStates (leavesOfAll values) = .ok states
  rw [leavesOfAll_signals h, toStates_signals h]

theorem leafStates_signals (h : List.Forall₂ Signals values states) :
    (tuple [list values]).leafStates = .ok states := by
  show toStates (leavesOfAll values ++ []) = .ok states
  rw [List.append_nil, leavesOfAll_signals h, toStates_signals h]

end Value

/-! ## Gates that can be exported -/

namespace CircuitGate

/-- The words for the operators of circuits. -/
def words : List String := ["and", "or", "maj", "consensus", "weighted"]

/-- Whether a value is a signal or one of the names, as an operand: not a name that begins
    as an inversion or an expression does. -/
def Takes (names : List Value) (v : Value) : Prop :=
  v.isSignal = true ∨
    ∃ s ∈ names.filterMap Value.text?, v = .str s ∧ s.toList.head? ∉ [some '!', some '@']

/-- Whether a gate applies the word of an operator to signals and names, with whole numbers
    for weights. -/
structure Fits (names : List Value) (g : CircuitGate) : Prop where
  word : g.operator ∈ words
  operands : ∀ v ∈ g.operands, Takes names v
  weights : ∀ w ∈ g.weights, w.int?.isSome = true

end CircuitGate

/-- Whether each gate fits the names and the gates before. -/
def Circuit.Wired : (names : List Value) → Table CircuitGate → Prop
  | _, [] => True
  | names, (name, g) :: rest => g.Fits names ∧ Wired (names ++ [name]) rest

namespace CircuitGate

variable {g : CircuitGate}

/-- The engine's operator for a word combines the states of signals as the circuit does. -/
theorem exists_operator (h : g.operator ∈ words) :
    ∃ o, o ≠ .expression ∧ (Operator.read (.str g.exportedOperator)).result = .ok o ∧
      ∀ {values : List Value} {states : List State} {weights : List Int},
        List.Forall₂ Value.Signals values states → (Value.list g.weights).weights = .ok weights →
          g.state values = .ok (o.apply weights states) := by
  have hcases : g.operator = "and" ∨ g.operator = "or" ∨ g.operator = "maj" ∨ g.operator = "consensus" ∨
      g.operator = "weighted" := by simpa [words] using h
  rcases hcases with hword | hword | hword | hword | hword
  · refine ⟨.and, by decide, by rw [exportedOperator, hword]; rfl, fun hvalues _ => ?_⟩
    simp only [state, hword, Algebra.all, Value.leafStates_signals hvalues, ok_bind]
    rfl
  · refine ⟨.or, by decide, by rw [exportedOperator, hword]; rfl, fun hvalues _ => ?_⟩
    simp only [state, hword, Algebra.any, Value.leafStates_signals hvalues, ok_bind]
    rfl
  · refine ⟨.consensus, by decide, by rw [exportedOperator, hword]; rfl, fun hvalues _ => ?_⟩
    simp only [state, hword, Algebra.consensus, Value.toVector_signals hvalues, ok_bind]
    rfl
  · refine ⟨.consensus, by decide, by rw [exportedOperator, hword]; rfl, fun hvalues _ => ?_⟩
    simp only [state, hword, Algebra.consensus, Value.toVector_signals hvalues, ok_bind]
    rfl
  · refine ⟨.weighted, by decide, by rw [exportedOperator, hword]; rfl, fun hvalues hweights => ?_⟩
    simp only [state, hword, Algebra.weighted, Value.toVector_signals hvalues, hweights, ok_bind]
    rfl

theorem exists_weights {weights : List Value} (h : ∀ w ∈ weights, w.int?.isSome = true) :
    ∃ ns, (Value.list weights).weights = .ok ns := by
  have hread : ∃ ns, Value.toWeights weights = .ok ns := by
    induction weights with
    | nil => exact ⟨[], rfl⟩
    | cons w weights ih =>
      obtain ⟨hw, hrest⟩ := List.forall_mem_cons.1 h
      obtain ⟨n, hn⟩ : ∃ n, w.toWeight = .ok n := by
        cases w with
        | bool | int | trit => exact ⟨_, rfl⟩
        | _ => cases hw
      obtain ⟨ns, hns⟩ := ih hrest
      exact ⟨n :: ns, by rw [Value.toWeights, hn, hns]; rfl⟩
  cases weights with
  | nil => exact ⟨[], rfl⟩
  | cons w weights => exact hread

/-- The definition says what the gate says; weights are left out when there are none. -/
theorem definition_says (g : CircuitGate) :
    ∃ entries : Entries, g.definition = .map entries ∧
      Gate.writtenOperator entries = .str g.exportedOperator ∧ entries.field "operands" = .list g.operands ∧
      (entries.field "weights").weights = (Value.list g.weights).weights := by
  refine ⟨_, rfl, rfl, rfl, ?_⟩
  cases g.weights with
  | nil => rfl
  | cons w weights => rfl

end CircuitGate

/-! ## Exported gates -/

/-- Whether an operand is what an operand of a circuit is read as: a signal as its state,
    a string as a name. -/
inductive Operand.Reads : Value → Operand → Prop
  | signal {v : Value} {s : State} : v.Signals s → Reads v (.literal s)
  | name (s : String) : Reads (.str s) (.reference s false)

theorem Operand.ofText_name {s : String} (h : s.toList.head? ∉ [some '!', some '@']) :
    ofText s = .reference s false := by
  unfold ofText
  split
  · next rest hs => exact absurd (by rw [hs]; simp) h
  · next rest hs => exact absurd (by rw [hs]; simp) h
  · rfl

/-- Whether a gate of a blueprint stands for a gate of a circuit under a name. -/
structure Gate.Exports (name : Value) (g : CircuitGate) (gate : Gate) : Prop where
  name : gate.name = name
  operands : List.Forall₂ Operand.Reads g.operands gate.operands
  operator : gate.operator ≠ .expression
  state : ∀ {values : List Value} {states : List State}, List.Forall₂ Value.Signals values states →
    g.state values = .ok (gate.operator.apply gate.weights states)

namespace CircuitGate

variable {g : CircuitGate} {names : List Value}

theorem Takes.reads {v : Value} (h : Takes names v) (index : Nat) :
    ∃ o, Operand.ofValue v index = .ok o ∧ Operand.Reads v o := by
  rcases h with hsignal | ⟨s, -, rfl, hs⟩
  · obtain ⟨state, hstate⟩ := Value.exists_signals hsignal
    exact ⟨.literal state, hstate.operand index, .signal hstate⟩
  · refine ⟨.reference s false, ?_, .name s⟩
    show Except.ok (Operand.ofText s) = _
    rw [Operand.ofText_name hs]

theorem operands_read {operands : List Value} (h : ∀ v ∈ operands, Takes names v) (index : Nat) :
    ∃ os, Operand.ofValues index operands = .ok os ∧ List.Forall₂ Operand.Reads operands os := by
  induction operands generalizing index with
  | nil => exact ⟨[], rfl, .nil⟩
  | cons v operands ih =>
    obtain ⟨hv, hrest⟩ := List.forall_mem_cons.1 h
    obtain ⟨o, ho, hreads⟩ := hv.reads index
    obtain ⟨os, hos, hall⟩ := ih hrest (index + 1)
    exact ⟨o :: os, by rw [Operand.ofValues, ho, hos]; rfl, .cons hreads hall⟩

theorem Fits.exports (h : g.Fits names) (name : Value) :
    ∃ gate, (Gate.ofDefinition name g.definition).result = .ok gate ∧ gate.Exports name g := by
  obtain ⟨entries, hdefinition, hwritten, hoperands, hweights⟩ := g.definition_says
  obtain ⟨o, ho, hread, hstate⟩ := exists_operator h.word
  obtain ⟨os, hos, hreads⟩ := operands_read h.operands 0
  obtain ⟨ns, hns⟩ := exists_weights h.weights
  have hlist : (Value.list g.operands).orElse (.list []) = .ok (.list g.operands) := by
    cases g.operands <;> rfl
  refine ⟨⟨name, o, os, ns, entries.field "expression", entries.field "description",
    Gate.declaredName (.str g.exportedOperator) o⟩, ?_, rfl, hreads, ho, fun hvalues => hstate hvalues hns⟩
  rw [hdefinition]
  simp only [Gate.ofDefinition, Value.asMapping, Value.entries?, hoperands, hlist, hwritten, hweights, hns, hos,
    hread, Value.elements, Value.elements?, Outcome.result_bind, Outcome.result_lift, ok_bind, Outcome.result_pure]

end CircuitGate

/-- Exporting the gates of a circuit gives a gate for each. -/
theorem Circuit.gates_exported {names : List Value} {table : Table CircuitGate} (h : Circuit.Wired names table) :
    ∃ gates, (Gate.ofDefinitions (table.map fun e => (e.1, e.2.definition))).result = .ok gates ∧
      List.Forall₂ (fun e gate => Gate.Exports e.1 e.2 gate) table gates := by
  induction table generalizing names with
  | nil => exact ⟨[], rfl, .nil⟩
  | cons e table ih =>
    obtain ⟨hfits, hrest⟩ := h
    obtain ⟨gate, hgate, hexports⟩ := hfits.exports e.1
    obtain ⟨gates, hgates, hall⟩ := ih hrest
    refine ⟨gate :: gates, ?_, .cons hexports hall⟩
    simp only [List.map_cons, Gate.ofDefinitions, Outcome.result_bind, hgate, hgates, ok_bind, Outcome.result_pure]

/-! ## Exported inputs -/

/-- Whether a named source is what an input of a circuit is read as. -/
def Source.Reads (e : Value × Value) (p : String × Source) : Prop :=
  e.1 = .str p.1 ∧ ∃ s, e.2.Signals s ∧ p.2 = .literal s

/-- Tables whose keys are different strings. -/
structure Table.Named {α : Type} (t : Table α) : Prop where
  distinct : Distinct t
  names : ∀ e ∈ t, ∃ name : String, e.1 = .str name

theorem Table.Named.set {α : Type} {t : Table α} (h : t.Named) (name : String) (a : α) :
    (Table.set t (.str name) a).Named where
  distinct := h.distinct.set _ a
  names := by
    intro e he
    rcases Table.mem_set he with hkey | ⟨f, hf, hkey⟩
    · exact ⟨name, hkey⟩
    · rw [← hkey]
      exact h.names f hf

theorem Table.Named.exists_name {α : Type} {t : Table α} (h : t.Named) {key : Value} (hkey : key ∈ Table.keys t) :
    ∃ name : String, key = .str name := by
  obtain ⟨e, he, rfl⟩ := List.mem_map.1 hkey
  exact h.names e he

/-- Strings are keys. -/
theorem Table.Named.areKeys {α : Type} {t : Table α} (h : t.Named) : ∀ e ∈ t, e.1.isKey = true := by
  intro e he
  obtain ⟨name, hname⟩ := h.names e he
  rw [hname]
  rfl

theorem Table.Named.map {α β : Type} {t : Table α} (h : t.Named) (f : α → β) :
    Table.Named (t.map fun e => (e.1, f e.2)) where
  distinct := List.pairwise_map.2 h.distinct
  names := List.forall_mem_map.2 h.names

/-- Gates under texts keep their names. -/
theorem Blueprint.gateItems_of_named {table : Entries} (h : Table.Named table) :
    gateItems (.map table) = .ok table := by
  refine congrArg Except.ok ((List.map_congr_left fun e he => ?_).trans (List.map_id table))
  obtain ⟨name, hname⟩ := h.names e he
  have hkey : keyName e.1 = e.1 := by rw [hname]; rfl
  exact Prod.ext hkey rfl

namespace Circuit

theorem names_of_reads {entries : Entries} {inputs : List (String × Source)}
    (h : List.Forall₂ Source.Reads entries inputs) :
    (inputs.map fun p => Value.str p.1) = Table.keys entries := by
  induction h with
  | nil => rfl
  | cons hfirst _ ih =>
    rw [List.map_cons, ih, ← hfirst.1]
    rfl

theorem names_of_exports {table : Table CircuitGate} {gates : List Gate}
    (h : List.Forall₂ (fun e gate => Gate.Exports e.1 e.2 gate) table gates) :
    gates.map Gate.name = Table.keys table := by
  induction h with
  | nil => rfl
  | cons hfirst _ ih =>
    rw [List.map_cons, ih, hfirst.name]
    rfl

/-- By induction on the inputs: none of those that follow has the name of one that is read. -/
theorem inputs_exported {entries : Entries} (hnamed : Table.Named entries)
    (hsignals : ∀ e ∈ entries, e.2.isSignal = true) {read : List (String × Source)}
    (hfresh : ∀ p ∈ read, ∀ e ∈ entries, e.1 ≠ .str p.1) :
    ∃ inputs, Blueprint.readInputs read entries = .ok (read ++ inputs) ∧
      List.Forall₂ Source.Reads entries inputs := by
  induction entries generalizing read with
  | nil => exact ⟨[], by rw [List.append_nil]; rfl, .nil⟩
  | cons e entries ih =>
    obtain ⟨hdistinct, hnames⟩ := hnamed
    obtain ⟨hhead, hdistinct⟩ := List.pairwise_cons.1 hdistinct
    obtain ⟨⟨name, hname⟩, hnames⟩ := List.forall_mem_cons.1 hnames
    obtain ⟨he, hsignals⟩ := List.forall_mem_cons.1 hsignals
    obtain ⟨s, hs⟩ := Value.exists_signals he
    have hset : Blueprint.setInput name (.literal s) read = read ++ [(name, .literal s)] := by
      refine Blueprint.setInput_fresh fun p hp hsame => ?_
      exact hfresh p hp e List.mem_cons_self (by rw [hname, hsame])
    have hnext : ∀ p ∈ read ++ [(name, Source.literal s)], ∀ f ∈ entries, f.1 ≠ .str p.1 := by
      rw [List.forall_mem_append, List.forall_mem_singleton]
      refine ⟨fun p hp f hf => hfresh p hp f (List.mem_cons_of_mem _ hf), fun f hf hsame => ?_⟩
      have hdiffers := hhead f hf
      rw [hname, hsame, (Value.same_str (.str name) name).2 rfl] at hdiffers
      cases hdiffers
    obtain ⟨inputs, hread, hall⟩ := ih ⟨hdistinct, hnames⟩ hsignals hnext
    refine ⟨(name, .literal s) :: inputs, ?_, .cons ⟨hname, s, hs, rfl⟩ hall⟩
    have hread' : Blueprint.inputName e.1 = .ok name := by rw [hname]; rfl
    rw [Blueprint.readInputs, hread', ok_bind, hs.source, ok_bind, hset, hread, List.append_assoc]
    rfl

end Circuit

/-! ## Building -/

namespace Circuit

/-- Circuits that calls have built from nothing. -/
inductive Built : Circuit → Prop
  | empty : Built .empty
  | input {c c' : Circuit} {name : String} {v : Value} : Built c → c.input (.str name) v = .ok c' → Built c'
  | gate {c c' : Circuit} {name : String} {operator operands weights : Value} :
    Built c → c.gate (.str name) operator operands weights = .ok c' → Built c'

variable {c : Circuit}

/-- A call for a gate changes the gate of that name and nothing else. -/
theorem gate_ok {c c' : Circuit} {name : String} {operator operands weights : Value}
    (h : c.gate (.str name) operator operands weights = .ok c') :
    ∃ g, c' = { c with gates := Table.set c.gates (.str name) g } := by
  unfold gate at h
  split at h
  · cases h
  · obtain ⟨operands, -, h⟩ := bind_eq_ok.1 h
    obtain ⟨weights, -, h⟩ := bind_eq_ok.1 h
    cases h
    exact ⟨_, rfl⟩

theorem Built.inputs_named (h : c.Built) : Table.Named c.inputs := by
  induction h with
  | empty => exact ⟨.nil, nofun⟩
  | @input c c' name v _ hcall ih =>
    cases hcall
    exact ih.set name v
  | gate _ hcall ih =>
    obtain ⟨g, rfl⟩ := gate_ok hcall
    exact ih

theorem Built.gates_named (h : c.Built) : Table.Named c.gates := by
  induction h with
  | empty => exact ⟨.nil, nofun⟩
  | input _ hcall ih =>
    cases hcall
    exact ih
  | gate _ hcall ih =>
    obtain ⟨g, rfl⟩ := gate_ok hcall
    exact ih.set _ g

end Circuit

/-! ## Exported circuits -/

/-- Whether a blueprint is what the engine reads a circuit's as. -/
structure Blueprint.Exports (c : Circuit) (b : Blueprint) : Prop where
  inputs : List.Forall₂ Source.Reads c.inputs b.inputs
  gates : List.Forall₂ (fun e gate => Gate.Exports e.1 e.2 gate) c.gates b.gates
  output : b.output = ((Table.keys c.gates).getLast?).getD .null

namespace Circuit

variable {c : Circuit}

/-- A mapping with the inputs and gates of a circuit is read as a blueprint with a source for
    each input and a gate for each gate. -/
theorem mapping_read (hbuilt : c.Built) (hinputs : ∀ e ∈ c.inputs, e.2.isSignal = true)
    (hwired : Wired (Table.keys c.inputs) c.gates) {entries : Entries} {name : Value}
    (hname : (entries.field "name").orElse (entries.field "id") = .ok name)
    (hsources : entries.field "inputs" = .map c.inputs)
    (hgates : entries.field "gates" = .map (c.gates.map fun e => (e.1, e.2.definition)))
    (houtput : entries.field "output" = ((Table.keys c.gates).getLast?).getD .null) :
    ∃ b, (Blueprint.ofMapping (.map entries)).result = .ok b ∧ b.Exports c := by
  obtain ⟨inputs, hread, hreads⟩ := inputs_exported hbuilt.inputs_named hinputs (List.forall_mem_nil _)
  obtain ⟨gates, hdefined, hexports⟩ := gates_exported hwired
  have hitems := Blueprint.gateItems_of_named (hbuilt.gates_named.map CircuitGate.definition)
  refine ⟨⟨inputs, gates, entries.field "output", name, some (.map entries)⟩, ?_, ⟨hreads, hexports, houtput⟩⟩
  unfold Blueprint.ofMapping
  refine Outcome.result_bind_eq_ok.2 ⟨entries, rfl, ?_⟩
  rw [hgates, hsources]
  refine Outcome.result_bind_eq_ok.2 ⟨_, Blueprint.Setting.orElse_map _, ?_⟩
  refine Outcome.result_bind_eq_ok.2 ⟨_, hitems, ?_⟩
  refine Outcome.result_bind_eq_ok.2 ⟨_, Blueprint.Setting.orElse_map _, ?_⟩
  refine Outcome.result_bind_eq_ok.2 ⟨c.inputs, rfl, ?_⟩
  refine Outcome.result_bind_eq_ok.2 ⟨inputs, hread, ?_⟩
  refine Outcome.result_bind_eq_ok.2 ⟨gates, hdefined, ?_⟩
  exact Outcome.result_bind_eq_ok.2 ⟨name, hname, rfl⟩

/-- The exported blueprint has a source for each input and a gate for each gate, and puts out
    the last one. -/
theorem blueprint_read (hbuilt : c.Built) (hinputs : ∀ e ∈ c.inputs, e.2.isSignal = true)
    (hwired : Wired (Table.keys c.inputs) c.gates) :
    ∃ b, (Blueprint.ofValue c.blueprint).result = .ok b ∧ b.Exports c :=
  mapping_read hbuilt hinputs hwired (rfl : _ = Except.ok Value.null) rfl rfl rfl

end Circuit

end Verdict
