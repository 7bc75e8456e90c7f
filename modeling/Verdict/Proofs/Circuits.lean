/-
  Verdict.Proofs.Circuits — a circuit and the blueprint that it exports agree.

  A circuit puts values in the place of names and takes their states when a gate combines
  them. The engine takes the states of the inputs first, then decides the exported gates
  over the scope. The two are followed side by side: under each name the scope holds the
  state of the value that the circuit has there (`Scope.Mirrors`), and each gate keeps it
  so (`decideGate_mirrors`), whatever inputs its name hides.
  - `Circuit.export_agrees`: a circuit that was built by calls, whose gates apply the
    words of operators to signals and to names before them, is reported by the engine as
    it evaluates itself, result and gates, in every context (without torn text, if the
    engine looks the call up).
-/

import Verdict.Proofs.Exports
import Verdict.Proofs.Failures

namespace Verdict

/-! ## Gates side by side -/

/-- Under each name the scope holds the state of the value that the circuit has resolved. -/
def Scope.Mirrors (scope : Scope) (resolved : Entries) : Prop :=
  ∀ name : String, Option.Rel Value.Signals (Table.find? resolved (.str name)) (Table.find? scope (.str name))

theorem Scope.Mirrors.set {scope : Scope} {resolved : Entries} (h : scope.Mirrors resolved) (key : Value) {v : Value}
    {s : State} (hs : v.Signals s) : Mirrors (Table.set scope key s) (Table.set resolved key v) := by
  intro name
  rw [Table.find?_set scope _ _ rfl, Table.find?_set resolved _ _ rfl]
  by_cases hsame : key.same (.str name) = true
  · rw [if_pos hsame, if_pos hsame]
    exact .some hs
  · rw [if_neg hsame, if_neg hsame]
    exact h name

/-- A state that the scope holds is that of a value that the circuit has. -/
theorem Scope.Mirrors.value {scope : Scope} {resolved : Entries} (h : scope.Mirrors resolved) {name : String}
    {s : State} (hs : Table.find? scope (.str name) = some s) :
    ∃ v, Table.find? resolved (.str name) = some v ∧ v.Signals s := by
  have hrel := h name
  rw [hs] at hrel
  cases hvalue : Table.find? resolved (.str name) with
  | none =>
    rw [hvalue] at hrel
    cases hrel
  | some v =>
    rw [hvalue] at hrel
    cases hrel with
    | some hv => exact ⟨v, rfl, hv⟩

namespace Blueprint.Setting

variable {env : Setting} {context gate : Value} {scope : Scope} {resolved : Entries} {names : List Value}

/-- An operand that is a signal or a known name has the state of its value in the circuit. -/
theorem resolveOperand_mirrors (hmirrors : scope.Mirrors resolved) (hknows : scope.Knows names) {v : Value}
    {o : Operand} (htakes : CircuitGate.Takes names v) (hreads : Operand.Reads v o) (decisions : List Decision) :
    ∃ s, (env.resolveOperand scope decisions gate o).result = .ok s ∧ (Circuit.operandValue resolved v).Signals s := by
  cases hreads with
  | signal hs =>
    refine ⟨_, rfl, ?_⟩
    unfold Circuit.operandValue
    rw [hs.text?]
    exact hs
  | name word =>
    obtain ⟨word', hword, hsame, -⟩ := htakes.resolve_left (fun hsignal => nomatch hsignal)
    cases hsame
    obtain ⟨s, hs⟩ := Option.isSome_iff_exists.1 (hknows word hword)
    obtain ⟨v, hvalue, hv⟩ := hmirrors.value hs
    refine ⟨s, ?_, ?_⟩
    · simp only [resolveOperand, refer, hs, Outcome.result_bind, Outcome.result_lift, ok_bind]
      rfl
    · unfold Circuit.operandValue
      simp only [Value.text?, hvalue, Option.getD_some]
      exact hv

theorem gather_mirrors (hmirrors : scope.Mirrors resolved) (hknows : scope.Knows names) {operands : List Value}
    {os : List Operand} (htakes : ∀ v ∈ operands, CircuitGate.Takes names v)
    (hreads : List.Forall₂ Operand.Reads operands os) (decisions : List Decision) :
    ∃ evidence, (env.gather scope decisions gate os).result = .ok evidence ∧
      List.Forall₂ Value.Signals (operands.map (Circuit.operandValue resolved)) (evidence.map Evidence.state) := by
  induction hreads with
  | nil => exact ⟨[], rfl, .nil⟩
  | @cons v o operands os hfirst _ ih =>
    obtain ⟨hv, hrest⟩ := List.forall_mem_cons.1 htakes
    obtain ⟨s, hs, hsignals⟩ : ∃ s, (env.resolveOperand scope decisions gate o).result = .ok s ∧
        (Circuit.operandValue resolved v).Signals s := resolveOperand_mirrors hmirrors hknows hv hfirst decisions
    obtain ⟨evidence, hevidence, hall⟩ := ih hrest
    refine ⟨⟨o.label, s⟩ :: evidence, ?_, .cons hsignals hall⟩
    simp only [gather, Outcome.result_bind, hs, hevidence, ok_bind]
    rfl

/-- A gate is decided as its circuit's gate is evaluated. -/
theorem decideGate_mirrors (hmirrors : scope.Mirrors resolved) (hknows : scope.Knows names) {name : Value}
    {g : CircuitGate} (hfits : g.Fits names) {gate : Gate} (hexports : gate.Exports name g)
    (decisions : List Decision) :
    ∃ d, (env.decideGate context scope decisions gate).result = .ok d ∧ d.name = name ∧
      g.state (g.operands.map (Circuit.operandValue resolved)) = .ok d.state := by
  obtain ⟨evidence, hevidence, hall⟩ := gather_mirrors hmirrors hknows hfits.operands hexports.operands decisions
  let state := gate.operator.apply gate.weights (evidence.map Evidence.state)
  refine ⟨⟨gate.name, state, gate.operatorLabel, evidence, gate.description⟩, decideGate_ok.2 ⟨evidence, state,
    hevidence, ?_, rfl⟩, hexports.name, hexports.state hall⟩
  rw [if_neg hexports.operator]

/-- By induction on the gates: what they are named is a key, and the scope goes on
    mirroring what the circuit has resolved. -/
theorem decideAll_mirrors {table : Table CircuitGate} {gates : List Gate}
    (hexports : List.Forall₂ (fun e gate => Gate.Exports e.1 e.2 gate) table gates)
    (hkeys : ∀ e ∈ table, e.1.isKey = true) (hwired : Circuit.Wired names table)
    (hmirrors : scope.Mirrors resolved) (hknows : scope.Knows names) (decisions : List Decision) :
    ∃ resolved' scope' ds, Circuit.resolve resolved table = .ok resolved' ∧
      (env.decideAll context scope decisions gates).result = .ok (scope', ds) ∧ scope'.Mirrors resolved' ∧
      scope'.Knows (names ++ Table.keys table) := by
  induction hexports generalizing scope resolved names decisions with
  | nil =>
    refine ⟨resolved, scope, decisions, rfl, rfl, hmirrors, ?_⟩
    rwa [show Table.keys ([] : Table CircuitGate) = [] from rfl, List.append_nil]
  | @cons e gate table gates hfirst _ ih =>
    obtain ⟨hfits, hrest⟩ := hwired
    obtain ⟨hkey, hkeys⟩ := List.forall_mem_cons.1 hkeys
    obtain ⟨d, hd, hname, hstate⟩ := decideGate_mirrors hmirrors hknows hfits hfirst decisions
    obtain ⟨resolved', scope', ds, hresolve, hdecide, hmirrors', hknows'⟩ := ih hkeys hrest
      (hmirrors.set e.1 (Value.signals_state d.state)) (hknows.set e.1 d.state) (decisions ++ [d])
    refine ⟨resolved', scope', ds, ?_, ?_, hmirrors', ?_⟩
    · rw [Circuit.resolve, hstate, ok_bind]
      exact hresolve
    · rw [← hname] at hkey hdecide
      exact decideAll_cons_ok.2 ⟨d, hd, hkey, hdecide⟩
    · show scope'.Knows (names ++ e.1 :: Table.keys table)
      rwa [List.append_cons]

end Blueprint.Setting

/-! ## Inputs side by side -/

namespace Blueprint.Setting

variable {env : Setting} {context : Value} {scope : Scope} {resolved : Entries}

theorem resolveInputs_mirrors {entries : Entries} {inputs : List (String × Source)}
    (hreads : List.Forall₂ Source.Reads entries inputs) (hmirrors : scope.Mirrors resolved) :
    ∃ scope', (env.resolveInputs context scope inputs).result = .ok scope' ∧
      scope'.Mirrors (Table.merge resolved entries) := by
  induction hreads generalizing scope resolved with
  | nil => exact ⟨scope, rfl, hmirrors⟩
  | @cons e p entries inputs hfirst _ ih =>
    obtain ⟨hname, s, hs, hsource⟩ := hfirst
    obtain ⟨scope', hrest, hmirrors'⟩ := ih (hmirrors.set e.1 hs)
    refine ⟨scope', resolveInputs_cons_ok.2 ⟨s, ?_, ?_⟩, hmirrors'⟩
    · rw [hsource]
      rfl
    · rw [← hname]
      exact hrest

end Blueprint.Setting

/-! ## Whole circuits -/

namespace Circuit

variable {c : Circuit}

/-- Whether a report says of the gates, and of the last one as its result, what the circuit
    evaluates them to. -/
def ToldBy (c : Circuit) (r : Report) : Prop :=
  (∃ last ∈ (Table.keys c.gates).getLast?, c.evaluate last = .ok r.result) ∧
    ∀ name ∈ Table.keys c.gates, ∃ d, r.decision? name = some d ∧ c.evaluate name = .ok d.state

/-- What the scope holds under a name is what the circuit evaluates it to. -/
theorem evaluate_mirrors {resolved : Entries} {scope : Scope} (hresolve : resolve c.inputs c.gates = .ok resolved)
    (hmirrors : scope.Mirrors resolved) {name : String} {s : State} (hs : Table.find? scope (.str name) = some s) :
    c.evaluate (.str name) = .ok s := by
  obtain ⟨v, hvalue, hv⟩ := hmirrors.value hs
  rw [evaluate, hresolve, ok_bind]
  simp only [hvalue]
  exact hv.state

/-- Side by side from the start: the inputs are resolved and the gates decided, and in the
    end the scope mirrors what the circuit has resolved, under the names of all gates. -/
theorem run_mirrors (hbuilt : c.Built) (hwired : Wired (Table.keys c.inputs) c.gates) {b : Blueprint}
    (hexports : b.Exports c) (env : Blueprint.Setting) (context : Value) :
    ∃ scope scope' resolved decisions, (env.resolveInputs context [] b.inputs).result = .ok scope ∧
      (env.decideAll context scope [] b.gates).result = .ok (scope', decisions) ∧
      resolve c.inputs c.gates = .ok resolved ∧ scope'.Mirrors resolved ∧ scope'.Knows (Table.keys c.gates) := by
  have hnone : Scope.Mirrors [] [] := fun _ => .none
  obtain ⟨scope, hscope, hmerged⟩ : ∃ scope, (env.resolveInputs context [] b.inputs).result = .ok scope ∧
      scope.Mirrors (Table.merge [] c.inputs) := Blueprint.Setting.resolveInputs_mirrors hexports.inputs hnone
  have hmirrors : scope.Mirrors c.inputs := by
    intro name
    have hrel := hmerged name
    rwa [Table.find?_merge _ _ rfl, hbuilt.inputs_named.distinct.find?_reverse rfl, Table.find?_nil,
      Option.or_none] at hrel
  have hknows : scope.Knows (Table.keys c.inputs) := by
    rw [← names_of_reads hexports.inputs]
    exact Blueprint.Setting.resolveInputs_knows (Scope.knows_nil []) hscope
  obtain ⟨resolved, scope', decisions, hresolve, hdecide, hmirrors', hknows'⟩ : ∃ resolved scope' decisions,
      resolve c.inputs c.gates = .ok resolved ∧
      (env.decideAll context scope [] b.gates).result = .ok (scope', decisions) ∧ scope'.Mirrors resolved ∧
      scope'.Knows (Table.keys c.inputs ++ Table.keys c.gates) :=
    Blueprint.Setting.decideAll_mirrors hexports.gates hbuilt.gates_named.areKeys hwired hmirrors hknows []
  refine ⟨scope, scope', resolved, decisions, hscope, hdecide, hresolve, hmirrors', fun word hword => ?_⟩
  obtain ⟨key, hkey, htext⟩ := List.mem_filterMap.1 hword
  exact hknows' word (List.mem_filterMap.2 ⟨key, List.mem_append_right _ hkey, htext⟩)

/-- In every context the exported blueprint has a report that says what the circuit does. -/
theorem report_toldBy (hbuilt : c.Built) (hsome : c.gates ≠ []) (hwired : Wired (Table.keys c.inputs) c.gates)
    {b : Blueprint} (hexports : b.Exports c) (env : Blueprint.Setting) (context : Value) :
    ∃ r, (env.evaluate b context).result = .ok r ∧ c.ToldBy r := by
  obtain ⟨scope, scope', resolved, decisions, hscope, hdecide, hresolve, hmirrors, hknows⟩ :=
    run_mirrors hbuilt hwired hexports env context
  have hstates : ∀ key ∈ Table.keys c.gates, ∃ name s, key = .str name ∧ Table.find? scope' key = some s ∧
      c.evaluate key = .ok s := by
    intro key hkey
    obtain ⟨name, rfl⟩ := hbuilt.gates_named.exists_name hkey
    obtain ⟨s, hs⟩ := Option.isSome_iff_exists.1 (hknows name (List.mem_filterMap.2 ⟨_, hkey, rfl⟩))
    exact ⟨name, s, rfl, hs, evaluate_mirrors hresolve hmirrors hs⟩
  obtain ⟨last, hlast⟩ : ∃ last, (Table.keys c.gates).getLast? = some last := by
    rw [← Option.isSome_iff_exists, List.getLast?_isSome]
    exact fun hkeys => hsome (List.map_eq_nil_iff.1 hkeys)
  obtain ⟨name, s, rfl, hs, hevaluate⟩ := hstates last (List.mem_of_getLast? hlast)
  have hselect : Blueprint.Setting.select b.output scope' decisions = .ok s := by
    rw [hexports.output, hlast]
    show Except.ok ((Table.find? scope' (.str name)).getD _) = _
    rw [hs]
    rfl
  refine ⟨_, Blueprint.evaluate_ok.2 ⟨scope, scope', decisions, s, hscope, hdecide, hselect, rfl⟩,
    ⟨.str name, hlast, hevaluate⟩, fun key hkey => ?_⟩
  obtain ⟨_, rfl, hreplays, htracks⟩ := Blueprint.decideAll_replays (Blueprint.tracks_inputs hscope) hdecide
  have hnames : decisions.map Decision.name = Table.keys c.gates := by
    rw [hreplays.names]
    exact names_of_exports hexports.gates
  obtain ⟨name, s, rfl, hs, hevaluate⟩ := hstates key hkey
  obtain ⟨d, hd, hstate⟩ : ∃ d, (decisions.find? fun d => d.name.same (.str name)) = some d ∧
      Table.find? scope' (.str name) = some d.state := by
    refine htracks.decided ?_ (by rwa [hnames])
    rw [hnames]
    exact List.pairwise_map.2 hbuilt.gates_named.distinct
  rw [hs] at hstate
  exact ⟨d, hd, by rw [hevaluate, Option.some.inj hstate]⟩

end Circuit

/-! ## Keys of circuits -/

/-- No signal is a text. -/
theorem Value.isWhole_signal {v : Value} (h : v.isSignal = true) : v.isWhole = true := by
  cases v with
  | null | bool | int | state | trit => rfl
  | _ => cases h

namespace CircuitGate

variable {g : CircuitGate} {names : List Value}

theorem Takes.isWhole {v : Value} (h : Takes names v) : v.isWhole = true := by
  obtain hsignal | ⟨_, -, rfl, -⟩ := h
  · exact Value.isWhole_signal hsignal
  · rfl

theorem Fits.isWhole (h : g.Fits names) : g.definition.isWhole = true := by
  have hoperands : (Value.list g.operands).isWhole = true :=
    Value.areWhole_iff.2 fun v hv => (h.operands v hv).isWhole
  have hweights : (Value.list g.weights).isWhole = true := by
    refine Value.areWhole_iff.2 fun w hw => ?_
    have hint := h.weights w hw
    cases w with
    | bool | int | trit => rfl
    | _ => cases hint
  refine Value.entriesAreWhole_iff.2 fun e he => ?_
  rcases List.mem_append.1 he with he | he
  · rcases List.mem_pair.1 he with rfl | rfl
    · exact ⟨rfl, rfl⟩
    · exact ⟨rfl, hoperands⟩
  · split at he
    · cases he
    · obtain rfl := List.mem_singleton.1 he
      exact ⟨rfl, hweights⟩

end CircuitGate

theorem Table.Named.isWhole {entries : Entries} (h : Table.Named entries) (hvalues : ∀ e ∈ entries, e.2.isWhole = true) :
    (Value.map entries).isWhole = true := by
  refine Value.entriesAreWhole_iff.2 fun e he => ⟨?_, hvalues e he⟩
  obtain ⟨name, hname⟩ := h.names e he
  rw [hname]
  rfl

namespace Circuit

variable {c : Circuit}

theorem Wired.isWhole {names : List Value} {table : Table CircuitGate} (h : Wired names table) :
    ∀ e ∈ table, e.2.definition.isWhole = true := by
  induction table generalizing names with
  | nil => exact List.forall_mem_nil _
  | cons e table ih => exact List.forall_mem_cons.2 ⟨h.1.isWhole, ih h.2⟩

theorem isWhole_inputs (hbuilt : c.Built) (hinputs : ∀ e ∈ c.inputs, e.2.isSignal = true) :
    (Value.map c.inputs).isWhole = true :=
  hbuilt.inputs_named.isWhole fun e he => Value.isWhole_signal (hinputs e he)

theorem isWhole_gates (hbuilt : c.Built) (hwired : Wired (Table.keys c.inputs) c.gates) :
    (Value.map (c.gates.map fun e => (e.1, e.2.definition))).isWhole = true :=
  (hbuilt.gates_named.map CircuitGate.definition).isWhole (List.forall_mem_map.2 hwired.isWhole)

/-- A circuit has no torn text, and neither has its blueprint. -/
theorem isWhole_blueprint (hbuilt : c.Built) (hinputs : ∀ e ∈ c.inputs, e.2.isSignal = true)
    (hwired : Wired (Table.keys c.inputs) c.gates) : c.blueprint.isWhole = true := by
  have houtput : (((Table.keys c.gates).getLast?).getD .null).isWhole = true := by
    cases hlast : (Table.keys c.gates).getLast? with
    | none => rfl
    | some key =>
      obtain ⟨name, rfl⟩ := hbuilt.gates_named.exists_name (List.mem_of_getLast? hlast)
      rfl
  refine Value.entriesAreWhole_iff.2 ?_
  simp only [List.forall_mem_cons]
  exact ⟨⟨rfl, isWhole_inputs hbuilt hinputs⟩, ⟨rfl, isWhole_gates hbuilt hwired⟩, ⟨rfl, houtput⟩,
    List.forall_mem_nil _⟩

end Circuit

/-! ## Circuits and the engine -/

section

variable {τ ω : Type} [LE τ] [DecidableLE τ] [LT τ] [DecidableLT τ] [Add τ] {e : Engine τ ω} {present : Present τ}
  {context : Value} {memoize : Option Bool}

/-- Whether what the engine keeps under the key of a blueprint was made of that blueprint, in
    whatever context. -/
def Engine.KeepsOwn (e : Engine τ ω) (b : Blueprint) (context : Value) : Prop :=
  ∀ kept ∈ e.cache.entries, b.key (contextOf context) = .ok kept.1 →
    ∃ other, (e.setting.evaluate b other).result = .ok kept.2.report.report

theorem Engine.contextOf_isWhole (h : context.isWhole = true) : (contextOf context).isWhole = true := by
  cases context with
  | null => rfl
  | _ => exact h

/-- An engine whose observers refuse nothing answers with a report that was made of the
    blueprint, now or before, unless it looks for a key that there is not. -/
theorem Engine.evaluate_of_own {source : Value} {b : Blueprint} (hread : (Blueprint.ofValue source).result = .ok b)
    (hkey : memoize.getD e.memoizes = true → ∃ key, b.key (contextOf context) = .ok key)
    (hkept : memoize.getD e.memoizes = true → e.KeepsOwn b context)
    (hobservers : ∀ report err, ¬Rejects e.observers report err) {report : Report}
    (hreport : (e.setting.evaluate b (contextOf context)).result = .ok report) :
    ∃ served other, (e.evaluate present source context memoize).2.result = .ok served ∧
      (e.setting.evaluate b other).result = .ok served.report := by
  cases hmissed : e.missed? present source context memoize with
  | some cache =>
    obtain ⟨served, hserved, rfl⟩ := evaluate_of_report hmissed hread hkey hreport (hobservers report)
    exact ⟨served, _, hserved, hreport⟩
  | none =>
    obtain ⟨b', key, entry, hread', hmemo, hown, hmem, hserved⟩ := evaluate_of_kept hmissed
    obtain rfl : b = b' := Except.ok.inj (hread.symm.trans hread')
    obtain ⟨other, hother⟩ := hkept hmemo _ hmem hown
    exact ⟨entry.report, other, hserved, hother⟩

namespace Circuit

/-- A circuit and its exported blueprint agree: an engine whose observers refuse nothing
    reports the blueprint in every context, with the result that the circuit evaluates its
    last gate to and, for each gate, a decision with the state of that gate. If it memoizes,
    what it keeps under the key has to be of the same blueprint, and a context with torn text
    has no key. -/
theorem export_agrees {c : Circuit} (hbuilt : c.Built) (hsome : c.gates ≠ [])
    (hinputs : ∀ e ∈ c.inputs, e.2.isSignal = true) (hwired : Wired (Table.keys c.inputs) c.gates)
    (hobservers : ∀ report err, ¬Engine.Rejects e.observers report err)
    (hkept : memoize.getD e.memoizes = true → ∀ b, (Blueprint.ofValue c.blueprint).result = .ok b →
      e.KeepsOwn b context)
    (hwhole : memoize.getD e.memoizes = true → context.isWhole = true) :
    ∃ served, (e.evaluate present c.blueprint context memoize).2.result = .ok served ∧
      c.ToldBy served.report := by
  obtain ⟨b, hread, hexports⟩ := blueprint_read hbuilt hinputs hwired
  obtain ⟨report, hreport, -⟩ :=
    report_toldBy hbuilt hsome hwired hexports e.setting (Engine.contextOf context)
  obtain ⟨served, other, hserved, hother⟩ :=
    Engine.evaluate_of_own hread (fun hmemo => Blueprint.key_of_mapping hread
      (isWhole_blueprint hbuilt hinputs hwired) (Engine.contextOf_isWhole (hwhole hmemo)))
      (fun hmemo => hkept hmemo b hread) hobservers hreport
  obtain ⟨told, htold, hsays⟩ := report_toldBy hbuilt hsome hwired hexports e.setting other
  obtain rfl : told = served.report := Except.ok.inj (htold.symm.trans hother)
  exact ⟨served, hserved, hsays⟩

/-- The input `a` and the gate `g` are given twice, and the gate `b` hides the input `b`,
    which `g` still sees. -/
theorem export_agrees_hidden_input :
    let c : Circuit := {
      inputs := [(.str "a", .trit .negative), (.str "b", .int (-1))]
      gates := [
        (.str "g", ⟨"or", [.str "a", .str "b", .bool false], []⟩),
        (.str "b", ⟨"maj", [.str "b", .str "g", .int 5], []⟩),
        (.str "w", ⟨"weighted", [.str "b", .str "a", .null], [.int 2, .int 3]⟩)] }
    let e : Engine Nat Unit := .fresh ⟨.standard, .none⟩ true 60 ()
    ∃ served, (e.evaluate ⟨0, 0⟩ c.blueprint (.map [(.str "b", .bool false)]) none).2.result = .ok served ∧
      c.ToldBy served.report ∧ served.report.result = .no := by
  intro c e
  have hbuilt : c.Built := by
    have ha : Built _ := .input .empty (rfl : empty.input (.str "a") (.bool true) = .ok _)
    have hb : Built _ := .input ha (rfl : input _ (.str "b") (.int (-1)) = .ok _)
    have hg : Built _ := .gate hb (rfl : gate _ (.str "g") (.str "AND") (.list [.str "a", .str "b"]) .null = .ok _)
    have hagain : Built _ := .input hg (rfl : input _ (.str "a") (.trit .negative) = .ok _)
    have hhides : Built _ := .gate hagain
      (rfl : gate _ (.str "b") (.str "Maj") (.list [.str "b", .str "g", .int 5]) .null = .ok _)
    have hw : Built _ := .gate hhides (rfl : gate _ (.str "w") (.str "WEIGHTED")
      (.list [.str "b", .str "a", .null]) (.list [.int 2, .int 3]) = .ok _)
    exact .gate hw (rfl : gate _ (.str "g") (.str "Or") (.list [.str "a", .str "b", .bool false]) .null = .ok _)
  have hwired : Wired (Table.keys c.inputs) c.gates := by
    refine ⟨⟨by decide, ?_, by decide⟩, ⟨by decide, ?_, by decide⟩, ⟨by decide, ?_, by decide⟩, trivial⟩
    · simp only [List.forall_mem_cons]
      exact ⟨.inr ⟨"a", by decide, rfl, by decide⟩, .inr ⟨"b", by decide, rfl, by decide⟩, .inl rfl, nofun⟩
    · simp only [List.forall_mem_cons]
      exact ⟨.inr ⟨"b", by decide, rfl, by decide⟩, .inr ⟨"g", by decide, rfl, by decide⟩, .inl rfl, nofun⟩
    · simp only [List.forall_mem_cons]
      exact ⟨.inr ⟨"b", by decide, rfl, by decide⟩, .inr ⟨"a", by decide, rfl, by decide⟩, .inl rfl, nofun⟩
  have hkept : (none : Option Bool).getD e.memoizes = true → ∀ b, (Blueprint.ofValue c.blueprint).result = .ok b →
      e.KeepsOwn b (.map [(.str "b", .bool false)]) := by
    intro _ b _ kept hnone
    cases hnone
  have hobservers : ∀ report err, ¬Engine.Rejects e.observers report err := by
    rintro report err ⟨observer, hnone, -⟩
    cases hnone
  obtain ⟨served, hserved, htold⟩ :=
    export_agrees hbuilt (List.cons_ne_nil _ _) (by decide) hwired hobservers hkept fun _ => rfl
  have hw : c.evaluate (.str "w") = .ok .no := rfl
  obtain ⟨last, hlast, hresult⟩ := htold.1
  cases hlast
  exact ⟨served, hserved, htold, Except.ok.inj (hresult.symm.trans hw)⟩

end Circuit

end

end Verdict
