/-
  Verdict.Proofs.Requirements — requiring all or any of some values, in four ways.

  A shortcut goes through the values until one settles the answer; the algebra and a circuit
  with one gate combine the states of all of them; a draft numbers the values as inputs and
  has the engine decide a gate over their names. The draft's blueprint is that of a circuit
  with these inputs (`Requirement.draft_read`), whose gate looks the values up again
  (`Table.Named.lookups`), since no two numbers have one name (`Draft.named_numberFrom`).
  Main statement: all four ways come to one state (`Requirement.ways_agree`).
-/

import Verdict.Draft
import Verdict.Shortcut
import Verdict.Proofs.Circuits
import Mathlib.Data.List.Induction

namespace Verdict

/-! ## Tables of names -/

namespace Table

variable {α : Type}

theorem set_fresh {t : Table α} {key : Value} (h : ∀ e ∈ t, e.1.same key = false) (a : α) :
    set t key a = t ++ [(key, a)] := by
  induction t with
  | nil => rfl
  | cons e t ih =>
    obtain ⟨he, hrest⟩ := List.forall_mem_cons.1 h
    rw [set, if_neg (Bool.eq_false_iff.1 he), ih hrest, List.cons_append]

theorem Named.find?_of_mem {t : Table α} (h : t.Named) {e : Value × α} (he : e ∈ t) : find? t e.1 = some e.2 := by
  induction t with
  | nil => cases he
  | cons f t ih =>
    obtain ⟨hdistinct, hnames⟩ := h
    obtain ⟨hhead, htail⟩ := List.pairwise_cons.1 hdistinct
    obtain ⟨⟨name, hname⟩, hrest⟩ := List.forall_mem_cons.1 hnames
    rw [find?_cons]
    rcases List.mem_cons.1 he with rfl | he
    · rw [hname, if_pos ((Value.same_str (.str name) name).2 rfl)]
    · rw [if_neg (Bool.eq_false_iff.1 (hhead e he)), ih ⟨htail, hrest⟩ he]

/-- To look up the keys of a table, each of which is a name, gives back what is under them. -/
theorem Named.lookups {t : Entries} (h : Named t) : (keys t).map (Circuit.operandValue t) = t.map (·.2) := by
  rw [keys, List.map_map]
  refine List.map_congr_left fun e he => ?_
  obtain ⟨name, hname⟩ := h.names e he
  have hfound := h.find?_of_mem he
  rw [Function.comp_apply, Circuit.operandValue, hfound, hname]
  rfl

end Table

/-- Inputs under different names can be given to a circuit one by one. -/
theorem Circuit.built_of_named {t : Entries} (h : Table.Named t) : Built ⟨t, []⟩ := by
  induction t using List.reverseRecOn with
  | nil => exact .empty
  | append_singleton t e ih =>
    obtain ⟨hdistinct, hnames⟩ := h
    obtain ⟨hdistinct, -, hfresh⟩ := List.pairwise_append.1 hdistinct
    obtain ⟨hnames, hname⟩ := List.forall_mem_append.1 hnames
    obtain ⟨name, hname⟩ := hname e (List.mem_singleton_self e)
    have hset : Table.set t (.str name) e.2 = t ++ [e] := by
      rw [Table.set_fresh (fun f hf => hname ▸ hfresh f hf e (List.mem_singleton_self e)), ← hname]
    have hcall : Circuit.input ⟨t, []⟩ (.str name) e.2 = .ok ⟨t ++ [e], []⟩ := by
      rw [← hset]
      rfl
    exact .input (ih ⟨hdistinct, hnames⟩) hcall

/-! ## Numbered inputs -/

namespace Draft

theorem inputName_inj {i j : Nat} (h : inputName i = inputName j) : i = j := by
  have htext : "input_" ++ Text.decimal i = "input_" ++ Text.decimal j := Value.str.inj h
  have hchars : Text.natChars i = Text.natChars j := by
    have hlists := congrArg String.toList htext
    rw [String.toList_append, String.toList_append] at hlists
    simpa only [Text.decimal, Text.intChars, String.toList_ofList] using List.append_cancel_left hlists
  rw [← Text.digitsOf_natChars i, hchars, Text.digitsOf_natChars]

theorem mem_numberFrom {index : Nat} {values : List Value} {e : Value × Value} (h : e ∈ numberFrom index values) :
    ∃ i, index ≤ i ∧ e.1 = inputName i ∧ e.2 ∈ values := by
  induction values generalizing index with
  | nil => cases h
  | cons v values ih =>
    rcases List.mem_cons.1 h with rfl | h
    · exact ⟨index, Nat.le_refl _, rfl, List.mem_cons_self⟩
    · obtain ⟨i, hi, hname, hvalue⟩ := ih h
      exact ⟨i, Nat.le_of_succ_le hi, hname, List.mem_cons_of_mem v hvalue⟩

theorem named_numberFrom (index : Nat) (values : List Value) : Table.Named (numberFrom index values) := by
  induction values generalizing index with
  | nil => exact ⟨.nil, List.forall_mem_nil _⟩
  | cons v values ih =>
    refine ⟨List.pairwise_cons.2 ⟨fun e he => ?_, (ih (index + 1)).distinct⟩,
      List.forall_mem_cons.2 ⟨⟨_, rfl⟩, (ih (index + 1)).names⟩⟩
    obtain ⟨i, hi, hname, -⟩ := mem_numberFrom he
    refine Bool.eq_false_iff.2 fun hsame => ?_
    rw [hname] at hsame
    have htext := (Value.same_str (inputName index) ("input_" ++ Text.decimal i)).1 hsame
    have heq : index = i := inputName_inj (congrArg Value.str (Option.some.inj htext))
    omega

theorem values_numberFrom (index : Nat) (values : List Value) : (numberFrom index values).map (·.2) = values := by
  induction values generalizing index with
  | nil => rfl
  | cons v values ih => rw [numberFrom, List.map_cons, ih]

end Draft

/-! ## Requirements -/

/-- What is required of some values: that all of them are `yes`, or that any of them is. -/
inductive Requirement
  | all | any
  deriving DecidableEq, Repr

namespace Requirement

def vote : Requirement → List State → State
  | all => Vote.all
  | any => Vote.any

def shortcut : Requirement → List Value → Except Error Bool
  | all => Shortcut.andAll
  | any => Shortcut.orAny

def algebra : Requirement → List Value → Except Error State
  | all => Algebra.all
  | any => Algebra.any

def operator : Requirement → Operator
  | all => .and
  | any => .or

/-- A circuit of one gate over the values. -/
def circuit (q : Requirement) (name : String) (values : List Value) : Except Error Circuit :=
  Circuit.empty.gate (.str name) (.str q.operator.word) (.list values) .null

def draft (q : Requirement) (values : List Value) : Draft :=
  match q with
  | all => (Draft.ofValues values).requireAll
  | any => (Draft.ofValues values).requireAny

/-- The name of the gate that a draft gets. -/
def gateName : Requirement → String
  | all => "all_required"
  | any => "any_required"

variable {q : Requirement} {values : List Value} {states : List State}

/-! ## Shortcut and algebra -/

theorem isYes_and (s t : State) : (s.and t).isYes = (s.isYes && t.isYes) := by cases s <;> cases t <;> rfl

theorem isYes_or (s t : State) : (s.or t).isYes = (s.isYes || t.isYes) := by cases s <;> cases t <;> rfl

/-- By induction on the values: what has been seen when the shortcut stops settles the vote. -/
theorem shortcut_eq (h : List.Forall₂ Value.StandsFor values states) :
    q.shortcut values = .ok (q.vote states).isYes := by
  cases q with
  | all =>
    show Shortcut.andAll values = .ok (Vote.all states).isYes
    rw [Vote.all_eq_foldr]
    induction h with
    | nil => rfl
    | @cons v s values states hv _ ih =>
      rw [Shortcut.andAll, Shortcut.isTrue, show v.toState = .ok s from hv, List.foldr_cons, isYes_and, ih]
      cases s <;> rfl
  | any =>
    show Shortcut.orAny values = .ok (Vote.any states).isYes
    rw [Vote.any_eq_foldr]
    induction h with
    | nil => rfl
    | @cons v s values states hv _ ih =>
      rw [Shortcut.orAny, Shortcut.isTrue, show v.toState = .ok s from hv, List.foldr_cons, isYes_or, ih]
      cases s <;> rfl

theorem algebra_eq (h : List.Forall₂ Value.Signals values states) : q.algebra values = .ok (q.vote states) := by
  have hstates : (Value.tuple values).leafStates = .ok states := by
    show Value.toStates (Value.leavesOfAll values) = .ok states
    rw [Value.leavesOfAll_signals h, Value.toStates_signals h]
  cases q with
  | all => rw [algebra, Algebra.all, hstates]; rfl
  | any => rw [algebra, Algebra.any, hstates]; rfl

/-! ## Circuits -/

theorem gate_state (h : List.Forall₂ Value.Signals values states) (operands weights : List Value) :
    CircuitGate.state ⟨q.operator.word, operands, weights⟩ values = .ok (q.vote states) := by
  have hstates := Value.leafStates_signals h
  cases q with
  | all =>
    show Algebra.all [.list values] = _
    rw [Algebra.all, hstates]
    rfl
  | any =>
    show Algebra.any [.list values] = _
    rw [Algebra.any, hstates]
    rfl

/-- The state of the only gate of a circuit. -/
theorem evaluate_gate {inputs : Entries} {g : CircuitGate} {s : State}
    (h : g.state (g.operands.map (Circuit.operandValue inputs)) = .ok s) (name : String) :
    Circuit.evaluate ⟨inputs, [(.str name, g)]⟩ (.str name) = .ok s := by
  have hfound : Table.find? (Table.set inputs (.str name) (.state s)) (.str name) = some (.state s) := by
    rw [Table.find?_set inputs _ _ rfl, if_pos ((Value.same_str (.str name) name).2 rfl)]
  simp only [Circuit.evaluate, Circuit.resolve, h, ok_bind]
  rw [hfound]
  rfl

theorem circuit_eq (h : List.Forall₂ Value.Signals values states) (name : String) :
    ∃ c, q.circuit name values = .ok c ∧ c.evaluate (.str name) = .ok (q.vote states) := by
  have hbuilt : q.circuit name values = .ok ⟨[], [(.str name, ⟨q.operator.word, values, []⟩)]⟩ := by
    cases q <;> rfl
  have hvalues : values.map (Circuit.operandValue []) = values := by
    refine List.map_id'' (fun v => ?_) values
    unfold Circuit.operandValue
    cases v.text? <;> rfl
  refine ⟨_, hbuilt, evaluate_gate ?_ name⟩
  rw [hvalues]
  exact gate_state h values []

/-! ## Drafts -/

/-- The circuit that a draft comes to: the numbered inputs, and a gate over their names. -/
def numbered (q : Requirement) (values : List Value) : Circuit :=
  let inputs := Draft.numberFrom 0 values
  ⟨inputs, [(.str q.gateName, ⟨q.operator.word, Table.keys inputs, []⟩)]⟩

theorem built_numbered (q : Requirement) (values : List Value) : (q.numbered values).Built := by
  have hinputs : Circuit.Built ⟨Draft.numberFrom 0 values, []⟩ :=
    Circuit.built_of_named (Draft.named_numberFrom 0 values)
  have hgate : Circuit.gate ⟨Draft.numberFrom 0 values, []⟩ (.str q.gateName) (.str q.operator.word)
      (.list (Table.keys (Draft.numberFrom 0 values))) .null = .ok (q.numbered values) := by
    cases q <;> rfl
  exact .gate hinputs hgate

/-- No numbered name begins as an inversion or an expression does. -/
theorem wired_numbered (q : Requirement) (values : List Value) :
    Circuit.Wired (Table.keys (q.numbered values).inputs) (q.numbered values).gates := by
  have hword : q.operator.word ∈ CircuitGate.words := by cases q <;> decide
  refine ⟨⟨hword, ?_, List.forall_mem_nil _⟩, trivial⟩
  intro key hkey
  obtain ⟨e, he, rfl⟩ := List.mem_map.1 hkey
  obtain ⟨i, -, hname, -⟩ := Draft.mem_numberFrom he
  refine .inr ⟨_, List.mem_filterMap.2 ⟨e.1, hkey, by rw [hname]; rfl⟩, hname, ?_⟩
  rw [String.toList_append]
  simp

theorem evaluate_numbered (h : List.Forall₂ Value.Signals values states) :
    (q.numbered values).evaluate (.str q.gateName) = .ok (q.vote states) := by
  refine evaluate_gate ?_ q.gateName
  rw [(Draft.named_numberFrom 0 values).lookups, Draft.values_numberFrom]
  exact gate_state h _ _

theorem draft_read (h : ∀ v ∈ values, v.isSignal = true) (q : Requirement) :
    ∃ entries b, (q.draft values).blueprint = .ok (.map entries) ∧ (Value.map entries).isWhole = true ∧
      (Blueprint.ofMapping (.map entries)).result = .ok b ∧ b.Exports (q.numbered values) := by
  have hinputs : ∀ e ∈ (q.numbered values).inputs, e.2.isSignal = true := by
    intro e he
    obtain ⟨-, -, -, hvalue⟩ := Draft.mem_numberFrom he
    exact h e.2 hvalue
  let entries : Entries := [
    (.str "name", .str Draft.defaultName),
    (.str "inputs", .map (q.numbered values).inputs),
    (.str "gates", .map ((q.numbered values).gates.map fun e => (e.1, e.2.definition))),
    (.str "output", .str q.gateName)]
  have hdraft : (q.draft values).blueprint = .ok (.map entries) := by cases q <;> rfl
  have hname : (entries.field "name").orElse (entries.field "id") = .ok (.str Draft.defaultName) := rfl
  obtain ⟨b, hread, hexports⟩ := Circuit.mapping_read (built_numbered q values) hinputs (wired_numbered q values)
    hname rfl rfl rfl
  refine ⟨entries, b, hdraft, Value.entriesAreWhole_iff.2 ?_, hread, hexports⟩
  simp only [entries, List.forall_mem_cons]
  exact ⟨⟨rfl, rfl⟩, ⟨rfl, Circuit.isWhole_inputs (built_numbered q values) hinputs⟩,
    ⟨rfl, Circuit.isWhole_gates (built_numbered q values) (wired_numbered q values)⟩, ⟨rfl, rfl⟩,
    List.forall_mem_nil _⟩

/-- Every report on the draft has the state that the vote of the values gives. -/
theorem report_eq (h : List.Forall₂ Value.Signals values states) {b : Blueprint}
    (hexports : b.Exports (q.numbered values)) (env : Blueprint.Setting) (context : Value) :
    ∃ r, (env.evaluate b context).result = .ok r ∧ r.result = q.vote states := by
  obtain ⟨r, hreport, ⟨last, hlast, hresult⟩, -⟩ := Circuit.report_toldBy (built_numbered q values)
    (List.cons_ne_nil _ _) (wired_numbered q values) hexports env context
  obtain rfl : .str q.gateName = last := Option.some.inj hlast
  exact ⟨r, hreport, Except.ok.inj (hresult.symm.trans (evaluate_numbered h))⟩

end Requirement

/-! ## Four ways -/

theorem Vote.all_eq_no {states : List State} : Vote.all states = .no ↔ State.no ∈ states := by
  unfold Vote.all
  split_ifs with hno hunknown
  · exact ⟨fun _ => List.contains_iff_mem.1 hno, fun _ => rfl⟩
  · exact ⟨fun h => (nomatch h), fun h => absurd (List.contains_iff_mem.2 h) hno⟩
  · exact ⟨fun h => (nomatch h), fun h => absurd (List.contains_iff_mem.2 h) hno⟩

theorem State.toBool_false (s : State) : s.toBool false = s.isYes := by cases s <;> rfl

theorem State.toBool_true_eq_false {s : State} : s.toBool true = false ↔ s = .no := by cases s <;> decide

namespace Value

theorem mem_states {values : List Value} {states : List State} (h : List.Forall₂ StandsFor values states)
    {s : State} : s ∈ states ↔ ∃ v ∈ values, v.toState = .ok s := by
  induction h with
  | nil => exact ⟨fun h => (nomatch h), fun ⟨_, h, _⟩ => (nomatch h)⟩
  | @cons v t values states hv _ ih =>
    have hhead : v.toState = .ok s ↔ s = t := by
      rw [show v.toState = .ok t from hv, Except.ok.injEq, eq_comm]
    simp only [List.mem_cons, exists_eq_or_imp, hhead, ih]

theorem exists_all_signals {values : List Value} (h : ∀ v ∈ values, v.isSignal = true) :
    ∃ states, List.Forall₂ Signals values states := by
  induction values with
  | nil => exact ⟨[], .nil⟩
  | cons v values ih =>
    obtain ⟨hv, hrest⟩ := List.forall_mem_cons.1 h
    obtain ⟨s, hs⟩ := exists_signals hv
    obtain ⟨states, hstates⟩ := ih hrest
    exact ⟨s :: states, .cons hs hstates⟩

end Value

section

variable {τ ω : Type} [LE τ] [DecidableLE τ] [LT τ] [DecidableLT τ] [Add τ] {e : Engine τ ω}

/-- Whether an engine makes the report of a draft, in the draft's own context. -/
def Engine.Decides (e : Engine τ ω) (present : Present τ) (memoize : Option Bool) (d : Draft) (report : Report) :
    Prop :=
  ∃ source served, d.blueprint = .ok source ∧
    (e.evaluate present source (.map d.context) memoize).2.result = .ok served ∧ served.report = report

/-- The four ways of requiring all or any of some states, trits, truth values, integers and
    nulls come to one state: the shortcut says whether it is `yes`, and the algebra, a
    circuit's gate and a draft that an engine decides give it. If the engine memoizes, what
    it keeps under the key has to be of the same blueprint. To take an undecided answer for
    `true` leaves `all` false for one reason only, that a value stands for `no`. -/
theorem Requirement.ways_agree {values : List Value} (hsignals : ∀ v ∈ values, v.isSignal = true) (q : Requirement)
    (present : Present τ) (memoize : Option Bool) (hobservers : ∀ report err, ¬Engine.Rejects e.observers report err)
    (hkept : memoize.getD e.memoizes = true → ∀ source b, (q.draft values).blueprint = .ok source →
      (Blueprint.ofValue source).result = .ok b → e.KeepsOwn b (.map [])) :
    ∃ s, q.shortcut values = .ok s.isYes ∧ q.algebra values = .ok s ∧
      (∀ name, ∃ c, q.circuit name values = .ok c ∧ c.evaluate (.str name) = .ok s) ∧
      ∃ report, e.Decides present memoize (q.draft values) report ∧ report.toBool false = s.isYes ∧
        (q = .all → (report.toBool true = false ↔ ∃ v ∈ values, v.toState = .ok .no)) := by
  obtain ⟨states, hstates⟩ := Value.exists_all_signals hsignals
  have hstand : List.Forall₂ Value.StandsFor values states := hstates.imp fun _ _ hs => hs.state
  obtain ⟨entries, b, hsource, hwhole, hread, hexports⟩ := draft_read hsignals q
  obtain ⟨report, hreport, -⟩ := report_eq hstates hexports e.setting (Engine.contextOf (.map []))
  obtain ⟨served, other, hserved, hother⟩ : ∃ served other,
      (e.evaluate present (.map entries) (.map []) memoize).2.result = .ok served ∧
        (e.setting.evaluate b other).result = .ok served.report :=
    Engine.evaluate_of_own hread (fun _ => Blueprint.key_of_mapping hread hwhole rfl)
      (fun hmemo => hkept hmemo _ b hsource hread) hobservers hreport
  obtain ⟨told, htold, hresult⟩ := report_eq hstates hexports e.setting other
  obtain rfl : told = served.report := Except.ok.inj (htold.symm.trans hother)
  have hcontext : (q.draft values).context = [] := by cases q <;> rfl
  refine ⟨q.vote states, shortcut_eq hstand, algebra_eq hstates, fun name => circuit_eq hstates name,
    served.report, ⟨.map entries, served, hsource, by rw [hcontext]; exact hserved, rfl⟩, ?_, ?_⟩
  · rw [Report.toBool, hresult, State.toBool_false]
  · rintro rfl
    rw [Report.toBool, hresult, State.toBool_true_eq_false, vote, Vote.all_eq_no, Value.mem_states hstand]

end

/-- The integer `-1` is undecided, as a null is: requiring all of these values fails, unless
    an undecided answer is taken for `true`. -/
theorem Requirement.ways_agree_undecided :
    let values : List Value := [.state .yes, .trit .positive, .bool true, .int (-1), .null, .int 7]
    let e : Engine Nat Unit := .fresh ⟨.standard, .none⟩ true 60 ()
    (∀ v ∈ values, v.isSignal = true) ∧
      ∃ report, e.Decides ⟨0, 0⟩ none (Requirement.all.draft values) report ∧ report.toBool false = false ∧
        report.toBool true = true := by
  intro values e
  have hsignals : ∀ v ∈ values, v.isSignal = true := by decide
  have hobservers : ∀ report err, ¬Engine.Rejects e.observers report err := by
    rintro report err ⟨observer, hnone, -⟩
    cases hnone
  obtain ⟨s, hshortcut, -, -, report, hdecides, hfalse, htrue⟩ :=
    Requirement.ways_agree hsignals .all ⟨0, 0⟩ none hobservers (by intro _ source b _ _ kept hnone; cases hnone)
  have hyes : s.isYes = false := by
    have hstops : Requirement.all.shortcut values = .ok false := rfl
    exact (Except.ok.inj (hstops.symm.trans hshortcut)).symm
  have hnone : ∀ v ∈ values, v.toState ≠ .ok .no := by
    simp only [values, List.forall_mem_cons]
    exact ⟨nofun, nofun, nofun, nofun, nofun, nofun, List.forall_mem_nil _⟩
  refine ⟨hsignals, report, hdecides, hfalse.trans hyes, Bool.eq_true_of_not_eq_false fun h => ?_⟩
  obtain ⟨v, hv, hno⟩ := (htrue rfl).1 h
  exact hnone v hv hno

end Verdict
