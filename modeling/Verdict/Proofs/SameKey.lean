/-
  Verdict.Proofs.SameKey — what a key does not tell about a blueprint.

  The key of a blueprint is the digest of a text in which mappings are sorted by name, so
  blueprints whose data differs in the order of its mappings only share a key. They read the
  same inputs, operators, expressions and output, but not the same order of gates. One of
  them makes the report of another exactly when each of its gates can come to the decision
  in the same place (`evaluate_same_key`); when its gates are written in another order it
  need not (`same_key_other_result`).
-/

import Verdict.Proofs.Memo
import Verdict.Proofs.Readings

namespace Verdict

open Value (Reordered Alike)

/-- Reports that differ in the order of mappings in descriptions only. -/
structure Report.Like (r r' : Report) : Prop where
  result : r.result = r'.result
  decisions : List.Forall₂ Decision.Like r.decisions r'.decisions
  encoded : r.encoded = r'.encoded

/-- Gates written alike but for their expressions and descriptions. -/
structure Gate.Agrees (g g' : Gate) : Prop where
  name : g.name = g'.name
  operator : g.operator = g'.operator
  label : g.operatorLabel = g'.operatorLabel
  operands : g.operands = g'.operands
  weights : g.weights = g'.weights

namespace Blueprint

/-- Plain data and plain contexts are known from the text of a key up to the order of their
    mappings. -/
theorem reordered_of_keyText {b b' : Blueprint} {data data' c c' : Value} (hb : b.source = some data)
    (hb' : b'.source = some data') (hdata : data.isPlain = true) (hdata' : data'.isPlain = true)
    (hc : c.isPlain = true) (hc' : c'.isPlain = true) (h : b.keyText c = b'.keyText c') :
    Reordered data data' ∧ Reordered c c' := by
  have hplain {b : Blueprint} {d k : Value} (hb : b.source = some d) (hd : d.isPlain = true)
      (hk : k.isPlain = true) : (b.call k).isPlain = true := by
    have hfind : Table.find? [(Value.str "context", k)] (.str "blueprint") = none := rfl
    rw [call, hb]
    exact Value.entriesArePlain_cons.2
      ⟨⟨.whole _, rfl, hfind⟩, hd, Value.entriesArePlain_cons.2 ⟨⟨.whole _, rfl, rfl⟩, hk, rfl⟩⟩
  have hinj := Value.canonicalText_inj (hplain hb hdata hc) (hplain hb' hdata' hc') h
  simp only [canonical_call, hb, hb', Option.getD_some, Json.object.injEq, List.cons.injEq, Prod.mk.injEq,
    true_and, and_true] at hinj
  exact ⟨⟨hdata, hdata', hinj.1⟩, ⟨hc, hc', hinj.2⟩⟩

theorem keyText_of_canonical {b b' : Blueprint} {data data' : Value} (hb : b.source = some data)
    (hb' : b'.source = some data') (h : data.canonical = data'.canonical) (context : Value) :
    b.keyText context = b'.keyText context := by
  simp only [keyText, hb, hb', Option.getD_some, Value.canonicalText, canonical_call, h]

theorem key_of_canonical {b b' : Blueprint} {data data' : Value} (hb : b.source = some data)
    (hb' : b'.source = some data') (h : data.canonical = data'.canonical) (context : Value) :
    b.key context = b'.key context :=
  key_congr (keyText_of_canonical hb hb' h context)

theorem states_like {ds es : List Decision} (h : List.Forall₂ Decision.Like ds es) :
    ds.map Decision.state = es.map Decision.state := by
  induction h with
  | nil => rfl
  | cons hd _ ih => rw [List.map_cons, List.map_cons, hd.state, ih]

theorem select_like {scope scope' : Scope} {ds es : List Decision} (h : Scope.Near scope scope')
    (hds : List.Forall₂ Decision.Like ds es) {output output' : Value} (ho : Reordered output output')
    {s : State} (hs : Setting.select output scope ds = .ok s) : Setting.select output' scope' es = .ok s := by
  have hlast : Setting.lastState ds = Setting.lastState es := by
    simp only [Setting.lastState, ← List.getLast?_map, states_like hds]
  cases ho.form with
  | atom hatom =>
    have hsame : Setting.select output scope ds = Setting.select output scope' es := by
      unfold Setting.select
      rw [hlast]
      split
      · rfl
      · rw [h.find _ hatom]
    exact hsame ▸ hs
  | list => cases hs
  | map => cases hs

theorem retells_like {gates : List Gate} {ds es : List Decision} (hds : List.Forall₂ Decision.Like ds es)
    (h : List.Forall₂ Gate.Retells gates es) : List.Forall₂ Gate.Retells gates ds := by
  induction hds generalizing gates with
  | nil => cases h; exact .nil
  | cons hd _ ih =>
    obtain _ | ⟨hg, hrest⟩ := h
    refine .cons ⟨hg.name.trans hd.name.symm, hg.label.trans hd.operator.symm, ?_, ?_⟩ (ih hrest)
    · rw [hd.evidence]; exact hg.operands
    · rw [hd.evidence, hd.state]; exact hg.vote

theorem retells_of_agrees {gates gates' : List Gate} {ds : List Decision}
    (h : List.Forall₂ Gate.Agrees gates gates') (hr : List.Forall₂ Gate.Retells gates ds) :
    List.Forall₂ Gate.Retells gates' ds := by
  induction h generalizing ds with
  | nil => exact hr
  | cons hg _ ih =>
    obtain _ | ⟨hd, hrest⟩ := hr
    refine .cons ⟨hg.name ▸ hd.name, hg.label ▸ hd.label, hg.operands ▸ hd.operands, fun hw => ?_⟩ (ih hrest)
    rw [← hg.weights]
    exact hd.vote (hg.operator.trans hw)

section

variable {env : Setting} {data data' context : Value} {b b' : Blueprint} {r : Report}

/-- Blueprints of reordered data make one report, if each gate of the second can come to the
    decision in its place. -/
theorem evaluate_of_retells (hdata : Reordered data data') (hb : (ofMapping data).result = .ok b)
    (hb' : (ofMapping data').result = .ok b') (hr : (env.evaluate b context).result = .ok r)
    (hretells' : List.Forall₂ Gate.Retells b'.gates r.decisions) :
    ∃ r', (env.evaluate b' context).result = .ok r' ∧ r.Like r' := by
  obtain ⟨scope, scope', ds, s, hscope, hds, hsel, rfl⟩ := evaluate_ok.1 hr
  obtain ⟨es, gates, items, inputs, rfl, hgates, hitems, hdefs, hinputs, hread, hout, hsource⟩ :=
    ofMapping_ok hb
  obtain ⟨fs, gates', items', inputs', rfl, hgates', hitems', hdefs', hinputs', hread', hout', hsource'⟩ :=
    ofMapping_ok hb'
  have hfield (name : String) : Reordered (Entries.field es name) (Entries.field fs name) :=
    .getD (Value.reordered_find? hdata.left hdata.right hdata.canonical name) rfl
  -- the same inputs, in whatever order
  have hin : Reordered (.map inputs) (.map inputs') := (hfield "inputs").orElse rfl hinputs hinputs'
  obtain ⟨t, ht, hnear⟩ := Setting.resolveInputs_near (inputs_reordered hin hread hread')
    (inputs_one hin.left hread) hscope
  -- the same gates, in the same order
  obtain ⟨_, rfl, hretells⟩ := Setting.decideAll_retells hds
  have hnames : items.map (·.1) = items'.map (·.1) := by
    rw [Gate.names_of_items (Gate.ofDefinitions_ok hdefs), Gate.names_of_items (Gate.ofDefinitions_ok hdefs'),
      Gate.names_of_retells hretells, Gate.names_of_retells hretells']
  have hdefinitions := items_reordered ((hfield "gates").orElse rfl hgates hgates') hitems hitems' hnames
  have hlike := gates_like hdefinitions hdefs hdefs' hretells hretells'
  obtain ⟨t', es', hes', hds', hnear'⟩ := Setting.decideAll_near hnear hlike [] hretells' hds
  have houtput : Reordered b.output b'.output := by rw [hout, hout']; exact hfield "output"
  have hsel' := select_like hnear' hds' houtput hsel
  refine ⟨_, evaluate_ok.2 ⟨t, t', es', s, ht, hes', hsel', rfl⟩, rfl, hds', ?_⟩
  exact congrArg encodeStates (states_like hds')

theorem retells_of_evaluate {r' : Report} (hr' : (env.evaluate b' context).result = .ok r')
    (hlike : r.Like r') : List.Forall₂ Gate.Retells b'.gates r.decisions := by
  obtain ⟨_, _, es, _, _, hes, _, rfl⟩ := evaluate_ok.1 hr'
  obtain ⟨_, rfl, hretells⟩ := Setting.decideAll_retells hes
  exact retells_like hlike.decisions hretells

/-- Gates with the same names, operators, operands and weights in the same order make one
    report. -/
theorem evaluate_of_order (hdata : Reordered data data') (hb : (ofMapping data).result = .ok b)
    (hb' : (ofMapping data').result = .ok b') (hr : (env.evaluate b context).result = .ok r)
    (horder : List.Forall₂ Gate.Agrees b.gates b'.gates) :
    ∃ r', (env.evaluate b' context).result = .ok r' ∧ r.Like r' := by
  refine evaluate_of_retells hdata hb hb' hr ?_
  obtain ⟨_, _, ds, _, _, hds, _, rfl⟩ := evaluate_ok.1 hr
  obtain ⟨_, rfl, hretells⟩ := Setting.decideAll_retells hds
  exact retells_of_agrees horder hretells

/-- The report of a blueprint is also that of another with the same key exactly when each
    gate of the other can come to the decision in its place. -/
theorem evaluate_same_key (hdata : data.isPlain = true) (hdata' : data'.isPlain = true)
    (hcontext : context.isPlain = true) (hb : (ofMapping data).result = .ok b)
    (hb' : (ofMapping data').result = .ok b') (hkey : b.key context = b'.key context)
    (hsha : b.key context = b'.key context → b.keyText context = b'.keyText context)
    (hr : (env.evaluate b context).result = .ok r) :
    (∃ r', (env.evaluate b' context).result = .ok r' ∧ r.Like r') ↔
      List.Forall₂ Gate.Retells b'.gates r.decisions := by
  obtain ⟨_, _, _, _, _, _, _, _, _, _, _, hsource⟩ := ofMapping_ok hb
  obtain ⟨_, _, _, _, _, _, _, _, _, _, _, hsource'⟩ := ofMapping_ok hb'
  have hreordered := reordered_of_keyText hsource hsource' hdata hdata' hcontext hcontext (hsha hkey)
  constructor
  · rintro ⟨r', hr', hlike⟩
    exact retells_of_evaluate hr' hlike
  · exact evaluate_of_retells hreordered.1 hb hb' hr

end

/-- Inputs, fields and the blueprint itself are written in another order, the gates are not. -/
theorem evaluate_same_key_inputs :
    let env : Setting := ⟨.standard, .none⟩
    let context : Value := .map [(.str "user", .map [(.str "b", .str "no")])]
    let first : Value := .map [(.str "operands", .list [.str "a", .str "!b"])]
    let second : Value := .map [(.str "operands", .list [.str "first", .bool false]), (.str "operator", .str "or")]
    let second' : Value := .map [(.str "operator", .str "or"), (.str "operands", .list [.str "first", .bool false])]
    let data : Value := .map [
      (.str "inputs", .map [(.str "a", .bool true), (.str "b", .str "user.b")]),
      (.str "gates", .map [(.str "first", first), (.str "second", second)])]
    let data' : Value := .map [
      (.str "gates", .map [(.str "first", first), (.str "second", second')]),
      (.str "inputs", .map [(.str "b", .str "user.b"), (.str "a", .bool true)])]
    ∃ b b' r, (ofMapping data).result = .ok b ∧ (ofMapping data').result = .ok b' ∧
      (env.evaluate b context).result = .ok r ∧
      ∃ r', (env.evaluate b' context).result = .ok r' ∧ r.Like r' := by
  intro env context first second second' data data'
  have hcanonical : data.canonical = data'.canonical := by
    have hab : Script.whole "a" < "b" := by decide
    have hba : ¬ Script.whole "b" < "a" := by decide
    have hgi : Script.whole "gates" < "inputs" := by decide
    have hig : ¬ Script.whole "inputs" < "gates" := by decide
    have hrs : Script.whole "operands" < "operator" := by decide
    have hsr : ¬ Script.whole "operator" < "operands" := by decide
    have hfs : ¬ Script.whole "second" < "first" := by decide
    simp [data, data', first, second, second', Value.canonical, Value.canonicalEntries, Value.canonicalAll,
      Value.keyText, Value.script?, Value.text?, Json.sortMembers, Json.insertMember, hab, hba, hgi, hig, hrs, hsr, hfs]
  refine ⟨_, _, _, rfl, rfl, rfl, ?_⟩
  refine (@evaluate_same_key env data data' context _ _ _ rfl rfl rfl rfl rfl ?_ ?_ rfl).2 ?_
  · exact key_of_canonical rfl rfl hcanonical context
  · exact fun _ => keyText_of_canonical rfl rfl hcanonical context
  · exact .cons ⟨rfl, rfl, rfl, by rintro ⟨⟩⟩ (.cons ⟨rfl, rfl, rfl, by rintro ⟨⟩⟩ .nil)

/-- Two blueprints of one key with different results: their gates are written in another
    order, and the last one counts. -/
theorem same_key_other_result :
    let env : Setting := ⟨.standard, .none⟩
    let x : Value × Value := (.str "x", .map [(.str "operands", .list [.bool true])])
    let y : Value × Value := (.str "y", .map [(.str "operands", .list [.bool false])])
    let data : Value := .map [(.str "gates", .map [x, y])]
    let data' : Value := .map [(.str "gates", .map [y, x])]
    ∃ b b' key r r', data.isPlain = true ∧ data'.isPlain = true ∧
      (ofMapping data).result = .ok b ∧ (ofMapping data').result = .ok b' ∧
      b.key (.map []) = .ok key ∧ b'.key (.map []) = .ok key ∧
      (env.evaluate b (.map [])).result = .ok r ∧ (env.evaluate b' (.map [])).result = .ok r' ∧
      r.result = .no ∧ r'.result = .yes ∧ r.encoded = "+-" ∧ r'.encoded = "-+" := by
  intro env x y data data'
  have hcanonical : data.canonical = data'.canonical := by
    have hxy : Script.whole "x" < "y" := by decide
    have hyx : ¬ Script.whole "y" < "x" := by decide
    simp [data, data', x, y, Value.canonical, Value.canonicalEntries, Value.keyText, Value.script?, Value.text?,
      Json.sortMembers, Json.insertMember, hxy, hyx]
  have hread : (ofMapping data).result = .ok _ := rfl
  have hread' : (ofMapping data').result = .ok _ := rfl
  obtain ⟨key, hkey⟩ := key_of_mapping hread rfl (rfl : (Value.map []).isWhole = true)
  refine ⟨_, _, key, _, _, rfl, rfl, hread, hread', hkey, ?_, rfl, rfl, rfl, rfl, rfl, rfl⟩
  exact (key_of_canonical rfl rfl hcanonical (.map [])).symm.trans hkey

end Blueprint

end Verdict
