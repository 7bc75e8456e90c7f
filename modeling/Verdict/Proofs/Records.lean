/-
  Verdict.Proofs.Records — the key of a blueprint that was not read from a mapping.

  Such a blueprint is digested as a record, and its operands and inputs as records that no
  longer say what kind they are of: the names of their fields tell it
  (`Operand.canonical_inj`, `Source.canonical_inj`). So the key tells the gates, their
  order and the output, and the inputs up to their order, which no gate can see: blueprints
  of one key make the same reports (`evaluate_same_record`).
-/

import Verdict.Proofs.SameKey
import Verdict.Proofs.Shuffles
import Mathlib.Data.List.Nodup

namespace Verdict

/-! ## Members of records -/

namespace Json

/-- Members under the same names in the same order, each name once, are known from the
    sorted ones. -/
theorem sortMembers_inj {ms ns : List (Script × Json)} (hnames : ms.map Prod.fst = ns.map Prod.fst)
    (hms : (ms.map Prod.fst).Nodup) (h : sortMembers ms = sortMembers ns) : ms = ns := by
  have hperm : ms.Perm ns := (sortMembers_eq_iff hms (hnames ▸ hms)).1 h
  clear h
  induction ms generalizing ns with
  | nil => exact hperm.nil_eq
  | cons m ms ih =>
    obtain _ | ⟨n, ns⟩ := ns
    · cases hnames
    · obtain ⟨hname, hrest⟩ := List.cons.inj hnames
      obtain ⟨hfresh, hms⟩ := List.nodup_cons.1 hms
      -- the first member is among the others, and its name is not among theirs
      have hhead : m = n := by
        rcases List.mem_cons.1 (hperm.subset List.mem_cons_self) with heq | hmem
        · exact heq
        · exact absurd (hrest ▸ List.mem_map_of_mem hmem) hfresh
      subst hhead
      rw [ih hrest hms hperm.cons_inv]

end Json

namespace Value

/-- Things that are known from their canonical form each are known from that of all. -/
theorem canonicalAll_inj {α : Type} {f : α → Value} {p : α → Prop}
    (hinj : ∀ {a a'}, p a → p a' → (f a).canonical = (f a').canonical → a = a') {as as' : List α}
    (has : ∀ a ∈ as, p a) (has' : ∀ a ∈ as', p a)
    (h : canonicalAll (as.map f) = canonicalAll (as'.map f)) : as = as' := by
  induction as generalizing as' with
  | nil =>
    cases as' with
    | nil => rfl
    | cons => cases h
  | cons a as ih =>
    cases as' with
    | nil => cases h
    | cons a' as' =>
      obtain ⟨ha, has⟩ := List.forall_mem_cons.1 has
      obtain ⟨ha', has'⟩ := List.forall_mem_cons.1 has'
      obtain ⟨hhead, htail⟩ := List.cons.inj h
      rw [hinj ha ha' hhead, ih has has' htail]

theorem allFloatless_all {vs : List Value} (h : ∀ v ∈ vs, v.canonical.floatless = true) :
    Json.allFloatless (canonicalAll vs) = true := by
  induction vs with
  | nil => rfl
  | cons v vs ih =>
    obtain ⟨hv, hvs⟩ := List.forall_mem_cons.1 h
    rw [canonicalAll, Json.allFloatless, hv, ih hvs]
    rfl

/-- Whether the value is a string or nothing. -/
def isNote : Value → Bool
  | null | str _ | torn _ => true
  | _ => false

theorem isPlain_of_isNote {v : Value} (h : v.isNote = true) : v.isPlain = true := by
  cases v with
  | null | str | torn => rfl
  | _ => cases h

theorem eq_of_isNote {v w : Value} (hv : v.isNote = true) (hw : w.isNote = true)
    (h : v.canonical = w.canonical) : v = w := by
  cases (shuffled_of_canonical (isPlain_of_isNote hv) (isPlain_of_isNote hw) h) with
  | atom => rfl
  | list => cases hv
  | map => cases hv

end Value

theorem State.word_inj {s s' : State} (h : s.word = s'.word) : s = s' := by
  cases s <;> cases s' <;> first | rfl | exact absurd h (by decide)

theorem Operator.word_inj {o o' : Operator} (h : o.word = o'.word) : o = o' := by
  cases o <;> cases o' <;> first | rfl | exact absurd h (by decide)

/-! ## Inputs and operands -/

/-- The one field of an input. -/
def Source.member : Source → Script × Json
  | .literal s => ("state", .str s.word)
  | .context path => ("path", .str path)
  | .expression text => ("expression", .str text)
  | .computed f => ("fn", .str (Value.functionText f))

theorem Source.canonical_toValue (s : Source) : s.toValue.canonical = .object [s.member] := by
  cases s <;> rfl

/-- The name of the field of an input tells what kind it is of. -/
theorem Source.canonical_inj {s s' : Source} (hs : s.isComputed = false) (hs' : s'.isComputed = false)
    (h : s.toValue.canonical = s'.toValue.canonical) : s = s' := by
  have hmember : s.member = s'.member := by
    rw [canonical_toValue, canonical_toValue] at h
    exact (List.cons.inj (Json.object.inj h)).1
  have hname : s.member.1 = s'.member.1 := congrArg Prod.fst hmember
  have hvalue : s.member.2 = s'.member.2 := congrArg Prod.snd hmember
  cases s with
  | literal state =>
    cases s' with
    | literal state' => rw [State.word_inj (Script.whole.inj (Json.str.inj hvalue))]
    | computed => cases hs'
    | _ => simp [member] at hname
  | context path =>
    cases s' with
    | context path' => rw [Script.whole.inj (Json.str.inj hvalue)]
    | computed => cases hs'
    | _ => simp [member] at hname
  | expression text =>
    cases s' with
    | expression text' => rw [Script.whole.inj (Json.str.inj hvalue)]
    | computed => cases hs'
    | _ => simp [member] at hname
  | computed => cases hs

/-- The fields of an operand, in the order of their names. -/
def Operand.members : Operand → List (Script × Json)
  | .reference name negated => [("name", .str name), ("negated", .bool negated)]
  | .expression text => [("expression", .str text)]
  | .computed f label => [("fn", .str (Value.functionText f)), ("label", .str label)]
  | .literal s => [("state", .str s.word)]

theorem Operand.canonical_toValue (o : Operand) : o.toValue.canonical = .object o.members := by
  cases o with
  | reference name negated =>
    have hge : ¬ Script.whole "negated" < "name" := by decide
    simp [toValue, members, Value.canonical, Value.canonicalFields, Json.sortMembers, Json.insertMember, hge]
  | computed f label =>
    have hge : ¬ Script.whole "label" < "fn" := by decide
    simp [toValue, members, Value.canonical, Value.canonicalFields, Json.sortMembers, Json.insertMember, hge]
  | expression => rfl
  | literal => rfl

/-- The names of the fields of an operand tell what kind it is of. -/
theorem Operand.canonical_inj {o o' : Operand} (ho : o.isComputed = false) (ho' : o'.isComputed = false)
    (h : o.toValue.canonical = o'.toValue.canonical) : o = o' := by
  have hmembers : o.members = o'.members := by
    rw [canonical_toValue, canonical_toValue] at h
    exact Json.object.inj h
  have hnames : o.members.map Prod.fst = o'.members.map Prod.fst := congrArg _ hmembers
  cases o with
  | reference name negated =>
    cases o' with
    | reference name' negated' => cases hmembers; rfl
    | computed => cases ho'
    | _ => simp [members] at hnames
  | expression text =>
    cases o' with
    | expression text' => cases hmembers; rfl
    | computed => cases ho'
    | _ => simp [members] at hnames
  | literal state =>
    cases o' with
    | literal state' =>
      obtain ⟨hfirst, -⟩ := List.cons.inj hmembers
      rw [State.word_inj (Script.whole.inj (Json.str.inj (Prod.mk.inj hfirst).2))]
    | computed => cases ho'
    | _ => simp [members] at hnames
  | computed => cases ho

/-! ## Gates -/

/-- Whether the texts of a gate are strings or nothing and the host is not asked for its
    operands. -/
structure Gate.IsWritten (g : Gate) : Prop where
  name : g.name.isNote = true
  expression : g.expression.isNote = true
  description : g.description.isNote = true
  pure : ∀ o ∈ g.operands, o.isComputed = false

namespace Gate

variable {g g' : Gate}

/-- The fields of a gate, in the order of the record. -/
def members (g : Gate) : List (Script × Json) := [
  ("name", g.name.canonical),
  ("operator", .str g.operator.word),
  ("operands", .array (Value.canonicalAll (g.operands.map Operand.toValue))),
  ("weights", .array (Value.canonicalAll (g.weights.map Value.int))),
  ("expression", g.expression.canonical),
  ("description", g.description.canonical),
  ("declared_operator", ((g.declared.map Value.str).getD .null).canonical)]

theorem canonical_toValue (g : Gate) : g.toValue.canonical = .object (Json.sortMembers g.members) := rfl

theorem names_members (g : Gate) : g.members.map Prod.fst =
    ["name", "operator", "operands", "weights", "expression", "description", "declared_operator"] := rfl

theorem declared_isNote (g : Gate) : ((g.declared.map Value.str).getD .null).isNote = true := by
  cases g.declared <;> rfl

theorem declared_inj (h : (g.declared.map Value.str).getD .null = (g'.declared.map Value.str).getD .null) :
    g.declared = g'.declared := by
  generalize g.declared = declared at h
  generalize g'.declared = declared' at h
  cases declared <;> cases declared' <;> cases h <;> rfl

theorem IsWritten.floatless (hg : g.IsWritten) : g.toValue.canonical.floatless = true := by
  have hnote {v : Value} (hv : v.isNote = true) : v.canonical.floatless = true :=
    Value.floatless_canonical (Value.isPlain_of_isNote hv)
  have hoperands : Json.allFloatless (Value.canonicalAll (g.operands.map Operand.toValue)) = true := by
    refine Value.allFloatless_all fun v hv => ?_
    obtain ⟨o, -, rfl⟩ := List.mem_map.1 hv
    rw [Operand.canonical_toValue]
    cases o <;> rfl
  have hweights : Json.allFloatless (Value.canonicalAll (g.weights.map Value.int)) = true := by
    refine Value.allFloatless_all fun v hv => ?_
    obtain ⟨n, -, rfl⟩ := List.mem_map.1 hv
    rfl
  rw [canonical_toValue, Json.floatless]
  refine Json.membersFloatless_sortMembers ?_
  simp only [members, Json.membersFloatless, Json.floatless, hnote hg.name, hnote hg.expression,
    hnote hg.description, hnote g.declared_isNote, hoperands, hweights, Bool.and_self]

/-- Such a gate is known from its canonical form. -/
theorem IsWritten.canonical_inj (hg : g.IsWritten) (hg' : g'.IsWritten)
    (h : g.toValue.canonical = g'.toValue.canonical) : g = g' := by
  rw [canonical_toValue, canonical_toValue] at h
  have hnodup : (g.members.map Prod.fst).Nodup := by
    rw [names_members]
    decide
  have hmembers : g.members = g'.members := Json.sortMembers_inj rfl hnodup (Json.object.inj h)
  simp only [members, List.cons.injEq, Prod.mk.injEq, true_and, and_true, Json.str.injEq,
    Script.whole.injEq, Json.array.injEq] at hmembers
  obtain ⟨hname, hoperator, hoperands, hweights, hexpression, hdescription, hdeclared⟩ := hmembers
  have hsame : g.operands = g'.operands :=
    Value.canonicalAll_inj Operand.canonical_inj hg.pure hg'.pure hoperands
  have hints : g.weights = g'.weights :=
    Value.canonicalAll_inj (f := Value.int) (p := fun _ => True) (fun _ _ heq => Json.int.inj heq)
      (fun _ _ => trivial) (fun _ _ => trivial) hweights
  have hlabels := declared_inj (Value.eq_of_isNote g.declared_isNote g'.declared_isNote hdeclared)
  cases g
  cases g'
  rw [mk.injEq]
  exact ⟨Value.eq_of_isNote hg.name hg'.name hname, Operator.word_inj hoperator, hsame, hints,
    Value.eq_of_isNote hg.expression hg'.expression hexpression,
    Value.eq_of_isNote hg.description hg'.description hdescription, hlabels⟩

end Gate

/-! ## Blueprints -/

namespace Blueprint

/-- Whether a blueprint was not read from a mapping, names each input once, does not ask the
    host for inputs and operands, and has texts that are strings or nothing. -/
structure IsOwn (b : Blueprint) : Prop where
  source : b.source = none
  distinct : (b.inputs.map Prod.fst).Nodup
  pure : ∀ p ∈ b.inputs, p.2.isComputed = false
  gates : ∀ g ∈ b.gates, g.IsWritten
  output : b.output.isPlain = true
  name : b.name.isNote = true

/-- Blueprints that differ in the order of their inputs only. -/
structure Twin (b b' : Blueprint) : Prop where
  inputs : b.inputs.Perm b'.inputs
  gates : b.gates = b'.gates
  output : Value.Reordered b.output b'.output
  name : b.name = b'.name

variable {b b' : Blueprint}

def inputMembers (b : Blueprint) : List (Script × Json) := b.inputs.map fun p => (.whole p.1, p.2.toValue.canonical)

/-- The fields of a blueprint, in the order of the record. -/
def members (b : Blueprint) : List (Script × Json) := [
  ("inputs", .object (Json.sortMembers b.inputMembers)),
  ("gates", .array (Value.canonicalAll (b.gates.map Gate.toValue))),
  ("output", b.output.canonical),
  ("name", b.name.canonical),
  ("source", (b.source.getD .null).canonical)]

theorem canonical_toValue (b : Blueprint) : b.toValue.canonical = .object (Json.sortMembers b.members) := by
  have hinputs : Value.canonicalEntries (b.inputs.map fun p => (.str p.1, p.2.toValue)) = b.inputMembers := by
    rw [Value.canonicalEntries_eq, List.map_map]
    rfl
  rw [members, ← hinputs]
  rfl

theorem names_members (b : Blueprint) :
    b.members.map Prod.fst = ["inputs", "gates", "output", "name", "source"] := rfl

theorem names_inputMembers (b : Blueprint) :
    b.inputMembers.map Prod.fst = (b.inputs.map Prod.fst).map Script.whole := by
  rw [inputMembers, List.map_map, List.map_map]
  rfl

theorem floatless_inputMembers (b : Blueprint) : Json.membersFloatless b.inputMembers = true := by
  rw [inputMembers]
  induction b.inputs with
  | nil => rfl
  | cons p inputs ih =>
    have hsource : p.2.toValue.canonical.floatless = true := by
      cases p.2 <;> rfl
    rw [List.map_cons, Json.membersFloatless, hsource, ih]
    rfl

theorem IsOwn.floatless (hb : b.IsOwn) : b.toValue.canonical.floatless = true := by
  have hgates : Json.allFloatless (Value.canonicalAll (b.gates.map Gate.toValue)) = true := by
    refine Value.allFloatless_all fun v hv => ?_
    obtain ⟨g, hg, rfl⟩ := List.mem_map.1 hv
    exact (hb.gates g hg).floatless
  rw [canonical_toValue, Json.floatless]
  refine Json.membersFloatless_sortMembers ?_
  simp only [members, hb.source, Option.getD_none, Json.membersFloatless, Json.floatless, hgates,
    Json.membersFloatless_sortMembers b.floatless_inputMembers, Value.floatless_canonical hb.output,
    Value.floatless_canonical (Value.isPlain_of_isNote hb.name), Value.canonical, Bool.and_self]

theorem mem_of_inputMembers (hb : b.IsOwn) (hb' : b'.IsOwn) (h : b.inputMembers ⊆ b'.inputMembers)
    {p : String × Source} (hp : p ∈ b.inputs) : p ∈ b'.inputs := by
  obtain ⟨q, hq, heq⟩ := List.mem_map.1 (h (List.mem_map_of_mem hp))
  obtain ⟨hname, hsource⟩ := Prod.mk.inj heq
  have hpq : q = p := Prod.ext (Script.whole.inj hname) (Source.canonical_inj (hb'.pure q hq) (hb.pure p hp) hsource)
  rwa [← hpq]

/-- The inputs are known from their sorted members up to their order. -/
theorem IsOwn.sortMembers_eq_iff (hb : b.IsOwn) (hb' : b'.IsOwn) :
    Json.sortMembers b.inputMembers = Json.sortMembers b'.inputMembers ↔ b.inputs.Perm b'.inputs := by
  have hnodup {c : Blueprint} (hc : c.IsOwn) : (c.inputMembers.map Prod.fst).Nodup := by
    rw [names_inputMembers]
    exact hc.distinct.map fun _ _ => Script.whole.inj
  rw [Json.sortMembers_eq_iff (hnodup hb) (hnodup hb')]
  constructor
  · intro h
    rw [List.perm_ext_iff_of_nodup (.of_map _ hb.distinct) (.of_map _ hb'.distinct)]
    exact fun p => ⟨mem_of_inputMembers hb hb' h.subset, mem_of_inputMembers hb' hb h.symm.subset⟩
  · exact fun h => h.map _

/-- The canonical form tells everything but the order of the inputs. -/
theorem IsOwn.canonical_eq_iff (hb : b.IsOwn) (hb' : b'.IsOwn) :
    b.toValue.canonical = b'.toValue.canonical ↔ Twin b b' := by
  rw [canonical_toValue, canonical_toValue, Json.object.injEq]
  constructor
  · intro h
    have hnodup : (b.members.map Prod.fst).Nodup := by
      rw [names_members]
      decide
    have hmembers : b.members = b'.members := Json.sortMembers_inj rfl hnodup h
    simp only [members, List.cons.injEq, Prod.mk.injEq, true_and, and_true, Json.object.injEq,
      Json.array.injEq] at hmembers
    obtain ⟨hinputs, hgates, houtput, hname, -⟩ := hmembers
    exact {
      inputs := (hb.sortMembers_eq_iff hb').1 hinputs
      gates := Value.canonicalAll_inj Gate.IsWritten.canonical_inj hb.gates hb'.gates hgates
      output := ⟨hb.output, hb'.output, houtput⟩
      name := Value.eq_of_isNote hb.name hb'.name hname }
  · intro h
    have hsource : b.source = b'.source := hb.source.trans hb'.source.symm
    rw [members, members, (hb.sortMembers_eq_iff hb').2 h.inputs, h.gates, h.output.canonical, h.name, hsource]

/-- So does the text that is digested in a plain context. -/
theorem IsOwn.keyText_eq_iff (hb : b.IsOwn) (hb' : b'.IsOwn) {context : Value} (hcontext : context.isPlain = true) :
    b.keyText context = b'.keyText context ↔ Twin b b' := by
  have hfloatless {c : Blueprint} (hc : c.IsOwn) :
      (Json.object [("blueprint", c.toValue.canonical), ("context", context.canonical)]).floatless = true := by
    simp only [Json.floatless, Json.membersFloatless, hc.floatless, Value.floatless_canonical hcontext, Bool.and_self]
  simp only [keyText, hb.source, hb'.source, Option.getD_none, Value.canonicalText, canonical_call]
  rw [← hb.canonical_eq_iff hb']
  constructor
  · intro h
    have hkeyed := Json.text_compact_inj (hfloatless hb) (hfloatless hb') h
    simp only [Json.object.injEq, List.cons.injEq, Prod.mk.injEq, true_and, and_true] at hkeyed
    exact hkeyed
  · intro h
    rw [h]

/-! ## The order of inputs -/

namespace Setting

variable {env : Setting} {context : Value} {s t : Scope}

theorem decideGate_same (h : Scope.Near s t) {ds : List Decision} (es : List Decision) {g : Gate}
    (hg : ∀ o ∈ g.operands, o.isComputed = false) {d : Decision}
    (hd : (env.decideGate context s ds g).result = .ok d) : (env.decideGate context t es g).result = .ok d := by
  obtain ⟨evidence, state, hev, hs, rfl⟩ := decideGate_ok.1 hd
  refine decideGate_ok.2 ⟨evidence, state, gather_near h hg hev, ?_, rfl⟩
  split at hs
  · next hx => rw [if_pos hx]; exact express_near h (.refl _) hs
  · next hx => rw [if_neg hx]; exact hs

theorem decideAll_same {gates : List Gate} (h : Scope.Near s t)
    (hgates : ∀ g ∈ gates, ∀ o ∈ g.operands, o.isComputed = false) {before decisions : List Decision} {s' : Scope}
    (hs : (env.decideAll context s before gates).result = .ok (s', decisions)) :
    ∃ t', (env.decideAll context t before gates).result = .ok (t', decisions) ∧ Scope.Near s' t' := by
  induction gates generalizing s t before with
  | nil => cases hs; exact ⟨t, rfl, h⟩
  | cons g gates ih =>
    obtain ⟨hfirst, hrest⟩ := List.forall_mem_cons.1 hgates
    obtain ⟨d, hd, hk, hs⟩ := decideAll_cons_ok.1 hs
    obtain ⟨t', ht, hnear⟩ := ih (h.set d.name d.state) hrest hs
    exact ⟨t', decideAll_cons_ok.2 ⟨d, decideGate_same h before hfirst hd, hk, ht⟩, hnear⟩

end Setting

/-- Twins make the same reports. -/
theorem Twin.evaluate {env : Setting} {context : Value} {r : Report} (h : Twin b b') (hb : b.IsOwn)
    (hr : (env.evaluate b context).result = .ok r) : (env.evaluate b' context).result = .ok r := by
  obtain ⟨scope, scope', ds, result, hscope, hds, hsel, rfl⟩ := evaluate_ok.1 hr
  have hone : ∀ p ∈ b.inputs, ∀ q ∈ b.inputs, p.1 = q.1 → p = q :=
    fun _ hp _ hq => List.inj_on_of_nodup_map hb.distinct hp hq
  obtain ⟨t, ht, hnear⟩ := Setting.resolveInputs_near (fun p => h.inputs.mem_iff) hone hscope
  obtain ⟨t', ht', hnear'⟩ := Setting.decideAll_same hnear (fun g hg => (hb.gates g hg).pure) hds
  have hlike : List.Forall₂ Decision.Like ds ds := List.forall₂_same.2 fun _ _ => ⟨rfl, rfl, rfl, rfl, .refl _⟩
  rw [h.gates] at ht'
  rw [h.name]
  exact evaluate_ok.2 ⟨t, t', ds, result, ht, ht', select_like hnear' hlike h.output hsel, rfl⟩

/-- Blueprints that were not read from mappings and share a key in a context make the same
    reports. -/
theorem evaluate_same_record {env : Setting} {context : Value} {r : Report} (hb : b.IsOwn) (hb' : b'.IsOwn)
    (hcontext : context.isPlain = true) (hkey : b.key context = b'.key context)
    (hsha : b.key context = b'.key context → b.keyText context = b'.keyText context)
    (hr : (env.evaluate b context).result = .ok r) : (env.evaluate b' context).result = .ok r :=
  ((hb.keyText_eq_iff hb' hcontext).1 (hsha hkey)).evaluate hb hr

/-- The inputs are written the other way round. -/
theorem evaluate_same_record_turned :
    let env : Setting := ⟨.standard, .none⟩
    let context : Value := .map [(.str "user", .map [(.str "a", .bool true)])]
    let gates : List Gate := [
      ⟨.str "g", .weighted, [.reference "a" false, .reference "b" true, .literal .unknown], [2, 1, 1], .null,
        .str "first", none⟩,
      ⟨.str "h", .not, [.reference "g" true], [], .null, .null, some "INVERT"⟩]
    let inputs : List (String × Source) := [("a", .context "user.a"), ("b", .literal .no)]
    let b : Blueprint := { inputs, gates, output := .str "h", name := .str "turned", source := none }
    let b' : Blueprint := { inputs := inputs.reverse, gates, output := .str "h", name := .str "turned", source := none }
    ∃ r, (env.evaluate b context).result = .ok r ∧ (env.evaluate b' context).result = .ok r ∧ r.result = .yes ∧
      r.encoded = "++" := by
  intro env context gates inputs b b'
  have hgates : ∀ g ∈ gates, g.IsWritten :=
    List.forall_mem_cons.2 ⟨⟨rfl, rfl, rfl, by decide⟩, List.forall_mem_cons.2 ⟨⟨rfl, rfl, rfl, by decide⟩, nofun⟩⟩
  have hb : b.IsOwn := ⟨rfl, by decide, by decide, hgates, rfl, rfl⟩
  have hb' : b'.IsOwn := ⟨rfl, by decide, by decide, hgates, rfl, rfl⟩
  have htext : b.keyText context = b'.keyText context :=
    (hb.keyText_eq_iff hb' rfl).2 ⟨(List.reverse_perm inputs).symm, rfl, .refl rfl, rfl⟩
  have hkey : b.key context = b'.key context := key_congr htext
  refine ⟨_, rfl, ?_⟩
  exact ⟨evaluate_same_record hb hb' rfl hkey (fun _ => htext) rfl, rfl, rfl⟩

end Blueprint

end Verdict
