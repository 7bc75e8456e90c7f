/-
  Verdict.Proofs.Drafts — drafts whose gates look back.

  Calls add inputs and gates to a draft, and each gate refers to names of earlier calls
  (`Draft.LooksBack`). Gates are decided in the order of their places, and a gate that is
  named again keeps its place: it may then refer to gates after it. The blueprint of a draft
  is grounded exactly if no gate does (`Draft.isGrounded_iff`), so it fails on no undefined
  operand, or gives no report at all. To add an input, or a gate that refers to what stands
  before its place only, keeps it that way (`Draft.Made.ordered`).
  Main statement: `Draft.calls_respected`.
-/

import Verdict.Proofs.Failures
import Verdict.Proofs.Grounding
import Verdict.Proofs.Requirements

namespace Verdict

/-! ## Names among others -/

theorem Value.isAmong_texts {known : List Value} (h : ∀ key ∈ known, ∃ s : String, key = .str s) {name : String} :
    (str name).isAmong known = true ↔ .str name ∈ known := by
  rw [isAmong, List.any_eq_true]
  constructor
  · rintro ⟨key, hkey, hsame⟩
    obtain ⟨s, rfl⟩ := h key hkey
    cases (same_str (.str s) name).1 hsame
    exact hkey
  · exact fun hmem => ⟨_, hmem, (same_str _ _).2 rfl⟩

theorem Blueprint.mem_inputNames {b : Blueprint} {name : String} :
    .str name ∈ b.inputNames ↔ name ∈ b.inputs.map Prod.fst := by
  simp [inputNames]

/-- Texts are displayed as they are. -/
theorem Table.Named.mem_displays {t : Entries} (h : Table.Named t) {name : String} :
    name ∈ t.map (fun e => e.1.display) ↔ .str name ∈ keys t := by
  rw [keys, List.mem_map, List.mem_map]
  refine exists_congr fun e => and_congr_right fun he => ?_
  obtain ⟨s, hs⟩ := h.names e he
  rw [hs, Value.str.injEq]
  rfl

/-! ## Keys of tables -/

namespace Table

variable {α : Type}

/-- A new key goes to the end. -/
theorem keys_set (t : Table α) (key : Value) (a : α) :
    keys (set t key a) = if t.contains key then keys t else keys t ++ [key] := by
  induction t with
  | nil => rfl
  | cons e t ih =>
    obtain ⟨k, b⟩ := e
    have hcontains : contains ((k, b) :: t) key = (k.same key || contains t key) := rfl
    rw [set, hcontains]
    cases hsame : k.same key with
    | true => rfl
    | false =>
      have hkeys : keys ((k, b) :: set t key a) = k :: keys (set t key a) := rfl
      rw [if_neg Bool.false_ne_true, hkeys, ih, Bool.false_or]
      split <;> rfl

theorem keys_subset_set (t : Table α) (key : Value) (a : α) : keys t ⊆ keys (set t key a) := by
  rw [keys_set]
  split
  · exact List.Subset.refl _
  · exact List.subset_append_left _ _

theorem keys_subset_merge (t others : Table α) : keys t ⊆ keys (merge t others) := by
  induction others generalizing t with
  | nil => exact List.Subset.refl _
  | cons e others ih => exact List.Subset.trans (keys_subset_set t e.1 e.2) (ih _)

theorem mem_keys_set {t : Table α} {key k : Value} {a : α} (h : k ∈ keys (set t key a)) : k = key ∨ k ∈ keys t := by
  rw [keys_set] at h
  split at h
  · exact .inr h
  · exact (List.mem_append.1 h).symm.imp_left List.mem_singleton.1

theorem mem_set_or {t : Table α} {key : Value} {a : α} {e : Value × α} (h : e ∈ set t key a) : e.2 = a ∨ e ∈ t := by
  induction t with
  | nil => exact .inl (by rw [List.mem_singleton.1 h])
  | cons f t ih =>
    rw [set] at h
    split at h
    · rcases List.mem_cons.1 h with rfl | h
      · exact .inl rfl
      · exact .inr (List.mem_cons_of_mem _ h)
    · rcases List.mem_cons.1 h with rfl | h
      · exact .inr List.mem_cons_self
      · exact (ih h).imp_right (List.mem_cons_of_mem _)

end Table

namespace Draft

/-! ## Calls -/

/-- What can be asked of a draft. -/
inductive Call
  | input (name : String) (v : Value)
  | inputs (values : List (String × Value))
  | and (name : String) (operands : Value)
  | or (name : String) (operands : Value)
  | not (name : String) (operand : Value)
  | weighted (name : String) (operands weights : Value)
  | consensus (name : String) (operands description : Value)
  | expression (name : String) (text : Value)
  | requireAll
  | requireAny
  | output (name : String)

/-- The entries of a mapping under texts. -/
def named (values : List (String × Value)) : Entries := values.map fun p => (.str p.1, p.2)

namespace Call

def run (d : Draft) : Call → Except Error Draft
  | input name v => d.input (.str name) v
  | inputs values => d.addInputs (.map (named values))
  | and name operands => d.gate (.str name) .and operands []
  | or name operands => d.gate (.str name) .or operands []
  | not name operand => d.gate (.str name) .not (.list [operand]) []
  | weighted name operands weights => d.weightedGate (.str name) operands weights
  | consensus name operands description => d.gate (.str name) .consensus operands (option "description" description)
  | expression name text => d.gate (.str name) .expression (.list []) (option "expression" text)
  | requireAll => .ok d.requireAll
  | requireAny => .ok d.requireAny
  | output name => .ok { d with output := .str name }

/-- The names that the call introduces. -/
def names : Call → List String
  | input name _ | and name _ | or name _ | not name _ | weighted name _ _ | consensus name _ _
  | expression name _ => [name]
  | inputs values => values.map Prod.fst
  | requireAll => ["all_required"]
  | requireAny => ["any_required"]
  | output _ => []

/-- The gate that the call is for, with the operands that are passed for it. -/
def gate? : Call → Option (String × Value)
  | and name operands | or name operands | weighted name operands _ | consensus name operands _ =>
    some (name, operands)
  | not name operand => some (name, .list [operand])
  | expression name _ => some (name, .list [])
  | input _ _ | inputs _ | requireAll | requireAny | output _ => none

end Call

/-! ## What calls refer to -/

/-- Whether a name begins with no mark of an inversion or an expression. -/
def Unmarked (name : String) : Prop := name.toList.head? ∉ [some '!', some '@']

instance (name : String) : Decidable (Unmarked name) := inferInstanceAs (Decidable (_ ∉ _))

/-- Whether a value stands for an operand that is no reference, or refers to a known name. -/
inductive Takes (known : List Value) : Value → Prop
  | literal {v : Value} : v.script? = none → (∀ name negated, Operand.ofRecord? v ≠ some (.reference name negated)) →
      Takes known v
  | name {v : Value} {s : String} : v.text? = some s → Unmarked s → .str s ∈ known → Takes known v
  | inverted {v : Value} {s : String} : v.text? = some ("!" ++ s) → .str s ∈ known → Takes known v

/-- Whether a call introduces names without marks, and for a gate takes only operands that
    are known under its name. -/
structure Call.Fits (c : Call) (known : String → List Value) : Prop where
  names : ∀ name ∈ c.names, Unmarked name
  operands : ∀ name operands values, c.gate? = some (name, operands) → operands.elements = .ok values →
    ∀ v ∈ values, Takes (known name) v

/-- The names of a draft. -/
def names (d : Draft) : List Value := Table.keys d.inputs ++ Table.keys d.gates

/-- The names of a draft that stand before the place of a gate, which is the last one if the
    name is new. -/
def namesBefore (d : Draft) (name : String) : List Value :=
  Table.keys d.inputs ++ (Table.keys d.gates).takeWhile fun key => !key.same (.str name)

/-- Whether a call refers to what earlier calls have introduced. -/
def LooksBack (d : Draft) (c : Call) : Prop := c.Fits fun _ => d.names

/-- Whether a call refers to what stands before the place of its gate. -/
def KeepsOrder (d : Draft) (c : Call) : Prop := c.Fits d.namesBefore

/-- Calls one after the other, each of which fits the draft that it is made to. -/
inductive Made (fits : Draft → Call → Prop) : Draft → List Call → Draft → Prop
  | nil (d : Draft) : Made fits d [] d
  | cons {d d' d'' : Draft} {c : Call} {calls : List Call} :
      fits d c → c.run d = .ok d' → Made fits d' calls d'' → Made fits d (c :: calls) d''

/-- Whether each gate takes known names and gates before it only. -/
def Ordered : (known : List Value) → Table DraftGate → Prop
  | _, [] => True
  | known, (name, g) :: rest => (∀ v ∈ g.operands, Takes known v) ∧ Ordered (known ++ [name]) rest

def IsOrdered (d : Draft) : Prop := Ordered (Table.keys d.inputs) d.gates

/-- What calls keep of a draft. -/
structure Proper (d : Draft) : Prop where
  inputs : Table.Named d.inputs
  gates : Table.Named d.gates
  unmarked : ∀ name, .str name ∈ Table.keys d.inputs → Unmarked name
  operands : ∀ e ∈ d.gates, ∀ v ∈ e.2.operands, Takes d.names v
  unnamed : d.name = .null

variable {d d' : Draft} {c : Call} {known known' : List Value}

theorem Takes.mono (h : known ⊆ known') {v : Value} : Takes known v → Takes known' v
  | literal hscript hrecord => .literal hscript hrecord
  | name htext hunmarked hmem => .name htext hunmarked (h hmem)
  | inverted htext hmem => .inverted htext (h hmem)

theorem Call.Fits.mono {before after : String → List Value} (h : c.Fits before)
    (hsub : ∀ name, before name ⊆ after name) : c.Fits after where
  names := h.names
  operands name operands values hgate helements v hv :=
    (h.operands name operands values hgate helements v hv).mono (hsub name)

theorem Made.imp {fits fits' : Draft → Call → Prop} {calls : List Call} (h : Made fits d calls d')
    (himp : ∀ d c, fits d c → fits' d c) : Made fits' d calls d' := by
  induction h with
  | nil => exact .nil _
  | cons hfits hrun _ ih => exact .cons (himp _ _ hfits) hrun ih

theorem KeepsOrder.looksBack (h : KeepsOrder d c) : LooksBack d c :=
  Call.Fits.mono h fun _ => List.append_subset.2
    ⟨List.subset_append_left _ _, List.Subset.trans (List.takeWhile_subset _) (List.subset_append_right _ _)⟩

theorem Call.fits_of_gate {known : String → List Value} {name : String} {values : List Value}
    (hgate : c.gate? = some (name, .list values)) (hnames : c.names = [name]) (hname : Unmarked name)
    (hvalues : ∀ v ∈ values, Takes (known name) v) : c.Fits known := by
  refine ⟨fun other hother => ?_, fun name' operands values' hgate' helements => ?_⟩
  · rw [hnames, List.mem_singleton] at hother
    exact hother ▸ hname
  · cases hgate.symm.trans hgate'
    cases helements
    exact hvalues

/-- What a call does: it gives inputs, or it sets a gate with the operands that were passed
    or those that are required. -/
theorem Call.run_ok (h : c.run d = .ok d') :
    (∃ values output, c.names = values.map Prod.fst ∧
      d' = { d with inputs := Table.merge d.inputs (named values), output }) ∨
    ∃ name g output, c.names = [name] ∧ d' = { d with gates := Table.set d.gates (.str name) g, output } ∧
      ((∃ operands, c.gate? = some (name, operands) ∧ operands.elements = .ok g.operands) ∨
        g.operands = Table.keys d.inputs) := by
  have hgate : ∀ {name operator operands options}, d.gate (.str name) operator operands options = .ok d' →
      ∃ g, d' = { d with gates := Table.set d.gates (.str name) g } ∧ operands.elements = .ok g.operands := by
    intro name operator operands options h
    obtain ⟨values, hvalues, h⟩ := bind_eq_ok.1 h
    cases h
    exact ⟨_, rfl, hvalues⟩
  cases c with
  | input name v =>
    cases h
    exact .inl ⟨[(name, v)], d.output, rfl, rfl⟩
  | inputs values =>
    cases h
    exact .inl ⟨values, d.output, rfl, rfl⟩
  | output name =>
    cases h
    exact .inl ⟨[], .str name, rfl, rfl⟩
  | requireAll =>
    cases h
    exact .inr ⟨_, _, _, rfl, rfl, .inr rfl⟩
  | requireAny =>
    cases h
    exact .inr ⟨_, _, _, rfl, rfl, .inr rfl⟩
  | weighted name operands weights =>
    obtain ⟨weights, -, h⟩ := bind_eq_ok.1 h
    obtain ⟨g, rfl, hg⟩ := hgate h
    exact .inr ⟨name, g, d.output, rfl, rfl, .inl ⟨_, rfl, hg⟩⟩
  | and name | or name | not name | consensus name | expression name =>
    obtain ⟨g, rfl, hg⟩ := hgate h
    exact .inr ⟨name, g, d.output, rfl, rfl, .inl ⟨_, rfl, hg⟩⟩

/-! ## What calls keep -/

namespace Proper

theorem input (h : d.Proper) {name : String} (hname : Unmarked name) (v : Value) :
    Proper { d with inputs := Table.set d.inputs (.str name) v } where
  inputs := h.inputs.set name v
  gates := h.gates
  unmarked other hother := by
    rcases Table.mem_keys_set hother with heq | hmem
    · cases heq
      exact hname
    · exact h.unmarked other hmem
  operands e he w hw := by
    refine (h.operands e he w hw).mono (List.append_subset.2 ⟨?_, List.subset_append_right _ _⟩)
    exact List.Subset.trans (Table.keys_subset_set _ _ _) (List.subset_append_left _ _)
  unnamed := h.unnamed

theorem merge (h : d.Proper) {values : List (String × Value)} (hnames : ∀ name ∈ values.map Prod.fst, Unmarked name) :
    Proper { d with inputs := Table.merge d.inputs (named values) } := by
  induction values generalizing d with
  | nil => exact h
  | cons p values ih =>
    obtain ⟨hname, hnames⟩ := List.forall_mem_cons.1 hnames
    exact ih (h.input hname p.2) hnames

theorem gate (h : d.Proper) (name : String) {g : DraftGate} (hoperands : ∀ v ∈ g.operands, Takes d.names v) :
    Proper { d with gates := Table.set d.gates (.str name) g } := by
  have hsub : d.names ⊆ names { d with gates := Table.set d.gates (.str name) g } :=
    List.append_subset.2 ⟨List.subset_append_left _ _,
      List.Subset.trans (Table.keys_subset_set _ _ _) (List.subset_append_right _ _)⟩
  refine ⟨h.inputs, h.gates.set name g, h.unmarked, fun e he v hv => ?_, h.unnamed⟩
  rcases Table.mem_set_or he with heq | hmem
  · exact (hoperands v (heq ▸ hv)).mono hsub
  · exact (h.operands e hmem v hv).mono hsub

/-- Inputs can be required. -/
theorem takes_input (h : d.Proper) (hsub : Table.keys d.inputs ⊆ known) {v : Value} (hv : v ∈ Table.keys d.inputs) :
    Takes known v := by
  obtain ⟨name, rfl⟩ := h.inputs.exists_name hv
  exact .name rfl (h.unmarked name hv) (hsub hv)

end Proper

theorem ofValues_proper (values : List Value) : (ofValues values).Proper where
  inputs := named_numberFrom 0 values
  gates := ⟨.nil, List.forall_mem_nil _⟩
  unmarked name hname := by
    obtain ⟨e, he, hkey⟩ := List.mem_map.1 hname
    obtain ⟨i, -, hinput, -⟩ := mem_numberFrom he
    have htext : name = "input_" ++ Text.decimal i := Value.str.inj (hkey.symm.trans hinput)
    rw [htext, Unmarked, String.toList_append]
    simp
  operands := List.forall_mem_nil _
  unnamed := rfl

/-- A gate takes what is known, be it passed or required. -/
theorem Call.Fits.takes {known : String → List Value} (h : c.Fits known) (hd : d.Proper)
    (hsub : ∀ name, Table.keys d.inputs ⊆ known name) {name : String} {values : List Value}
    (hvalues : (∃ operands, c.gate? = some (name, operands) ∧ operands.elements = .ok values) ∨
      values = Table.keys d.inputs) : ∀ v ∈ values, Takes (known name) v := by
  rcases hvalues with ⟨operands, hgate, helements⟩ | rfl
  · exact h.operands name operands values hgate helements
  · exact fun v hv => hd.takes_input (hsub name) hv

theorem Proper.run (hd : d.Proper) (hfits : LooksBack d c) (h : c.run d = .ok d') : d'.Proper := by
  obtain ⟨values, output, hnames, rfl⟩ | ⟨name, g, output, -, rfl, hg⟩ := Call.run_ok h
  · have hunmarked : ∀ name ∈ values.map Prod.fst, Unmarked name := by rw [← hnames]; exact hfits.names
    have hmerged := hd.merge hunmarked
    exact ⟨hmerged.inputs, hmerged.gates, hmerged.unmarked, hmerged.operands, hmerged.unnamed⟩
  · have hset := hd.gate name (hfits.takes hd (fun _ => List.subset_append_left _ _) hg)
    exact ⟨hset.inputs, hset.gates, hset.unmarked, hset.operands, hset.unnamed⟩

theorem Made.proper {calls : List Call} (h : Made LooksBack d calls d') (hd : d.Proper) : d'.Proper := by
  induction h with
  | nil => exact hd
  | cons hfits hrun _ ih => exact ih (hd.run hfits hrun)

/-! ## The order of gates -/

theorem Ordered.mono {gates : Table DraftGate} (h : Ordered known gates) (hsub : known ⊆ known') :
    Ordered known' gates := by
  induction gates generalizing known known' with
  | nil => trivial
  | cons e gates ih =>
    obtain ⟨hoperands, hrest⟩ := h
    refine ⟨fun v hv => (hoperands v hv).mono hsub, ih hrest ?_⟩
    exact List.append_subset.2
      ⟨List.Subset.trans hsub (List.subset_append_left _ _), List.subset_append_right _ _⟩

/-- A gate takes its place without disorder if it takes what stands before. -/
theorem Ordered.set {gates : Table DraftGate} (h : Ordered known gates) {key : Value} {g : DraftGate}
    (hoperands : ∀ v ∈ g.operands, Takes (known ++ (Table.keys gates).takeWhile fun k => !k.same key) v) :
    Ordered known (Table.set gates key g) := by
  induction gates generalizing known with
  | nil => exact ⟨fun v hv => by simpa [Table.keys] using hoperands v hv, trivial⟩
  | cons e gates ih =>
    obtain ⟨k, b⟩ := e
    obtain ⟨hfirst, hrest⟩ := h
    have hkeys : Table.keys ((k, b) :: gates) = k :: Table.keys gates := rfl
    rw [hkeys, List.takeWhile_cons] at hoperands
    rw [Table.set]
    cases hsame : k.same key with
    | true => exact ⟨fun v hv => by simpa [hsame] using hoperands v hv, hrest⟩
    | false =>
      refine ⟨hfirst, ih hrest fun v hv => ?_⟩
      have htakes := hoperands v hv
      rwa [hsame, Bool.not_false, if_pos rfl, List.append_cons] at htakes

theorem IsOrdered.run (h : d.IsOrdered) (hd : d.Proper) (hfits : KeepsOrder d c) (hrun : c.run d = .ok d') :
    d'.IsOrdered := by
  obtain ⟨values, output, -, rfl⟩ | ⟨name, g, output, -, rfl, hg⟩ := Call.run_ok hrun
  · exact Ordered.mono h (Table.keys_subset_merge _ _)
  · exact Ordered.set h (hfits.takes hd (fun _ => List.subset_append_left _ _) hg)

theorem Made.ordered {calls : List Call} (h : Made KeepsOrder d calls d') (hd : d.Proper) (hordered : d.IsOrdered) :
    d'.IsOrdered := by
  induction h with
  | nil => exact hordered
  | cons hfits hrun _ ih => exact ih (hd.run hfits.looksBack hrun) (hordered.run hd hfits hrun)

/-! ## The blueprint of a draft -/

theorem Proper.blueprint_ok (h : d.Proper) :
    ∃ entries : Entries, d.blueprint = .ok (.map entries) ∧ entries.field "inputs" = .map d.inputs ∧
      entries.field "gates" = .map (d.gates.map fun e => (e.1, e.2.definition)) := by
  unfold blueprint
  rw [h.unnamed]
  exact ⟨_, rfl, rfl, rfl⟩

/-- Whether a gate is what a gate of a draft is read as. -/
structure Reads (e : Value × DraftGate) (g : Gate) : Prop where
  name : g.name = e.1
  operands : List.Forall₂ (fun v o => ∃ i, Operand.ofValue v i = .ok o) e.2.operands g.operands

theorem reads_definition {name : Value} {g : DraftGate} {gate : Gate}
    (h : (Gate.ofDefinition name g.definition).result = .ok gate) : Reads (name, g) gate := by
  obtain ⟨entries, hdefinition, hoperands⟩ :
      ∃ entries : Entries, g.definition = .map entries ∧ entries.field "operands" = .list g.operands := ⟨_, rfl, rfl⟩
  obtain ⟨found, operands, values, hmap, horElse, hvalues, hread, -, hname, -, -⟩ := Gate.ofDefinition_ok h
  rw [hdefinition] at hmap
  cases hmap
  rw [hoperands] at horElse
  rw [Document.elements_operands horElse hvalues] at hread
  exact ⟨hname, Operand.ofValues_ok hread⟩

/-- The blueprint of a draft has its gates, and inputs of its names. -/
theorem Proper.read_ok (h : d.Proper) {entries : Entries} (hinputs : entries.field "inputs" = .map d.inputs)
    (hgates : entries.field "gates" = .map (d.gates.map fun e => (e.1, e.2.definition))) {b : Blueprint}
    (hread : (Blueprint.ofMapping (.map entries)).result = .ok b) :
    (∀ name, (Value.str name).isAmong b.inputNames = true ↔ .str name ∈ Table.keys d.inputs) ∧
      List.Forall₂ Reads d.gates b.gates := by
  obtain ⟨found, gates, items, inputs, hdata, hgatesElse, hitems, hdefined, hinputsElse, hsources, -, -⟩ :=
    Blueprint.ofMapping_ok hread
  cases hdata
  rw [hgates, Blueprint.Setting.orElse_map] at hgatesElse
  rw [hinputs, Blueprint.Setting.orElse_map] at hinputsElse
  cases hgatesElse
  cases hinputsElse
  obtain rfl : _ = items := Except.ok.inj ((Blueprint.gateItems_of_named (h.gates.map _)).symm.trans hitems)
  refine ⟨fun name => ?_, ?_⟩
  · have hnames : (Value.str name).isAmong b.inputNames = true ↔ .str name ∈ b.inputNames :=
      Value.isAmong_texts (List.forall_mem_map.2 fun p _ => ⟨p.1, rfl⟩)
    rw [hnames, Blueprint.mem_inputNames, Document.names_readInputs hsources, List.map_nil,
      or_iff_right List.not_mem_nil]
    exact h.inputs.mem_displays
  · exact (List.forall₂_map_left_iff.1 (Gate.ofDefinitions_ok hdefined)).imp fun _ _ => reads_definition

theorem takes_plain {v : Value} {s : String} (htext : v.text? = some s) (hunmarked : Unmarked s) :
    Takes known v ↔ .str s ∈ known := by
  constructor
  · rintro (⟨hnone, -⟩ | ⟨hsome, -, hmem⟩ | ⟨hsome, -⟩)
    · cases htext.symm.trans (Value.text?_of_script hnone)
    · cases htext.symm.trans hsome
      exact hmem
    · cases htext.symm.trans hsome
      exact absurd (by simp) hunmarked
  · exact .name htext hunmarked

theorem takes_inverted {v : Value} {s : String} (htext : v.text? = some ("!" ++ s)) :
    Takes known v ↔ .str s ∈ known := by
  constructor
  · rintro (⟨hnone, -⟩ | ⟨hsome, hunmarked, -⟩ | ⟨hsome, hmem⟩)
    · cases htext.symm.trans (Value.text?_of_script hnone)
    · cases htext.symm.trans hsome
      exact absurd (by simp) hunmarked
    · have heq := Option.some.inj (htext.symm.trans hsome)
      rw [← String.toList_inj, String.toList_append, String.toList_append] at heq
      rwa [String.toList_inj.1 (List.append_cancel_left heq)]
  · exact .inverted htext

/-- A text is read as a name or its inversion. -/
theorem operand_of_text {v : Value} {s : String} (htext : v.text? = some s) (i : Nat) :
    Operand.ofValue v i = .ok (.ofText s) := by
  cases v with
  | str | operator =>
    cases htext
    rfl
  | _ => cases htext

theorem operand_of_literal {v : Value} {o : Operand} {i : Nat} (hscript : v.script? = none)
    (hrecord : ∀ name negated, Operand.ofRecord? v ≠ some (.reference name negated))
    (ho : Operand.ofValue v i = .ok o) (name : String) (negated : Bool) : o ≠ .reference name negated := by
  rintro rfl
  unfold Operand.ofValue at ho
  split at ho
  · next hfound =>
    cases ho
    exact hrecord name negated hfound
  · split at ho
    · cases ho
    · cases ho
    · cases ho
    · rw [Value.text?_of_script hscript] at ho
      obtain ⟨state, -, ho⟩ := bind_eq_ok.1 ho
      cases ho

/-- An operand refers to a known name exactly if the value that it is read from does. -/
theorem Takes.isWithin_iff {v : Value} {o : Operand} {i : Nat} (hv : Takes known v) (ho : Operand.ofValue v i = .ok o)
    {before before' : List Value} (hknown : ∀ name, (Value.str name).isAmong before' = true ↔ .str name ∈ before) :
    o.isWithin before' = true ↔ Takes before v := by
  cases hv with
  | literal hscript hrecord =>
    refine iff_of_true ?_ (.literal hscript hrecord)
    cases o with
    | reference name negated => exact absurd rfl (operand_of_literal hscript hrecord ho name negated)
    | expression | computed | literal => rfl
  | name htext hunmarked hmem =>
    rw [operand_of_text htext, Operand.ofText_name hunmarked] at ho
    cases ho
    rw [takes_plain htext hunmarked]
    exact hknown _
  | @inverted s htext hmem =>
    have hinverted : Operand.ofText ("!" ++ s) = .reference s true := by simp [Operand.ofText]
    rw [operand_of_text htext, hinverted] at ho
    cases ho
    rw [takes_inverted htext]
    exact hknown s

theorem forall_iff_of_forall₂ {α β : Type} {R : α → β → Prop} {P : α → Prop} {Q : β → Prop} {as : List α} {bs : List β}
    (h : List.Forall₂ R as bs) (hiff : ∀ a ∈ as, ∀ b, R a b → (P a ↔ Q b)) : (∀ a ∈ as, P a) ↔ ∀ b ∈ bs, Q b := by
  induction h with
  | nil => exact iff_of_true (List.forall_mem_nil _) (List.forall_mem_nil _)
  | cons hab _ ih =>
    obtain ⟨hhead, htail⟩ := List.forall_mem_cons.1 hiff
    rw [List.forall_mem_cons, List.forall_mem_cons, hhead _ hab, ih htail]

/-- By induction on the gates: the names before each are the same in draft and blueprint. -/
theorem areGrounded_iff {table : Table DraftGate} {gates : List Gate} (h : List.Forall₂ Reads table gates)
    (hnamed : ∀ e ∈ table, ∃ name : String, e.1 = .str name) (htakes : ∀ e ∈ table, ∀ v ∈ e.2.operands, Takes known v)
    {before before' : List Value} (hknown : ∀ name, (Value.str name).isAmong before' = true ↔ .str name ∈ before) :
    Gate.areGrounded before' gates = true ↔ Ordered before table := by
  induction h generalizing before before' with
  | nil => exact iff_of_true rfl trivial
  | @cons e g table gates hread _ ih =>
    obtain ⟨⟨name, hname⟩, hnamed⟩ := List.forall_mem_cons.1 hnamed
    obtain ⟨htakes, hrest⟩ := List.forall_mem_cons.1 htakes
    have hoperands : (∀ o ∈ g.operands, o.isWithin before' = true) ↔ ∀ v ∈ e.2.operands, Takes before v :=
      (forall_iff_of_forall₂ hread.operands fun v hv o ⟨i, ho⟩ => ((htakes v hv).isWithin_iff ho hknown).symm).symm
    have hnext (other : String) :
        (Value.str other).isAmong (before' ++ [g.name]) = true ↔ .str other ∈ before ++ [e.1] := by
      rw [Value.isAmong, List.any_append, Bool.or_eq_true, ← Value.isAmong, hknown, hread.name, hname, List.any_cons,
        List.any_nil, Bool.or_false, Value.same_str, Value.text?, Option.some.injEq, List.mem_append,
        List.mem_singleton, Value.str.injEq, eq_comm]
    rw [Gate.areGrounded_cons]
    exact and_congr hoperands (ih hnamed hrest hnext)

/-- The blueprint of a draft is grounded exactly if the gates of the draft are in order. -/
theorem Proper.isGrounded_iff (h : d.Proper) {entries : Entries} (hinputs : entries.field "inputs" = .map d.inputs)
    (hgates : entries.field "gates" = .map (d.gates.map fun e => (e.1, e.2.definition))) {b : Blueprint}
    (hread : (Blueprint.ofMapping (.map entries)).result = .ok b) : b.isGrounded = true ↔ d.IsOrdered := by
  obtain ⟨hnames, hreads⟩ := h.read_ok hinputs hgates hread
  exact areGrounded_iff hreads h.gates.names h.operands hnames

theorem Proper.names_text (h : d.Proper) {gates : List Gate} (hreads : List.Forall₂ Reads d.gates gates) :
    ∀ g ∈ gates, g.name.isString = true := by
  refine (forall_iff_of_forall₂ hreads fun e he g hread => ?_).1 h.gates.names
  rw [hread.name]
  exact ⟨fun ⟨name, hname⟩ => by rw [hname]; rfl, Value.exists_of_isString⟩

end Draft

/-! ## Evaluation -/

section

variable {τ ω : Type} [LE τ] [DecidableLE τ] [LT τ] [DecidableLT τ] [Add τ] {e : Engine τ ω}

variable {values : List Value} {calls : List Draft.Call} {d : Draft}

/-- Gates that refer to names of earlier calls never make an evaluation fail on an undefined
    operand if they are in order; if they are not there is never a report. They are in order
    if a gate that is named again refers to what stands before its place. Functions, handlers
    and observers may fail in other ways only. -/
theorem Draft.calls_respected (hmade : Made LooksBack (ofValues values) calls d)
    (hcandid : ∀ source b, d.blueprint = .ok source → (Blueprint.ofValue source).result = .ok b → b.IsCandid e.setting)
    (hobservers : ∀ report err, Engine.Rejects e.observers report err → ¬IsUndefined err) :
    ∃ source, d.blueprint = .ok source ∧
      (d.IsOrdered → ∀ present context memoize err,
        (e.evaluate present source context memoize).2.result = .error err → ¬IsUndefined err) ∧
      (¬d.IsOrdered → ∀ b context report, (Blueprint.ofValue source).result = .ok b →
        (e.setting.evaluate b context).result ≠ .ok report) ∧
      (Made KeepsOrder (ofValues values) calls d → d.IsOrdered) := by
  have hproper : d.Proper := hmade.proper (ofValues_proper values)
  obtain ⟨entries, hblueprint, hinputs, hgates⟩ := hproper.blueprint_ok
  have hspans : ∀ b, (Blueprint.ofValue (.map entries)).result = .ok b → ∀ context,
      Ends (fun err => e.setting.Excused (Gate.Dangling b.inputNames b.gates err) err) (fun _ => b.isGrounded = true)
        (e.setting.evaluate b context).result := fun b hread context =>
    Blueprint.Setting.evaluate_spans (hcandid _ b hblueprint hread)
      (hproper.names_text (hproper.read_ok hinputs hgates hread).2) context
  refine ⟨_, hblueprint, ?_, ?_, fun hkeeps => hkeeps.ordered (ofValues_proper values) trivial⟩
  · intro hordered present context memoize err herr
    rcases Engine.evaluate_error herr with hfails | ⟨b, hread, ⟨-, hkey⟩ | hfails⟩ | ⟨report, hrejects⟩
    · have hdefined := Blueprint.ofValue_defined (.map entries)
      rw [hfails] at hdefined
      exact hdefined
    · obtain ⟨text, rfl⟩ := Blueprint.key_error hkey
      exact nofun
    · intro hundefined
      have hend := hspans b hread (Engine.contextOf context)
      rw [hfails] at hend
      rcases hend hundefined with hraises | hdangling
      · exact (hcandid _ b hblueprint hread).handlers err hraises hundefined
      · exact hdangling.not_grounded ((hproper.isGrounded_iff hinputs hgates hread).2 hordered)
    · exact hobservers report err hrejects
  · intro hdisordered b context report hread hreport
    have hend := hspans b hread context
    rw [hreport] at hend
    exact hdisordered ((hproper.isGrounded_iff hinputs hgates hread).1 hend)

end

/-- The input `a` is given anew, and the gate `g` refers to it alone when it is named again. -/
theorem Draft.calls_respected_renamed :
    let calls : List Draft.Call := [
      .input "a" (.bool true), .and "g" (.list [.str "a", .bool true]), .or "h" (.list [.str "!g", .str "a"]),
      .input "a" (.str "user.a"), .not "g" (.str "a"), .requireAll, .output "h"]
    let gates : Table DraftGate := [
      (.str "g", ⟨.not, [.str "a"], []⟩), (.str "h", ⟨.or, [.str "!g", .str "a"], []⟩),
      (.str "all_required", ⟨.and, [.str "a"], []⟩)]
    let d : Draft := ⟨[(.str "a", .str "user.a")], gates, .str "h", [], .null⟩
    let e : Engine Nat Unit := .fresh ⟨.standard, .none⟩ false 0 ()
    Made KeepsOrder (ofValues []) calls d ∧ d.IsOrdered ∧ ∃ source, d.blueprint = .ok source ∧
      ∀ present context memoize err, (e.evaluate present source context memoize).2.result = .error err →
        ¬IsUndefined err := by
  intro calls gates d e
  have hinput (known : String → List Value) (v : Value) : Call.Fits (.input "a" v) known :=
    ⟨List.forall_mem_singleton.2 (by decide), nofun⟩
  have hmade : Made KeepsOrder (ofValues []) calls d := by
    refine .cons (hinput _ _) rfl (.cons (Call.fits_of_gate rfl rfl (by decide) ?_) rfl ?_)
    · simp only [List.forall_mem_cons]
      exact ⟨.name rfl (by decide) (.head _), .literal rfl nofun, List.forall_mem_nil _⟩
    refine .cons (Call.fits_of_gate rfl rfl (by decide) ?_) rfl ?_
    · simp only [List.forall_mem_cons]
      exact ⟨.inverted (s := "g") rfl (.tail _ (.head _)), .name rfl (by decide) (.head _), List.forall_mem_nil _⟩
    refine .cons (hinput _ _) rfl (.cons (Call.fits_of_gate rfl rfl (by decide) ?_) rfl ?_)
    · simp only [List.forall_mem_cons]
      exact ⟨.name rfl (by decide) (.head _), List.forall_mem_nil _⟩
    refine .cons ⟨List.forall_mem_singleton.2 (by decide), nofun⟩ rfl ?_
    exact .cons ⟨List.forall_mem_nil _, nofun⟩ rfl (.nil _)
  have hlooks : Made LooksBack (ofValues []) calls d := hmade.imp fun _ _ => KeepsOrder.looksBack
  have hcandid : ∀ source b, d.blueprint = .ok source → (Blueprint.ofValue source).result = .ok b →
      b.IsCandid e.setting := fun _ _ _ _ =>
    ⟨fun _ _ _ _ _ => nofun, fun _ _ _ _ _ _ _ _ _ => nofun,
      fun err hraises => absurd hraises (Logic.standard_raises err)⟩
  have hobservers : ∀ report err, Engine.Rejects e.observers report err → ¬IsUndefined err := by
    rintro report err ⟨observer, hnone, -⟩
    cases hnone
  obtain ⟨source, hsource, hordered, -, hkeeps⟩ := Draft.calls_respected hlooks hcandid hobservers
  exact ⟨hmade, hkeeps hmade, source, hsource, hordered (hkeeps hmade)⟩

/-- The gate `a` is named again after `b`, and refers to it, but keeps its place before it. -/
theorem Draft.renamed_gate_undefined :
    let calls : List Draft.Call := [
      .and "a" (.list [.bool true]), .and "b" (.list [.bool true]), .and "a" (.list [.str "b"])]
    let d : Draft :=
      ⟨[], [(.str "a", ⟨.and, [.str "b"], []⟩), (.str "b", ⟨.and, [.bool true], []⟩)], .null, [], .null⟩
    let e : Engine Nat Unit := .fresh ⟨.standard, .none⟩ false 0 ()
    Made LooksBack (ofValues []) calls d ∧ ∃ source, d.blueprint = .ok source ∧
      (e.evaluate ⟨0, 0⟩ source (.map []) none).2.result = .error (.undefinedOperand "b" (.str "a") []) := by
  intro calls d e
  have hliteral (known : List Value) : ∀ v ∈ [Value.bool true], Takes known v :=
    List.forall_mem_singleton.2 (.literal rfl nofun)
  refine ⟨?_, _, rfl, rfl⟩
  refine .cons (Call.fits_of_gate rfl rfl (by decide) (hliteral _)) rfl ?_
  refine .cons (Call.fits_of_gate rfl rfl (by decide) (hliteral _)) rfl ?_
  refine .cons (Call.fits_of_gate rfl rfl (by decide) ?_) rfl (.nil _)
  exact List.forall_mem_singleton.2 (.name rfl (by decide) (.tail _ (.head _)))

end Verdict
