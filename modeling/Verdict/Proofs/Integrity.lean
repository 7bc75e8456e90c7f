/-
  Verdict.Proofs.Integrity — documents whose names fit together.

  In a document without complaints every operand refers to an input or an earlier gate,
  and every gate has a new name (`complaintsFrom_nil`). The blueprint that is read from it
  has the same inputs and gates with the same references (`ofMapping_document`); only a
  gate whose name is empty is called by its position there (`called`).
-/

import Verdict.Document.Loading
import Verdict.Proofs.Readings

namespace Verdict

/-! ## Operands of documents -/

/-- Operands are read one by one. -/
theorem Operand.ofValues_ok {vs : List Value} {index : Nat} {os : List Operand} (h : ofValues index vs = .ok os) :
    List.Forall₂ (fun v o => ∃ i, ofValue v i = .ok o) vs os := by
  induction vs generalizing index os with
  | nil =>
    cases h
    exact .nil
  | cons v vs ih =>
    rw [ofValues] at h
    obtain ⟨o, ho, h⟩ := bind_eq_ok.1 h
    obtain ⟨rest, hrest, h⟩ := bind_eq_ok.1 h
    cases h
    exact .cons ⟨index, ho⟩ (ih hrest)

namespace Scalar

/-- Whether the operand refers to what is written, and is no function. -/
structure Writes (x : Scalar) (o : Operand) : Prop where
  pure : o.isComputed = false
  reference : ∀ name, (∃ negated, o = .reference name negated) ↔ x.reference? = some name

theorem writes_ofValue {x : Scalar} {index : Nat} {o : Operand} (h : Operand.ofValue x.toValue index = .ok o) :
    x.Writes o := by
  cases x with
  | null | bool | int =>
    cases h
    exact ⟨rfl, fun name => by simp [reference?]⟩
  | text s =>
    have htext : Operand.ofText s = o := Except.ok.inj h
    subst htext
    refine ⟨Operand.ofText_pure s, fun name => ?_⟩
    unfold Operand.ofText reference?
    split <;> simp_all

theorem writes_ofValues {xs : List Scalar} {index : Nat} {os : List Operand}
    (h : Operand.ofValues index (xs.map toValue) = .ok os) : List.Forall₂ Writes xs os :=
  (List.forall₂_map_left_iff.1 (Operand.ofValues_ok h)).imp fun _ _ ⟨_, ho⟩ => writes_ofValue ho

end Scalar

namespace Document

/-! ## Names that fit together -/

/-- Whether operands refer to names known before, and every gate has a new name. -/
inductive Scoped : List String → List (String × Gate) → Prop
  | nil (known : List String) : Scoped known []
  | cons {known : List String} {name : String} {g : Gate} {rest : List (String × Gate)} :
      (∀ x ∈ g.operands, ∀ referred ∈ x.reference?, referred ∈ known) → name ∉ known →
      Scoped (name :: known) rest → Scoped known ((name, g) :: rest)

/-- The names that are known after the gates. -/
def namesAfter (known : List String) (items : List (String × Gate)) : List String :=
  (items.map Prod.fst).reverse ++ known

theorem gateComplaints_nil {known : List String} {name : String} {g : Gate} (h : gateComplaints known name g = []) :
    (∀ x ∈ g.operands, ∀ referred ∈ x.reference?, referred ∈ known) ∧ name ∉ known := by
  unfold gateComplaints at h
  obtain ⟨hoperands, hname⟩ := List.append_eq_nil_iff.1 h
  refine ⟨fun x hx referred hreferred => ?_, fun hmem => ?_⟩
  · have hnone := List.filterMap_eq_nil_iff.1 hoperands x hx
    rw [operandComplaint?, hreferred] at hnone
    by_contra hunknown
    simp [hunknown] at hnone
  · simp [hmem] at hname

/-- A document without complaints. -/
theorem complaintsFrom_nil {known : List String} {output : Option String} {items : List (String × Gate)}
    (h : complaintsFrom known output items = []) :
    Scoped known items ∧ ∀ name ∈ output, name ∈ namesAfter known items := by
  induction items generalizing known with
  | nil =>
    refine ⟨.nil known, fun name hname => ?_⟩
    cases hname
    unfold complaintsFrom outputComplaints at h
    by_contra hunknown
    simp [namesAfter] at hunknown
    simp [hunknown] at h
  | cons item rest ih =>
    obtain ⟨name, g⟩ := item
    unfold complaintsFrom at h
    obtain ⟨hgate, hrest⟩ := List.append_eq_nil_iff.1 h
    obtain ⟨hoperands, hname⟩ := gateComplaints_nil hgate
    obtain ⟨hscoped, houtput⟩ := ih hrest
    refine ⟨.cons hoperands hname hscoped, fun output hmem => ?_⟩
    have hafter := houtput output hmem
    simp only [namesAfter, List.map_cons, List.reverse_cons, List.mem_append, List.mem_cons, List.not_mem_nil,
      or_false] at hafter ⊢
    tauto

/-- No gate has a name that was known before. -/
theorem Scoped.fresh {known : List String} {items : List (String × Gate)} (h : Scoped known items) :
    ∀ item ∈ items, item.1 ∉ known := by
  induction h with
  | nil => exact List.forall_mem_nil _
  | cons _ hname _ ih =>
    refine List.forall_mem_cons.2 ⟨hname, fun item hitem hmem => ?_⟩
    exact ih item hitem (List.mem_cons_of_mem _ hmem)

/-! ## Documents as blueprints -/

/-- The name under which the gate at a position is known in the blueprint. -/
def called (index : Nat) (name : String) : String :=
  if name = "" then "gate_" ++ Text.decimal index else name

/-- Whether the gates are those of the document, from a position on. -/
inductive Called : Nat → List (String × Gate) → List Verdict.Gate → Prop
  | nil (index : Nat) : Called index [] []
  | cons {index : Nat} {name : String} {g : Gate} {rest : List (String × Gate)} {gate : Verdict.Gate}
      {gates : List Verdict.Gate} :
      gate.name = .str (called index name) →
      List.Forall₂ Scalar.Writes g.operands gate.operands →
      Called (index + 1) rest gates → Called index ((name, g) :: rest) (gate :: gates)

theorem called_ne (index : Nat) (name : String) : called index name ≠ "" := by
  unfold called
  split
  · intro h
    have hlength := congrArg String.length h
    simp [String.length_append] at hlength
  · assumption

theorem orElse_called (index : Nat) (name : String) :
    (Value.str name).orElse (.str ("gate_" ++ Text.decimal index)) = .ok (.str (called index name)) := by
  unfold called
  by_cases hname : name = ""
  · subst hname
    rfl
  · have htruth : (Value.str name).truth = .ok true := by simp [Value.truth, hname]
    rw [if_neg hname, Value.orElse, htruth]
    rfl

theorem elements_operands {items : List Value} {v : Value} {values : List Value}
    (h : (Value.list items).orElse (.list []) = .ok v) (hvalues : v.elements = .ok values) : values = items := by
  cases items with
  | nil =>
    cases h
    cases hvalues
    rfl
  | cons x rest =>
    cases h
    cases hvalues
    rfl

theorem definition_fields (name : String) (g : Gate) :
    ∃ entries : Entries, g.definition name = .map entries ∧ entries.field "name" = .str name ∧
      entries.field "operands" = .list (g.operands.map Scalar.toValue) := ⟨_, rfl, rfl, rfl⟩

theorem called_of_listed {items : List (String × Gate)} {index : Nat} {pairs : List (Value × Value)}
    {gates : List Verdict.Gate}
    (hlisted : Blueprint.listed index (items.map fun item => item.2.definition item.1) = .ok pairs)
    (hgates : List.Forall₂ (fun pair g => (Gate.ofDefinition pair.1 pair.2).result = .ok g) pairs gates) :
    Called index items gates := by
  induction items generalizing index pairs gates with
  | nil =>
    cases hlisted
    cases hgates
    exact .nil index
  | cons item rest ih =>
    obtain ⟨name, g⟩ := item
    obtain ⟨entries, hdefinition, hname, hoperands⟩ := definition_fields name g
    rw [List.map_cons, hdefinition, Blueprint.listed] at hlisted
    obtain ⟨_, hentries, hlisted⟩ := bind_eq_ok.1 hlisted
    obtain ⟨written, hwritten, hlisted⟩ := bind_eq_ok.1 hlisted
    obtain ⟨others, hothers, hlisted⟩ := bind_eq_ok.1 hlisted
    cases hlisted
    cases hentries
    rw [hname, orElse_called] at hwritten
    cases hwritten
    cases hgates with
    | cons hgate hgates =>
      obtain ⟨found, operands, values, hmap, horElse, hvalues, hread, -, hgatename, -, -⟩ :=
        Gate.ofDefinition_ok hgate
      cases hmap
      rw [hoperands] at horElse
      rw [elements_operands horElse hvalues] at hread
      exact .cons hgatename (Scalar.writes_ofValues hread) (ih hothers hgates)

/-- The inputs are those of the document, and none is a function. -/
structure SameInputs (d : Document) (inputs : List (String × Source)) : Prop where
  names : ∀ name, name ∈ inputs.map Prod.fst ↔ name ∈ d.inputs.map Prod.fst
  pure : ∀ p ∈ inputs, p.2.isComputed = false

theorem mem_setInput {name : String} {source : Source} {inputs : List (String × Source)} {p : String × Source}
    (h : p ∈ Blueprint.setInput name source inputs) : p = (name, source) ∨ p ∈ inputs := by
  induction inputs with
  | nil => exact .inl (List.mem_singleton.1 h)
  | cons q inputs ih =>
    obtain ⟨n, s⟩ := q
    unfold Blueprint.setInput at h
    split at h
    · next hn =>
      rcases List.mem_cons.1 h with rfl | h
      · exact .inl (by rw [hn])
      · exact .inr (List.mem_cons_of_mem _ h)
    · rcases List.mem_cons.1 h with rfl | h
      · exact .inr List.mem_cons_self
      · exact (ih h).imp_right (List.mem_cons_of_mem _)

theorem names_setInput (name : String) (source : Source) (inputs : List (String × Source)) (n : String) :
    n ∈ (Blueprint.setInput name source inputs).map Prod.fst ↔ n = name ∨ n ∈ inputs.map Prod.fst := by
  induction inputs with
  | nil => simp [Blueprint.setInput]
  | cons q inputs ih =>
    obtain ⟨m, s⟩ := q
    unfold Blueprint.setInput
    by_cases hm : m = name
    · simp [hm]
    · rw [if_neg hm, List.map_cons, List.mem_cons, ih, List.map_cons, List.mem_cons]
      tauto

theorem Source.ofScalar_pure {x : Scalar} {source : Source} (h : Source.ofValue x.toValue = .ok source) :
    source.isComputed = false := by
  cases x with
  | text s =>
    have htext : Source.ofText s = source := Except.ok.inj h
    subst htext
    unfold Source.ofText
    split <;> rfl
  | null | bool | int =>
    cases h
    rfl

theorem inputName_display {key : Value} {name : String} (h : Blueprint.inputName key = .ok name) :
    key.display = name := by
  cases key with
  | torn => cases h
  | _ => exact Except.ok.inj h

theorem names_readInputs {written : List (Value × Value)} {read inputs : List (String × Source)}
    (h : Blueprint.readInputs read written = .ok inputs) (name : String) :
    name ∈ inputs.map Prod.fst ↔ name ∈ read.map Prod.fst ∨ name ∈ written.map fun e => e.1.display := by
  induction written generalizing read with
  | nil =>
    cases h
    simp
  | cons e written ih =>
    rw [Blueprint.readInputs] at h
    obtain ⟨first, hfirst, h⟩ := bind_eq_ok.1 h
    obtain ⟨source, -, h⟩ := bind_eq_ok.1 h
    rw [ih h, names_setInput, List.map_cons, List.mem_cons, inputName_display hfirst]
    tauto

theorem readInputs_scalars {written : List (String × Scalar)} {read inputs : List (String × Source)}
    (h : Blueprint.readInputs read (written.map fun p => (.str p.1, p.2.toValue)) = .ok inputs) :
    (∀ name, name ∈ inputs.map Prod.fst ↔ name ∈ read.map Prod.fst ∨ name ∈ written.map Prod.fst) ∧
      ∀ p ∈ inputs, p ∈ read ∨ p.2.isComputed = false := by
  refine ⟨fun name => by rw [names_readInputs h, List.map_map]; rfl, ?_⟩
  induction written generalizing read with
  | nil =>
    cases h
    exact fun p hp => .inl hp
  | cons p written ih =>
    rw [List.map_cons, Blueprint.readInputs] at h
    obtain ⟨_, -, h⟩ := bind_eq_ok.1 h
    obtain ⟨source, hsource, h⟩ := bind_eq_ok.1 h
    intro q hq
    rcases ih h q hq with hset | hpure
    · rcases mem_setInput hset with rfl | hread
      · exact .inr (Source.ofScalar_pure hsource)
      · exact .inl hread
    · exact .inr hpure

theorem mapping_fields (d : Document) :
    ∃ entries : Entries, d.mapping = .map entries ∧
      entries.field "inputs" = .map (d.inputs.map fun p => (.str p.1, p.2.toValue)) ∧
      entries.field "gates" = .list (d.gates.items.map fun item => item.2.definition item.1) ∧
      entries.field "output" = .ofOption (d.output.map Value.str) := ⟨_, rfl, rfl, rfl, rfl⟩

theorem listed_of_orElse {definitions : List Value} {gates : Value} {pairs : List (Value × Value)}
    (h : (Value.list definitions).orElse (.map []) = .ok gates) (hpairs : Blueprint.gateItems gates = .ok pairs) :
    Blueprint.listed 0 definitions = .ok pairs := by
  cases definitions with
  | nil =>
    cases h
    exact hpairs
  | cons definition rest =>
    cases h
    exact hpairs

/-- What a blueprint has that was read from a document. -/
theorem ofMapping_document {d : Document} {b : Blueprint} (h : (Blueprint.ofMapping d.mapping).result = .ok b) :
    Called 0 d.gates.items b.gates ∧ d.SameInputs b.inputs ∧ b.output = .ofOption (d.output.map Value.str) := by
  obtain ⟨entries, hmapping, hinputs, hgates, houtput⟩ := mapping_fields d
  obtain ⟨found, gates, pairs, inputs, hmap, hgatesElse, hpairs, hdefined, hinputsElse, hread, hout, -⟩ :=
    Blueprint.ofMapping_ok h
  rw [hmapping] at hmap
  cases hmap
  rw [hgates] at hgatesElse
  rw [hinputs, Blueprint.Setting.orElse_map] at hinputsElse
  cases hinputsElse
  obtain ⟨hnames, hpure⟩ := readInputs_scalars hread
  refine ⟨called_of_listed (listed_of_orElse hgatesElse hpairs) (Gate.ofDefinitions_ok hdefined), ?_, ?_⟩
  · exact ⟨fun name => by simp [hnames], fun p hp => (hpure p hp).resolve_left List.not_mem_nil⟩
  · rw [hout, houtput]

/-! ## Loaded documents -/

/-- Whether a gate has the empty name; only one of a mapping can. -/
def HasUnnamed (d : Document) : Prop := ∃ item ∈ d.gates.items, item.1 = ""

/-- Whether an operand refers to a gate with the empty name. -/
def Dangles (d : Document) : Prop :=
  d.HasUnnamed ∧ ∃ item ∈ d.gates.items, ∃ x ∈ item.2.operands, x.reference? = some ""

theorem ofEntries_ok {strict : Bool} {path : String} {entries : Entries} {d : Document}
    (h : ofEntries strict path entries = .ok d) : d.complaints = [] := by
  unfold ofEntries at h
  split at h
  · cases h
  · split at h
    · cases h
    · split at h
      · next hempty =>
        cases h
        exact List.isEmpty_iff.1 hempty
      · cases h

theorem loadData_ok {strict : Bool} {path : String} {data : Value} {b : Blueprint}
    (h : (loadData strict path data).result = .ok b) :
    ∃ entries d, data.entries? = some entries ∧ ofEntries strict path entries = .ok d ∧
      (Blueprint.ofMapping d.mapping).result = .ok b := by
  unfold loadData at h
  split at h
  · cases h
  · next entries hentries =>
    obtain ⟨d, hd, h⟩ := Outcome.result_bind_eq_ok.1 h
    obtain ⟨found, hfound, h⟩ := Outcome.result_bind_eq_ok.1 h
    obtain ⟨_, -, h⟩ := Outcome.result_bind_eq_ok.1 h
    cases h
    exact ⟨entries, d, hentries, hd, hfound⟩

section

variable {d : Document} {b : Blueprint}

/-- What is known of a document without complaints and the blueprint read from it. -/
structure Fits (d : Document) (b : Blueprint) : Prop where
  called : Called 0 d.gates.items b.gates
  inputs : d.SameInputs b.inputs
  output : b.output = .ofOption (d.output.map Value.str)
  names : Scoped (d.inputs.map Prod.fst) d.gates.items
  known : ∀ name ∈ d.output, name ∈ namesAfter (d.inputs.map Prod.fst) d.gates.items

theorem fits_of_sound (hcomplaints : d.complaints = []) (h : (Blueprint.ofMapping d.mapping).result = .ok b) :
    Fits d b := by
  obtain ⟨hcalled, hinputs, houtput⟩ := ofMapping_document h
  obtain ⟨hscoped, hknown⟩ := complaintsFrom_nil hcomplaints
  exact ⟨hcalled, hinputs, houtput, hscoped, hknown⟩

namespace Fits

theorem no_empty_input (h : Fits d b) (hunnamed : d.HasUnnamed) : "" ∉ b.inputs.map Prod.fst := by
  obtain ⟨item, hitem, hempty⟩ := hunnamed
  rw [h.inputs.names, ← hempty]
  exact h.names.fresh item hitem

end Fits

end

end Document

end Verdict
