/-
  Verdict.Proofs.Readings — blueprints read from data that differs in order only.

  A blueprint is read field by field, so the order in which its mapping, its inputs and its
  definitions were written does not show in what is read: the inputs are the same pairs
  (`mem_inputs`) and the gates have the same operators, expressions and descriptions. What
  shows is the order of the gates, where these are a mapping, and that of operands and
  weights, where these are. Gates with the same names and the same labels are alike then
  (`gates_like`).
-/

import Verdict.Proofs.Scopes
import Verdict.Proofs.Wholeness

namespace Verdict

open Value (Reordered Alike)

/-! ## Fields -/

namespace Value

theorem Reordered.refl {v : Value} (h : v.isPlain = true) : Reordered v v := ⟨h, h, rfl⟩

theorem Reordered.truth_eq {v w : Value} (h : Reordered v w) : v.truth = w.truth := by
  cases h.form with
  | atom => rfl
  | list hall => cases hall <;> rfl
  | @map es fs _ _ hnil _ => cases es <;> cases fs <;> simp_all [truth]

theorem Reordered.orElse {v w other v' w' : Value} (h : Reordered v w) (ho : other.isPlain = true)
    (hv : v.orElse other = .ok v') (hw : w.orElse other = .ok w') : Reordered v' w' := by
  simp only [Value.orElse, h.truth_eq] at hv hw
  obtain ⟨b, hb, hv⟩ := bind_eq_ok.1 hv
  rw [hb, ok_bind] at hw
  cases b with
  | true => cases hv; cases hw; exact h
  | false => cases hv; cases hw; exact .refl ho

/-- What is found under a name, or in its place, differs in order only. -/
theorem Reordered.getD {a b : Option Value} (h : Option.Rel Reordered a b) {other : Value}
    (ho : other.isPlain = true) : Reordered (a.getD other) (b.getD other) := by
  cases h with
  | none => exact .refl ho
  | some h => exact h

end Value

/-! ## Inputs -/

namespace Source

theorem ofValue_reordered {v w : Value} (h : Reordered v w) : ofValue v = ofValue w := by
  cases h.form <;> rfl

end Source

namespace Blueprint

theorem setInput_fresh {name : String} {source : Source} {inputs : List (String × Source)}
    (h : ∀ p ∈ inputs, p.1 ≠ name) : setInput name source inputs = inputs ++ [(name, source)] := by
  induction inputs with
  | nil => rfl
  | cons p inputs ih =>
    obtain ⟨hp, hrest⟩ := List.forall_mem_cons.1 h
    rw [setInput, if_neg hp, ih hrest, List.cons_append]

/-- Only a whole text names an input. -/
theorem inputName_ofScript {n : Script} {name : String} (h : inputName (.ofScript n) = .ok name) : n = name := by
  cases n with
  | whole n => cases h; rfl
  | torn t => cases h

theorem mem_readInputs {entries : Entries} (hplain : Value.entriesArePlain entries = true)
    {read inputs : List (String × Source)} (hfresh : ∀ p ∈ read, Table.find? entries (.str p.1) = none)
    (h : readInputs read entries = .ok inputs) (name : String) (source : Source) :
    (name, source) ∈ inputs ↔ (name, source) ∈ read ∨
      ∃ v, Table.find? entries (.str name) = some v ∧ Source.ofValue v = .ok source := by
  induction entries generalizing read with
  | nil =>
    cases h
    simp [Table.find?_nil]
  | cons e rest ih =>
    obtain ⟨k, v⟩ := e
    obtain ⟨⟨_, rfl, hfirst⟩, -, hrest⟩ := Value.entriesArePlain_cons.1 hplain
    rw [readInputs] at h
    obtain ⟨n, hname, hread⟩ := bind_eq_ok.1 h
    obtain ⟨found, hfound, hnext⟩ := bind_eq_ok.1 hread
    obtain rfl := inputName_ofScript hname
    have hn : Table.find? rest (.str n) = none := hfirst
    have hcons (name : String) : Table.find? ((Value.ofScript n, v) :: rest) (.str name)
        = if n = name then some v else Table.find? rest (.str name) :=
      Table.find?_cons_str n v rest name
    have hother : ∀ p ∈ read, n ≠ p.1 ∧ Table.find? rest (.str p.1) = none := by
      intro p hp
      have hnone := hfresh p hp
      rw [hcons] at hnone
      split at hnone
      · cases hnone
      · next hne => exact ⟨hne, hnone⟩
    have hset : setInput n found read = read ++ [(n, found)] :=
      setInput_fresh fun p hp => (hother p hp).1.symm
    rw [hset] at hnext
    have hfresh' : ∀ p ∈ read ++ [(n, found)], Table.find? rest (.str p.1) = none := by
      simp only [List.forall_mem_append, List.forall_mem_singleton]
      exact ⟨fun p hp => (hother p hp).2, hn⟩
    rw [ih hrest hfresh' hnext, List.mem_append, List.mem_singleton, or_assoc, Prod.mk.injEq, hcons]
    refine or_congr_right ?_
    by_cases hname : n = name
    · subst hname
      rw [hn, if_pos rfl]
      simp only [reduceCtorEq, false_and, exists_false, or_false, true_and, Option.some.injEq,
        exists_eq_left']
      rw [hfound]
      exact ⟨fun h => by rw [h], fun h => (Except.ok.inj h).symm⟩
    · rw [if_neg hname]
      simp only [Ne.symm hname, false_and, false_or]

/-- The inputs of a mapping are its names with the sources of their values, each once. -/
theorem mem_inputs {entries : Entries} (hplain : Value.entriesArePlain entries = true)
    {inputs : List (String × Source)} (h : readInputs [] entries = .ok inputs) (name : String)
    (source : Source) :
    (name, source) ∈ inputs ↔
      ∃ v, Table.find? entries (.str name) = some v ∧ Source.ofValue v = .ok source := by
  rw [mem_readInputs hplain (List.forall_mem_nil _) h]
  simp only [List.not_mem_nil, false_or]

theorem inputs_one {entries : Entries} (hplain : Value.entriesArePlain entries = true)
    {inputs : List (String × Source)} (h : readInputs [] entries = .ok inputs) :
    ∀ p ∈ inputs, ∀ q ∈ inputs, p.1 = q.1 → p = q := by
  rintro ⟨name, source⟩ hp ⟨_, source'⟩ hq rfl
  obtain ⟨v, hv, hs⟩ := (mem_inputs hplain h _ _).1 hp
  obtain ⟨w, hw, hs'⟩ := (mem_inputs hplain h _ _).1 hq
  rw [hv] at hw
  cases hw
  rw [hs] at hs'
  cases hs'
  rfl

theorem inputs_reordered {es fs : Entries} (h : Reordered (.map es) (.map fs))
    {inputs inputs' : List (String × Source)} (he : readInputs [] es = .ok inputs)
    (hf : readInputs [] fs = .ok inputs') (p : String × Source) : p ∈ inputs ↔ p ∈ inputs' := by
  obtain ⟨name, source⟩ := p
  have hes := h.left
  have hfs := h.right
  rw [Value.isPlain] at hes hfs
  rw [mem_inputs hes he, mem_inputs hfs hf]
  have hfind : Option.Rel Reordered (Table.find? es (.str name)) (Table.find? fs (.str name)) :=
    Value.reordered_find? hes hfs h.canonical name
  obtain ⟨hv, hw⟩ | ⟨v, w, hv, hw, hvw⟩ := Value.rel_cases hfind
  · rw [hv, hw]
  · rw [hv, hw]
    simp only [Option.some.injEq, exists_eq_left', Source.ofValue_reordered hvw]

end Blueprint

/-! ## Operators -/

namespace Operator

/-- A text that begins with no blank is stripped at its end only. -/
theorem trim_cons {c : Char} (h : Text.isBlank c = false) (cs : List Char) :
    ∃ cs', Text.trim (c :: cs) = c :: cs' := by
  rw [Text.trim, List.dropWhile_cons_of_neg (by rw [h]; exact Bool.false_ne_true), List.reverse_cons,
    List.dropWhile_append]
  split
  · exact ⟨[], by rw [List.dropWhile_cons_of_neg (by rw [h]; exact Bool.false_ne_true)]; rfl⟩
  · exact ⟨(cs.reverse.dropWhile Text.isBlank).reverse, by rw [List.reverse_append]; rfl⟩

/-- No operator is spelled by what begins with a bracket. -/
theorem ofWord?_bracket {v : Value} {c : Char} (hc : c = '[' ∨ c = '\x7b')
    (hv : v.display.toList.head? = some c) : ofWord? (spelled v) = none := by
  obtain ⟨cs, hcs⟩ := List.head?_eq_some_iff.1 hv
  have hblank : Text.isBlank c = false := by rcases hc with rfl | rfl <;> rfl
  have hlower : Text.lowerChar c = [c] ∧ c ≠ 'Σ' := by rcases hc with rfl | rfl <;> exact ⟨rfl, by decide⟩
  have hword : ∀ o : Operator, o.word.toList.head? ≠ some c := by
    rcases hc with rfl | rfl <;> (intro o; cases o <;> decide)
  obtain ⟨cs', hcs'⟩ := trim_cons hblank cs
  have hspelled : (spelled v).toList.head? = some c := by
    simp only [spelled, Text.lower, Text.strip, String.toList_ofList, hcs, hcs', Text.lowerChars,
      Text.lowerFrom, if_neg hlower.2, hlower.1]
    rfl
  rw [ofWord?, List.find?_eq_none]
  intro o _ heq
  exact hword o (by rw [eq_of_beq heq]; exact hspelled)

theorem read_bracket {v : Value} {c : Char} (hc : c = '[' ∨ c = '\x7b')
    (hv : v.display.toList.head? = some c) : (read v).result = .ok .and := by
  have hnone := ofWord?_bracket hc hv
  unfold read
  split
  · next o => cases o <;> (rcases hc with rfl | rfl <;> cases hv)
  · rfl
  · rw [hnone]; rfl

theorem read_reordered {v w : Value} (h : Reordered v w) : (read v).result = (read w).result := by
  have hlist (items : List Value) : (read (.list items)).result = .ok .and :=
    read_bracket (.inl rfl) (by simp [Value.display, Value.inspect])
  have hmap (entries : Entries) : (read (.map entries)).result = .ok .and :=
    read_bracket (.inr rfl) (by simp [Value.display, Value.inspect])
  cases h.form with
  | atom => rfl
  | list => rw [hlist, hlist]
  | map => rw [hmap, hmap]

end Operator

/-! ## Operands -/

namespace Operand

theorem ofValue_reordered {v w : Value} (h : Reordered v w) (index : Nat) : ofValue v index = ofValue w index := by
  cases h.form <;> rfl

theorem ofValues_reordered {vs ws : List Value} (h : List.Forall₂ Reordered vs ws) (index : Nat) :
    ofValues index vs = ofValues index ws := by
  induction h generalizing index with
  | nil => rfl
  | cons hvw _ ih => rw [ofValues, ofValues, ofValue_reordered hvw, ih]

theorem ofText_pure (s : String) : (ofText s).isComputed = false := by
  unfold ofText
  split <;> rfl

theorem ofValue_pure {v : Value} (hv : v.isPlain = true) {index : Nat} {o : Operand}
    (h : ofValue v index = .ok o) : o.isComputed = false := by
  cases v <;> simp only [Value.isPlain, Bool.false_eq_true] at hv
  case str s => cases h; exact ofText_pure s
  case torn => cases h
  all_goals
    obtain ⟨s, -, h⟩ := bind_eq_ok.1 h
    cases h
    rfl

theorem ofValues_pure {vs : List Value} (hvs : ∀ v ∈ vs, v.isPlain = true) {index : Nat} {os : List Operand}
    (h : ofValues index vs = .ok os) : ∀ o ∈ os, o.isComputed = false := by
  induction vs generalizing index os with
  | nil => cases h; exact List.forall_mem_nil _
  | cons v vs ih =>
    obtain ⟨hv, hrest⟩ := List.forall_mem_cons.1 hvs
    rw [ofValues] at h
    obtain ⟨o, ho, h⟩ := bind_eq_ok.1 h
    obtain ⟨others, hothers, h⟩ := bind_eq_ok.1 h
    cases h
    exact List.forall_mem_cons.2 ⟨ofValue_pure hv ho, ih hrest hothers⟩

/-- Strings that are operands are whole and keep their text as label. -/
theorem ofValues_names {names : List Script} {index : Nat} {os : List Operand}
    (h : ofValues index (names.map .ofScript) = .ok os) :
    ∃ texts : List String, os = texts.map ofText := by
  induction names generalizing index os with
  | nil => cases h; exact ⟨[], rfl⟩
  | cons name names ih =>
    rw [List.map_cons, ofValues] at h
    obtain ⟨o, ho, h⟩ := bind_eq_ok.1 h
    obtain ⟨others, hothers, h⟩ := bind_eq_ok.1 h
    cases h
    obtain ⟨texts, rfl⟩ := ih hothers
    cases name with
    | whole s => cases ho; exact ⟨s :: texts, rfl⟩
    | torn t => cases ho

theorem map_label_ofText (names : List String) : (names.map ofText).map label = names := by
  rw [List.map_map]
  exact (List.map_congr_left fun s _ => Blueprint.label_ofText s).trans (List.map_id _)

end Operand

namespace Value

theorem names_of_plain {entries : Entries} (h : entriesArePlain entries = true) :
    ∃ names : List Script, entries.map (·.1) = names.map .ofScript := by
  induction entries with
  | nil => exact ⟨[], rfl⟩
  | cons e rest ih =>
    obtain ⟨k, v⟩ := e
    obtain ⟨⟨n, rfl, -⟩, -, hrest⟩ := entriesArePlain_cons.1 h
    obtain ⟨names, hnames⟩ := ih hrest
    exact ⟨n :: names, congrArg (Value.ofScript n :: ·) hnames⟩

theorem isPlain_of_mem {vs : List Value} (h : arePlain vs = true) : ∀ v ∈ vs, v.isPlain = true := by
  induction vs with
  | nil => exact List.forall_mem_nil _
  | cons v vs ih =>
    simp only [arePlain, Bool.and_eq_true] at h
    exact List.forall_mem_cons.2 ⟨h.1, ih h.2⟩

theorem isPlain_ofScript (s : Script) : (ofScript s).isPlain = true := by
  cases s <;> rfl

/-- The elements of plain data are plain. -/
theorem elements_plain {v : Value} (hv : v.isPlain = true) {vs : List Value} (h : v.elements = .ok vs) :
    ∀ x ∈ vs, x.isPlain = true := by
  cases v <;> simp only [isPlain, Bool.false_eq_true] at hv <;>
    simp only [elements, elements?, reduceCtorEq, Except.ok.injEq] at h
  case str s =>
    subst h
    intro x hx
    obtain ⟨c, -, rfl⟩ := List.mem_map.1 hx
    rfl
  case torn t =>
    subst h
    intro x hx
    obtain ⟨p, -, rfl⟩ := List.mem_map.1 hx
    exact isPlain_ofScript _
  case list items => subst h; exact isPlain_of_mem hv
  case map entries =>
    subst h
    obtain ⟨names, hnames⟩ := names_of_plain hv
    rw [hnames]
    intro x hx
    obtain ⟨n, -, rfl⟩ := List.mem_map.1 hx
    exact isPlain_ofScript n

end Value

/-- Operands with the same labels are the same, if they were written as data that differs
    in order only. -/
theorem Operand.eq_of_labels {v w : Value} (h : Reordered v w) {vs ws : List Value} {os os' : List Operand}
    (hv : v.elements = .ok vs) (hos : ofValues 0 vs = .ok os) (hw : w.elements = .ok ws)
    (hos' : ofValues 0 ws = .ok os') (hlabels : os.map label = os'.map label) : os = os' := by
  cases h.form with
  | atom =>
    rw [hv] at hw
    cases hw
    rw [hos] at hos'
    exact Except.ok.inj hos'
  | list hall =>
    cases hv
    cases hw
    rw [ofValues_reordered hall, hos'] at hos
    exact (Except.ok.inj hos).symm
  | map hes hfs =>
    cases hv
    cases hw
    obtain ⟨names, hnames⟩ := Value.names_of_plain hes
    obtain ⟨names', hnames'⟩ := Value.names_of_plain hfs
    rw [hnames] at hos
    rw [hnames'] at hos'
    obtain ⟨texts, rfl⟩ := ofValues_names hos
    obtain ⟨texts', rfl⟩ := ofValues_names hos'
    rw [map_label_ofText, map_label_ofText] at hlabels
    rw [hlabels]

/-! ## Gates -/

namespace Gate

/-- What a gate is read from, field by field. -/
theorem ofDefinition_ok {name definition : Value} {g : Gate} (h : (ofDefinition name definition).result = .ok g) :
    ∃ (entries : Entries) (operands : Value) (values : List Value), definition = .map entries ∧
      (entries.field "operands").orElse (.list []) = .ok operands ∧ operands.elements = .ok values ∧
      Operand.ofValues 0 values = .ok g.operands ∧
      (Operator.read (writtenOperator entries)).result = .ok g.operator ∧ g.name = name ∧
      g.expression = entries.field "expression" ∧ g.description = entries.field "description" := by
  simp only [ofDefinition] at h
  obtain ⟨entries, hentries, h⟩ := Outcome.result_bind_eq_ok.1 h
  obtain ⟨operands, hoperands, h⟩ := Outcome.result_bind_eq_ok.1 h
  obtain ⟨operator, hoperator, h⟩ := Outcome.result_bind_eq_ok.1 h
  obtain ⟨values, hvalues, h⟩ := Outcome.result_bind_eq_ok.1 h
  obtain ⟨os, hos, h⟩ := Outcome.result_bind_eq_ok.1 h
  obtain ⟨weights, -, h⟩ := Outcome.result_bind_eq_ok.1 h
  cases h
  have hmap : definition = .map entries := by
    cases definition <;> cases hentries
    rfl
  exact ⟨entries, operands, values, hmap, hoperands, hvalues, hos, hoperator, rfl, rfl, rfl⟩

/-- Gates of one name and the same labels are alike, if their definitions differ in order
    only. -/
theorem like_of_definitions {definition definition' : Value} (h : Reordered definition definition')
    {name name' : Value} {g g' : Gate} (hg : (ofDefinition name definition).result = .ok g)
    (hg' : (ofDefinition name' definition').result = .ok g') (hname : g.name = g'.name)
    (hlabel : g.operatorLabel = g'.operatorLabel)
    (hlabels : g.operands.map Operand.label = g'.operands.map Operand.label) : g.Like g' := by
  obtain ⟨es, operands, values, rfl, hor, hel, hos, hop, -, hex, hde⟩ := ofDefinition_ok hg
  obtain ⟨fs, operands', values', rfl, hor', hel', hos', hop', -, hex', hde'⟩ := ofDefinition_ok hg'
  have hfind := Value.reordered_find? h.left h.right h.canonical
  have hfield (name : String) : Reordered (Entries.field es name) (Entries.field fs name) :=
    .getD (hfind name) rfl
  have hoperands : Reordered operands operands' := (hfield "operands").orElse rfl hor hor'
  have hoperator : Reordered (writtenOperator es) (writtenOperator fs) := .getD (hfind "operator") rfl
  rw [Operator.read_reordered hoperator, hop'] at hop
  exact {
    name := hname
    operator := (Except.ok.inj hop).symm
    label := hlabel
    operands := Operand.eq_of_labels hoperands hel hos hel' hos' hlabels
    pure := Operand.ofValues_pure (Value.elements_plain hoperands.left hel) hos
    expression := .inr (by rw [hex, hex']; exact hfield _)
    description := .inr (by rw [hde, hde']; exact hfield _) }

theorem ofDefinitions_ok {items : List (Value × Value)} {gates : List Gate}
    (h : (ofDefinitions items).result = .ok gates) :
    List.Forall₂ (fun item g => (ofDefinition item.1 item.2).result = .ok g) items gates := by
  induction items generalizing gates with
  | nil => cases h; exact .nil
  | cons item items ih =>
    simp only [ofDefinitions] at h
    obtain ⟨g, hg, h⟩ := Outcome.result_bind_eq_ok.1 h
    obtain ⟨others, hothers, h⟩ := Outcome.result_bind_eq_ok.1 h
    cases h
    exact .cons hg (ih hothers)

theorem names_of_items {items : List (Value × Value)} {gates : List Gate}
    (h : List.Forall₂ (fun item g => (ofDefinition item.1 item.2).result = .ok g) items gates) :
    items.map (·.1) = gates.map Gate.name := by
  induction h with
  | nil => rfl
  | cons hg _ ih =>
    obtain ⟨_, _, _, _, _, _, _, _, hname, _⟩ := ofDefinition_ok hg
    rw [List.map_cons, List.map_cons, hname, ih]

theorem names_of_retells {gates : List Gate} {ds : List Decision} (h : List.Forall₂ Retells gates ds) :
    gates.map Gate.name = ds.map Decision.name := by
  induction h with
  | nil => rfl
  | cons hg _ ih => rw [List.map_cons, List.map_cons, hg.name, ih]

end Gate

namespace Blueprint

theorem listed_definitions {vs : List Value} {index : Nat} {items : List (Value × Value)}
    (h : listed index vs = .ok items) : items.map (·.2) = vs := by
  induction vs generalizing index items with
  | nil => cases h; rfl
  | cons v vs ih =>
    rw [listed] at h
    obtain ⟨entries, -, h⟩ := bind_eq_ok.1 h
    obtain ⟨name, -, h⟩ := bind_eq_ok.1 h
    obtain ⟨others, hothers, h⟩ := bind_eq_ok.1 h
    cases h
    exact congrArg (v :: ·) (ih hothers)

/-- Mappings with the same names in the same order hold, entry by entry, values that differ
    in order only. -/
theorem forall_reordered {es fs : Entries} (hes : Value.entriesArePlain es = true)
    (hfs : Value.entriesArePlain fs = true) (hnames : es.map (·.1) = fs.map (·.1))
    (hfind : ∀ name, Option.Rel Reordered (Table.find? es (.ofScript name)) (Table.find? fs (.ofScript name))) :
    List.Forall₂ (fun e f => Reordered e.2 f.2) es fs := by
  induction es generalizing fs with
  | nil =>
    rw [List.map_eq_nil_iff.1 hnames.symm]
    exact .nil
  | cons e es ih =>
    cases fs with
    | nil => cases hnames
    | cons f fs =>
      obtain ⟨k, v⟩ := e
      obtain ⟨l, w⟩ := f
      obtain ⟨hk, htail⟩ := List.cons.inj hnames
      obtain rfl : k = l := hk
      obtain ⟨⟨n, rfl, hn⟩, -, hes⟩ := Value.entriesArePlain_cons.1 hes
      obtain ⟨⟨n', heq, hn'⟩, -, hfs⟩ := Value.entriesArePlain_cons.1 hfs
      obtain rfl : n = n' := (Value.same_ofScript n n').1 (by rw [← heq]; exact (Value.same_ofScript n n).2 rfl)
      refine .cons ?_ (ih hes hfs htail fun name => ?_)
      · have hfirst := hfind n
        rw [Table.find?_cons_ofScript, Table.find?_cons_ofScript, if_pos rfl, if_pos rfl] at hfirst
        cases hfirst
        assumption
      · have hrest := hfind name
        rw [Table.find?_cons_ofScript, Table.find?_cons_ofScript] at hrest
        by_cases hname : n = name
        · rw [← hname, hn, hn']; exact .none
        · rwa [if_neg hname, if_neg hname] at hrest

theorem keyName_entries {entries : Entries} (h : Value.entriesArePlain entries = true) :
    (entries.map fun e => (keyName e.1, e.2)) = entries := by
  induction entries with
  | nil => rfl
  | cons e rest ih =>
    obtain ⟨k, v⟩ := e
    obtain ⟨⟨n, rfl, -⟩, -, hrest⟩ := Value.entriesArePlain_cons.1 h
    have hname : keyName (.ofScript n) = .ofScript n := by cases n <;> rfl
    rw [List.map_cons, ih hrest, hname]

/-- The definitions of a list of gates stand in their places; those of a mapping do if the
    names do. -/
theorem items_reordered {v w : Value} (h : Reordered v w) {items items' : List (Value × Value)}
    (hv : gateItems v = .ok items) (hw : gateItems w = .ok items')
    (hnames : items.map (·.1) = items'.map (·.1)) :
    List.Forall₂ (fun e f => Reordered e.2 f.2) items items' := by
  have hlisted : ∀ {vs ws : List Value}, List.Forall₂ Reordered vs ws → listed 0 vs = .ok items →
      listed 0 ws = .ok items' → List.Forall₂ (fun e f => Reordered e.2 f.2) items items' := by
    intro vs ws hall hvs hws
    rw [← listed_definitions hvs, ← listed_definitions hws] at hall
    rwa [List.forall₂_map_left_iff, List.forall₂_map_right_iff] at hall
  cases h.form with
  | atom hatom =>
    have hplain := h.left
    have hitems : gateItems v = v.elements >>= listed 0 := by
      cases v <;> first | rfl | cases hatom
    rw [hitems] at hv hw
    obtain ⟨vs, hvs, hv⟩ := bind_eq_ok.1 hv
    obtain ⟨ws, hws, hw⟩ := bind_eq_ok.1 hw
    rw [hvs] at hws
    cases hws
    exact hlisted (List.forall₂_same.2 fun x hx => .refl (Value.elements_plain hplain hvs x hx)) hv hw
  | list hall => exact hlisted hall hv hw
  | map hes hfs =>
    cases hv
    cases hw
    rw [keyName_entries hes, keyName_entries hfs] at hnames ⊢
    exact forall_reordered hes hfs hnames (Value.reordered_find? hes hfs h.canonical)

/-- Gates that come to the same decisions are alike, if their definitions differ in order
    only. -/
theorem gates_like {items items' : List (Value × Value)} {gates gates' : List Gate} {ds : List Decision}
    (hitems : List.Forall₂ (fun e f => Reordered e.2 f.2) items items')
    (hg : (Gate.ofDefinitions items).result = .ok gates)
    (hg' : (Gate.ofDefinitions items').result = .ok gates')
    (hr : List.Forall₂ Gate.Retells gates ds) (hr' : List.Forall₂ Gate.Retells gates' ds) :
    List.Forall₂ Gate.Like gates gates' := by
  have hread := Gate.ofDefinitions_ok hg
  have hread' := Gate.ofDefinitions_ok hg'
  clear hg hg'
  induction hitems generalizing gates gates' ds with
  | nil => cases hread; cases hread'; exact .nil
  | cons hdef _ ih =>
    obtain _ | ⟨hfirst, hread⟩ := hread
    obtain _ | ⟨hfirst', hread'⟩ := hread'
    obtain _ | ⟨hd, hr⟩ := hr
    obtain _ | ⟨hd', hr'⟩ := hr'
    refine .cons (Gate.like_of_definitions hdef hfirst hfirst' ?_ ?_ ?_) (ih hr hr' hread hread')
    · exact hd.name.trans hd'.name.symm
    · exact hd.label.trans hd'.label.symm
    · exact hd.operands.trans hd'.operands.symm

/-- What a blueprint is read from, field by field. -/
theorem ofMapping_ok {data : Value} {b : Blueprint} (h : (ofMapping data).result = .ok b) :
    ∃ (entries : Entries) (gates : Value) (items : List (Value × Value)) (inputs : Entries),
      data = .map entries ∧ (entries.field "gates").orElse (.map []) = .ok gates ∧
      gateItems gates = .ok items ∧ (Gate.ofDefinitions items).result = .ok b.gates ∧
      (entries.field "inputs").orElse (.map []) = .ok (.map inputs) ∧
      readInputs [] inputs = .ok b.inputs ∧ b.output = entries.field "output" ∧ b.source = some data := by
  have hmapping : ∀ {v : Value} {entries : Entries}, v.asMapping = .ok entries → v = .map entries := by
    intro v entries h
    cases v <;> cases h
    rfl
  simp only [ofMapping] at h
  obtain ⟨entries, hentries, h⟩ := Outcome.result_bind_eq_ok.1 h
  obtain ⟨gates, hgates, h⟩ := Outcome.result_bind_eq_ok.1 h
  obtain ⟨items, hitems, h⟩ := Outcome.result_bind_eq_ok.1 h
  obtain ⟨written, hwritten, h⟩ := Outcome.result_bind_eq_ok.1 h
  obtain ⟨inputs, hinputs, h⟩ := Outcome.result_bind_eq_ok.1 h
  obtain ⟨read, hread, h⟩ := Outcome.result_bind_eq_ok.1 h
  obtain ⟨defined, hdefined, h⟩ := Outcome.result_bind_eq_ok.1 h
  obtain ⟨name, -, h⟩ := Outcome.result_bind_eq_ok.1 h
  cases h
  rw [Outcome.result_lift] at hentries hwritten hinputs
  rw [hmapping hinputs] at hwritten
  exact ⟨entries, gates, items, inputs, hmapping hentries, hgates, hitems, hdefined, hwritten, hread, rfl, rfl⟩

/-- What was read from a mapping without torn text has a key in each context without. -/
theorem key_of_mapping {data context : Value} {b : Blueprint} (hread : (ofMapping data).result = .ok b)
    (hdata : data.isWhole = true) (hcontext : context.isWhole = true) : ∃ key, b.key context = .ok key := by
  obtain ⟨_, _, _, _, -, -, -, -, -, -, -, hsource⟩ := ofMapping_ok hread
  exact b.key_of_whole context (by rw [hsource]; exact hdata) hcontext

end Blueprint

end Verdict
