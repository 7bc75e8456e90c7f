/-
  Verdict.Proofs.Labels — what the label of an operator tells about a gate.

  An operator is recognised by its name in small letters, and a name that is not recognised
  is shown in capitals and the gate decided as `and`. Capitals are not undone by small
  letters: outside ASCII, three characters have capitals that occur in labels and are small
  letters already (`Text.disguises`, `Text.disguise_of_upperChar`). A name with one of them is
  not recognised and may be shown as `CONSENSUS`, `WEIGHTED` or `EXPRESSION` all the same;
  in any other name the label of an operator is that operator's
  (`Blueprint.Setting.label_tells`).
-/

import Verdict.Proofs.Names
import Verdict.Proofs.Readings

namespace Verdict

/-- What holds of the characters of a list is decided on the list, not on all characters. -/
local instance (priority := high) decidableOn {p : Char → Prop} [DecidablePred p] (cs : List Char) :
    Decidable (∀ c ∈ cs, p c) :=
  List.decidableBAll p cs

/-! ## Characters with capitals of labels -/

namespace Text

/-- The small letters outside ASCII whose capitals are in ASCII. -/
def disguises : List Char := ['ß', 'ı', 'ſ']

theorem label_ascii (o : Operator) :
    ∀ d ∈ o.label.toList, 0 < d.toNat ∧ d.toNat < 0x80 ∧ d ≠ Char.ofNat 0 := by
  cases o <;> decide

/-- Of the characters with several capitals, only the sharp s has them in a label. -/
theorem expansion_of_label (o : Operator) :
    ∀ e ∈ upperExpansions, (∀ n ∈ e.2, Char.ofNat n ∈ o.label.toList) → e.1 = 'ß'.toNat := by
  cases o <;> decide +kernel

/-- Of the characters that are shifted, only the dotless i and the long s get into a label. -/
theorem shift_of_label (o : Operator) :
    ∀ d ∈ o.label.toList, ∀ s ∈ upperShifts, s.covers ((d.toNat : Int) - s.delta).toNat = true →
      ((d.toNat : Int) - s.delta).toNat = 'ı'.toNat ∨ ((d.toNat : Int) - s.delta).toNat = 'ſ'.toNat := by
  cases o <;> decide +kernel

/-- Outside ASCII, what has capitals that occur in a label is a disguise. -/
theorem disguise_of_upperChar {o : Operator} {c : Char} (hc : ¬c.toNat < 0x80)
    (hupper : ∀ d ∈ upperChar c, d ∈ o.label.toList) : c ∈ disguises := by
  -- the capitals are an expansion of the table, a shift of it, or the character itself
  rw [upperChar, if_neg hc, mapBy] at hupper
  cases hlook : upperExpansions.lookup c.toNat with
  | some cs =>
    rw [hlook] at hupper
    obtain ⟨before, after, hsplit, -⟩ := List.lookup_eq_some_iff.1 hlook
    have hn := expansion_of_label o (c.toNat, cs) (by rw [hsplit]; simp) fun n hn => hupper _ (List.mem_map_of_mem hn)
    rw [Char.toNat_inj.1 hn]
    decide
  | none =>
    rw [hlook] at hupper
    cases hfind : upperShifts.find? (·.covers c.toNat) with
    | some s =>
      rw [hfind] at hupper
      have hmem := hupper _ (List.mem_singleton_self _)
      obtain ⟨hpos, -, hne⟩ := label_ascii o _ hmem
      have hshift := shift_of_label o _ hmem s (List.mem_of_find?_eq_some hfind)
      have hcov := List.find?_some hfind
      have hn := toNat_of_ofNat rfl hne
      have hback : c.toNat = ((Char.toNat (Char.ofNat ((c.toNat : Int) + s.delta).toNat) : Int) - s.delta).toNat := by
        omega
      rw [← hback] at hshift
      rcases hshift hcov with hn | hn <;> rw [Char.toNat_inj.1 hn] <;> decide
    | none =>
      rw [hfind] at hupper
      exact absurd (label_ascii o c (hupper c (List.mem_singleton_self c))).2.1 hc

/-- In small letters a disguise is what it was. -/
theorem lowerChar_disguise {c : Char} (hc : c ∈ disguises) : lowerChar c = [c] ∧ c ≠ 'Σ' := by
  have hall : ∀ c ∈ disguises, lowerChar c = [c] ∧ c ≠ 'Σ' := by decide +kernel
  exact hall c hc

theorem upper_ne_empty {s : String} {c : Char} (hc : c ∈ s.toList) (hdisguise : c ∈ disguises) : upper s ≠ "" := by
  have hall : ∀ c ∈ disguises, upperChar c ≠ [] := by decide +kernel
  intro hempty
  have hnil : (upper s).toList = [] := by rw [hempty]; rfl
  rw [upper, String.toList_ofList] at hnil
  exact hall c hdisguise (List.flatMap_eq_nil_iff.1 hnil c hc)

theorem mem_lowerFrom {c : Char} (hc : c ∈ disguises) {cs : List Char} (h : c ∈ cs) (before : List Char) :
    c ∈ lowerFrom before cs := by
  induction cs generalizing before with
  | nil => cases h
  | cons c' cs ih =>
    rw [lowerFrom, List.mem_append]
    rcases List.mem_cons.1 h with rfl | h
    · obtain ⟨hlower, hsigma⟩ := lowerChar_disguise hc
      rw [if_neg hsigma, hlower]
      exact .inl (List.mem_singleton_self c)
    · exact .inr (ih h _)

theorem lowerFrom_ascii {cs : List Char} (h : ∀ c ∈ cs, c.toNat < 0x80) (before : List Char) :
    lowerFrom before cs = cs.map Char.toLower := by
  induction cs generalizing before with
  | nil => rfl
  | cons c cs ih =>
    obtain ⟨hc, hcs⟩ := List.forall_mem_cons.1 h
    have hsigma : c ≠ 'Σ' := by
      rintro rfl
      exact absurd hc (by decide)
    rw [lowerFrom, if_neg hsigma, lowerChar, if_pos hc, ih hcs, List.singleton_append, List.map_cons]

theorem upperChars_ascii {cs : List Char} (h : ∀ c ∈ cs, c.toNat < 0x80) : upperChars cs = cs.map Char.toUpper := by
  induction cs with
  | nil => rfl
  | cons c cs ih =>
    obtain ⟨hc, hcs⟩ := List.forall_mem_cons.1 h
    rw [upperChars, List.flatMap_cons, upperChar, if_pos hc, ← upperChars, ih hcs, List.singleton_append, List.map_cons]

theorem toLower_toUpper {c : Char} (hc : c.toNat < 0x80) : c.toUpper.toLower = c.toLower := by
  have hall : ∀ n < 0x80, (Char.ofNat n).toUpper.toLower = (Char.ofNat n).toLower := by decide +kernel
  have h := hall c.toNat hc
  rwa [Char.ofNat_toNat] at h

end Text

/-! ## Names with the capitals of a label -/

namespace Operator

open Text

variable {s : String} {o : Operator}

theorem upperChar_subset (h : upper s = o.label) {c : Char} (hc : c ∈ s.toList) :
    ∀ d ∈ upperChar c, d ∈ o.label.toList := by
  intro d hd
  rw [← h, upper, String.toList_ofList]
  exact List.mem_flatMap.2 ⟨c, hc, hd⟩

/-- A name without disguises and with the capitals of a label is the operator's. -/
theorem lower_of_undisguised (h : upper s = o.label) (hplain : ∀ c ∈ s.toList, c ∉ disguises) : lower s = o.word := by
  have hascii : ∀ c ∈ s.toList, c.toNat < 0x80 := by
    intro c hc
    by_contra hlarge
    exact hplain c hc (disguise_of_upperChar hlarge (upperChar_subset h hc))
  have hlabel : o.label.toList = s.toList.map Char.toUpper := by
    rw [← h, upper, String.toList_ofList, upperChars_ascii hascii]
  have hword : o.word.toList = o.label.toList.map Char.toLower := by cases o <;> decide
  rw [← String.toList_inj, lower, String.toList_ofList, lowerChars, lowerFrom_ascii hascii, hword, hlabel, List.map_map]
  exact List.map_congr_left fun c hc => (toLower_toUpper (hascii c hc)).symm

/-- A name with a disguise is not recognised. -/
theorem ofWord?_disguised {c : Char} (hc : c ∈ s.toList) (hdisguise : c ∈ disguises) : ofWord? (lower s) = none := by
  have hwords : ∀ o ∈ all, c ∉ o.word.toList := by
    intro o _ hmem
    have hall : ∀ c ∈ disguises, c ∉ o.word.toList := by cases o <;> decide
    exact hall c hdisguise hmem
  refine List.find?_eq_none.2 fun o ho heq => hwords o ho ?_
  rw [eq_of_beq heq, lower, String.toList_ofList]
  exact mem_lowerFrom hdisguise hc []

/-- The labels that the capitals of a name with a disguise can be. -/
theorem label_disguised (h : upper s = o.label) {c : Char} (hc : c ∈ s.toList) (hdisguise : c ∈ disguises) :
    o = .consensus ∨ o = .weighted ∨ o = .expression := by
  have hsub := upperChar_subset h hc
  have hall : ∀ c ∈ disguises, (∀ d ∈ upperChar c, d ∈ o.label.toList) →
      o = .consensus ∨ o = .weighted ∨ o = .expression := by
    cases o <;> decide +kernel
  exact hall c hdisguise hsub

theorem ofWord?_eq_some {word : String} (h : ofWord? word = some o) : o.word = word := by
  have hfound := List.find?_some h
  exact beq_iff_eq.1 hfound

theorem label_inj {o o' : Operator} (h : o.label = o'.label) : o = o' := by
  cases o <;> cases o' <;> first | rfl | exact absurd h (by decide)

/-- An operator is recognised by a name without disguises and not declared, or it is `and` in
    place of a name that is no operator's, and that name is declared in capitals. -/
theorem read_cases {v : Value} (h : (read v).result = .ok o) :
    (Gate.declaredName v o = none ∧ ∀ c ∈ (strip v.display).toList, c ∉ disguises) ∨
      o = .and ∧ ofWord? (lower (strip v.display)) = none ∧
        Gate.declaredName v o = some (upper (strip v.display)) := by
  have hdeclared : (∀ o', v ≠ .operator o') → v ≠ .null → Gate.declaredName v o =
      if spelled v = o.word then none else some (upper (strip v.display)) := by
    intro hoperator hnull
    unfold Gate.declaredName
    split
    · exact absurd rfl hnull
    · exact absurd rfl (hoperator _)
    · rfl
  unfold read at h
  split at h
  · next o' =>
    cases h
    exact .inl ⟨rfl, by cases o <;> decide⟩
  · cases h
    exact .inl ⟨rfl, by decide⟩
  · next hoperator hnull =>
    split at h
    · next o' hword =>
      cases h
      have hspelled : spelled v = o.word := (ofWord?_eq_some hword).symm
      refine .inl ⟨by rw [hdeclared hoperator hnull, if_pos hspelled], fun c hc hdisguise => ?_⟩
      rw [spelled, ofWord?_disguised hc hdisguise] at hword
      cases hword
    · next hword =>
      cases h
      have hspelled : spelled v ≠ and.word := by
        intro heq
        rw [heq] at hword
        cases hword
      exact .inr ⟨rfl, hword, by rw [hdeclared hoperator hnull, if_neg hspelled]⟩

end Operator

/-! ## Labels of gates -/

namespace Gate

open Text

/-- What the operator and its label are read from. -/
theorem ofDefinition_operator {name definition : Value} {g : Gate} (h : (ofDefinition name definition).result = .ok g) :
    ∃ entries : Entries, definition = .map entries ∧
      (Operator.read (writtenOperator entries)).result = .ok g.operator ∧
      g.declared = declaredName (writtenOperator entries) g.operator := by
  obtain ⟨entries, _, _, rfl, -⟩ := ofDefinition_ok h
  simp only [ofDefinition] at h
  obtain ⟨found, hfound, h⟩ := Outcome.result_bind_eq_ok.1 h
  obtain ⟨_, -, h⟩ := Outcome.result_bind_eq_ok.1 h
  obtain ⟨operator, hoperator, h⟩ := Outcome.result_bind_eq_ok.1 h
  obtain ⟨_, -, h⟩ := Outcome.result_bind_eq_ok.1 h
  obtain ⟨_, -, h⟩ := Outcome.result_bind_eq_ok.1 h
  obtain ⟨_, -, h⟩ := Outcome.result_bind_eq_ok.1 h
  cases h
  cases hfound
  exact ⟨entries, rfl, hoperator, rfl⟩

/-- The label of an operator is the operator's unless the name has a disguise. -/
theorem operator_of_label {v : Value} {g : Gate} {o : Operator} (hread : (Operator.read v).result = .ok g.operator)
    (hdeclared : g.declared = declaredName v g.operator) (hlabel : g.operatorLabel = o.label) :
    (g.operator = o ↔ ∀ c ∈ (strip v.display).toList, c ∉ disguises) ∧
      (g.operator ≠ o → g.operator = .and ∧ (o = .consensus ∨ o = .weighted ∨ o = .expression)) := by
  rcases Operator.read_cases hread with ⟨hnone, hplain⟩ | ⟨hand, hword, hsome⟩
  · rw [operatorLabel, hdeclared, hnone] at hlabel
    have heq : g.operator = o := Operator.label_inj hlabel
    exact ⟨iff_of_true heq hplain, fun hne => absurd heq hne⟩
  · rw [operatorLabel, hdeclared, hsome] at hlabel
    by_cases hempty : upper (strip v.display) = ""
    · have hand' : Operator.and = o := by
        simp only [if_pos hempty, hand] at hlabel
        exact Operator.label_inj hlabel
      refine ⟨iff_of_true (hand.trans hand') fun c hc hdisguise => ?_, fun hne => absurd (hand.trans hand') hne⟩
      exact upper_ne_empty hc hdisguise hempty
    · simp only [if_neg hempty] at hlabel
      by_cases hplain : ∀ c ∈ (strip v.display).toList, c ∉ disguises
      · -- the name would have been recognised
        rw [Operator.lower_of_undisguised hlabel hplain] at hword
        cases o <;> cases hword
      · obtain ⟨c, hc, hdisguise⟩ : ∃ c ∈ (strip v.display).toList, c ∈ disguises := by
          simpa only [not_forall, not_not, exists_prop] using hplain
        have hlabels := Operator.label_disguised hlabel hc hdisguise
        have hne : g.operator ≠ o := by
          rw [hand]
          rcases hlabels with rfl | rfl | rfl <;> decide
        exact ⟨iff_of_false hne hplain, fun _ => ⟨hand, hlabels⟩⟩

end Gate

/-! ## Labels of decisions -/

namespace Blueprint.Setting

variable {env : Setting} {context : Value} {scope : Scope} {before : List Decision} {name definition : Value}
  {g : Gate} {d : Decision} {o : Operator}

/-- Whether the state of a decision is what an operator makes of a gate and its evidence. -/
def Applies (env : Setting) (context : Value) (scope : Scope) (o : Operator) (g : Gate) (d : Decision) : Prop :=
  if o = .expression then (env.express context scope g.expression).result = .ok d.state
  else d.state = o.apply g.weights (d.evidence.map Evidence.state)

/-- A gate whose decision has the label of an operator was decided with that operator exactly
    if the operator was written without disguises, else as `and`. -/
theorem label_tells (hread : (Gate.ofDefinition name definition).result = .ok g)
    (hdecide : (env.decideGate context scope before g).result = .ok d) (hlabel : d.operator = o.label) :
    ∃ entries : Entries, definition = .map entries ∧
      (g.operator = o ↔ ∀ c ∈ (Text.strip (Gate.writtenOperator entries).display).toList, c ∉ Text.disguises) ∧
      (g.operator ≠ o → g.operator = .and ∧ (o = .consensus ∨ o = .weighted ∨ o = .expression)) ∧
      env.Applies context scope g.operator g d := by
  obtain ⟨entries, hdefinition, hoperator, hdeclared⟩ := Gate.ofDefinition_operator hread
  obtain ⟨evidence, state, -, hstate, rfl⟩ := decideGate_ok.1 hdecide
  obtain ⟨hiff, helse⟩ := Gate.operator_of_label hoperator hdeclared hlabel
  refine ⟨entries, hdefinition, hiff, helse, ?_⟩
  unfold Applies
  split at hstate
  · next hexpression =>
    rw [if_pos hexpression]
    exact hstate
  · next hexpression =>
    rw [if_neg hexpression]
    exact hstate.symm

/-- Blanks and capitals do not matter. -/
theorem label_tells_blanks :
    let env : Setting := ⟨.standard, .none⟩
    let definition : Value := .map [(.str "operator", .str " ConSensus"),
      (.str "operands", .list [.bool true, .bool true, .bool false])]
    let g : Gate :=
      ⟨.str "g", .consensus, [.literal .yes, .literal .yes, .literal .no], [], .null, .null, none⟩
    let d : Decision := ⟨.str "g", .yes, "CONSENSUS", [⟨"true", .yes⟩, ⟨"true", .yes⟩, ⟨"false", .no⟩], .null⟩
    (Gate.ofDefinition (.str "g") definition).result = .ok g ∧
      (env.decideGate (.map []) [] [] g).result = .ok d ∧ d.operator = Operator.consensus.label ∧
      g.operator = .consensus := by
  intro env definition g d
  have hread : (Gate.ofDefinition (.str "g") definition).result = .ok g := rfl
  have hdecide : (env.decideGate (.map []) [] [] g).result = .ok d := rfl
  obtain ⟨entries, hentries, hiff, -, -⟩ := label_tells (o := .consensus) hread hdecide rfl
  obtain rfl : _ = entries := Value.map.inj hentries
  exact ⟨hread, hdecide, rfl, hiff.2 (by decide)⟩

/-- A long s has the capital S: the gate is shown as `CONSENSUS` and decided as `and`. -/
theorem label_misleads :
    let env : Setting := ⟨.standard, .none⟩
    let definition : Value := .map [(.str "operator", .str "conſensus"),
      (.str "operands", .list [.bool true, .bool true, .bool false])]
    let g : Gate :=
      ⟨.str "g", .and, [.literal .yes, .literal .yes, .literal .no], [], .null, .null, some "CONSENSUS"⟩
    let d : Decision := ⟨.str "g", .no, "CONSENSUS", [⟨"true", .yes⟩, ⟨"true", .yes⟩, ⟨"false", .no⟩], .null⟩
    (Gate.ofDefinition (.str "g") definition).result = .ok g ∧
      (env.decideGate (.map []) [] [] g).result = .ok d ∧ d.operator = Operator.consensus.label ∧
      g.operator ≠ .consensus ∧ d.state ≠ Operator.consensus.apply g.weights (d.evidence.map Evidence.state) :=
  ⟨rfl, rfl, rfl, by decide, by decide⟩

end Blueprint.Setting

end Verdict
