/-
  Verdict.Proofs.Grounding — undefined operands are those that can be seen beforehand.

  A blueprint is grounded when each of its gates refers to inputs and to gates before it
  only (`Blueprint.isGrounded`), which is told without evaluating anything. The scope of a
  gate holds a state under exactly those names (`Scope.Spans`), whatever the states are, so
  an evaluation fails on an undefined operand at the first reference that leads nowhere, in
  the order of the gates and of their operands (`Gate.Dangling`), if it gets that far. So
  does every evaluation of a blueprint that is not grounded, or it fails for another reason
  before (`undefined_operands`).
-/

import Verdict.Proofs.Exports
import Verdict.Proofs.References
import Verdict.Proofs.Replay
import Mathlib.Data.String.Basic

namespace Verdict

/-! ## Names -/

/-- Whether a name is one of those known. -/
def Value.isAmong (name : Value) (known : List Value) : Bool := known.any fun k => k.same name

def Value.isString : Value → Bool
  | str _ => true
  | _ => false

theorem Value.exists_of_isString {v : Value} (h : v.isString = true) : ∃ s : String, v = .str s := by
  cases v with
  | str s => exact ⟨s, rfl⟩
  | _ => cases h

/-- Whether the operand refers to a name that is known, if it refers to any. -/
def Operand.isWithin (known : List Value) : Operand → Bool
  | .reference name _ => (Value.str name).isAmong known
  | _ => true

/-- Whether each gate refers to known names and to gates before it only. -/
def Gate.areGrounded (known : List Value) : List Gate → Bool
  | [] => true
  | g :: gates => g.operands.all (Operand.isWithin known) && areGrounded (known ++ [g.name]) gates

namespace Blueprint

def inputNames (b : Blueprint) : List Value := b.inputs.map fun p => .str p.1

def isGrounded (b : Blueprint) : Bool := Gate.areGrounded b.inputNames b.gates

end Blueprint

theorem Gate.areGrounded_cons {known : List Value} {g : Gate} {gates : List Gate} :
    areGrounded known (g :: gates) = true ↔
      (∀ o ∈ g.operands, o.isWithin known = true) ∧ areGrounded (known ++ [g.name]) gates = true := by
  rw [areGrounded, Bool.and_eq_true, List.all_eq_true]

/-! ## Sorted names -/

namespace Scope

theorem keyed?_texts (words : List String) :
    keyed? Value.text? (words.map Value.str) = some (words.map fun w => (w, .str w)) := by
  induction words with
  | nil => rfl
  | cons w words ih => rw [List.map_cons, keyed?, ih]; rfl

theorem pairwise_mergeSort_texts {α : Type} (pairs : List (String × α)) :
    (pairs.mergeSort fun a b => a.1 ≤ b.1).Pairwise fun a b => a.1 ≤ b.1 := by
  let le (a b : String × α) : Bool := a.1 ≤ b.1
  have htrans : ∀ a b c, le a b = true → le b c = true → le a c = true := fun a b c hab hbc =>
    decide_eq_true (le_trans (of_decide_eq_true hab) (of_decide_eq_true hbc))
  have htotal : ∀ a b, (le a b || le b a) = true := fun a b => by
    simpa [le] using le_total a.1 b.1
  exact (List.pairwise_mergeSort htrans htotal pairs).imp of_decide_eq_true

/-- Different texts are sorted strictly. -/
theorem sort_texts {words : List String} (h : words.Nodup) :
    ∃ sorted : List String, sort (words.map .str) = .ok (sorted.map .str) ∧ sorted.Pairwise (· < ·) ∧
      sorted.Perm words := by
  unfold sort
  split
  · next hshort =>
    rw [List.length_map] at hshort
    refine ⟨words, rfl, ?_, .refl _⟩
    match words, hshort with
    | [], _ => exact .nil
    | [w], _ => exact List.pairwise_singleton _ _
  · rw [keyed?_texts]
    let pairs : List (String × Value) := words.map fun w => (w, .str w)
    let turn := pairs.mergeSort fun a b => a.1 ≤ b.1
    have hperm : turn.Perm pairs := List.mergeSort_perm _ _
    have hwords : (turn.map Prod.fst).Perm words := by
      have hmap := hperm.map Prod.fst
      rwa [List.map_map, show (Prod.fst ∘ fun w => (w, Value.str w)) = id from rfl, List.map_id] at hmap
    have hvalues : turn.map Prod.snd = (turn.map Prod.fst).map Value.str := by
      rw [List.map_map]
      refine List.map_congr_left fun p hp => ?_
      obtain ⟨w, -, rfl⟩ := List.mem_map.1 (hperm.subset hp)
      rfl
    have hle : (turn.map Prod.fst).Pairwise (· ≤ ·) := List.pairwise_map.2 (pairwise_mergeSort_texts pairs)
    exact ⟨turn.map Prod.fst, congrArg _ hvalues, hle.imp₂ (fun _ _ => lt_of_le_of_ne) (hwords.nodup_iff.2 h), hwords⟩

end Scope

/-- A text that is found in a table is the key of an entry. -/
theorem Table.Named.isSome_find? {α : Type} {t : Table α} (h : t.Named) (word : String) :
    (Table.find? t (.str word)).isSome = true ↔ Value.str word ∈ Table.keys t := by
  rw [Table.find?, Option.isSome_map, List.find?_isSome, Table.keys, List.mem_map]
  refine exists_congr fun e => and_congr_right fun he => ?_
  obtain ⟨name, hname⟩ := h.names e he
  rw [hname, Value.same_str, Value.text?, Option.some.injEq, Value.str.injEq]

theorem Table.Named.keys_eq {α : Type} {t : Table α} (h : t.Named) :
    ∃ words : List String, Table.keys t = words.map .str ∧ words.Nodup := by
  obtain ⟨hdistinct, hnames⟩ := h
  induction t with
  | nil => exact ⟨[], rfl, .nil⟩
  | cons e t ih =>
    obtain ⟨hhead, hdistinct⟩ := List.pairwise_cons.1 hdistinct
    obtain ⟨⟨name, hname⟩, hnames⟩ := List.forall_mem_cons.1 hnames
    obtain ⟨words, hwords, hnodup⟩ := ih hdistinct hnames
    refine ⟨name :: words, ?_, List.nodup_cons.2 ⟨fun hmem => ?_, hnodup⟩⟩
    · rw [List.map_cons, ← hwords, ← hname]
      rfl
    · have hkey : Value.str name ∈ Table.keys t := hwords ▸ List.mem_map_of_mem hmem
      obtain ⟨f, hf, hsame⟩ := List.mem_map.1 hkey
      have hdiffers := hhead f hf
      rw [hname, hsame, (Value.same_str (.str name) name).2 rfl] at hdiffers
      cases hdiffers

/-! ## What is known -/

/-- Whether the scope holds a state under exactly the names that are known. -/
def Scope.Spans (scope : Scope) (known : List Value) : Prop :=
  ∀ key : Value, key.isAtom = true → (Table.find? scope key).isSome = key.isAmong known

namespace Scope

theorem spans_nil : Spans [] [] := fun _ _ => rfl

theorem Spans.set {scope : Scope} {known : List Value} (h : scope.Spans known) (name : Value) (s : State) :
    Spans (Table.set scope name s) (known ++ [name]) := by
  intro key hk
  rw [Table.find?_set scope _ _ hk, Value.isAmong, List.any_append, List.any_cons, List.any_nil, Bool.or_false]
  cases hsame : name.same key with
  | true => rw [if_pos rfl, Bool.or_true]; rfl
  | false => rw [if_neg Bool.false_ne_true, Bool.or_false]; exact h key hk

end Scope

/-- Whether the texts are those known, sorted and each once. -/
structure Lists (known : List Value) (available : List String) : Prop where
  sorted : available.Pairwise (· < ·)
  mem : ∀ word, word ∈ available ↔ (Value.str word).isAmong known = true

/-- The keys of a scope are shown as what is known. -/
theorem Scope.Spans.lists {scope : Scope} {known : List Value} (h : scope.Spans known) (hnamed : Table.Named scope) :
    ∃ available, Scope.sort (Table.keys scope) = .ok (available.map .str) ∧ Lists known available := by
  obtain ⟨words, hwords, hnodup⟩ := hnamed.keys_eq
  obtain ⟨available, hsort, hsorted, hperm⟩ := Scope.sort_texts hnodup
  refine ⟨available, hwords ▸ hsort, hsorted, fun word => ?_⟩
  rw [← h _ rfl, hnamed.isSome_find?, hwords, hperm.mem_iff, List.mem_map]
  exact ⟨fun hmem => ⟨word, hmem, rfl⟩, fun ⟨other, hmem, heq⟩ => Value.str.inj heq ▸ hmem⟩

/-! ## References that lead nowhere -/

/-- The error at the first of a gate's operands that refers to no known name. -/
inductive Operand.Dangling (known : List Value) (gate : Value) : List Operand → Error → Prop
  | here {name : String} {negated : Bool} {rest : List Operand} {available : List String} :
      (Value.str name).isAmong known = false → Lists known available →
      Dangling known gate (.reference name negated :: rest) (.undefinedOperand name gate (available.map .str))
  | later {o : Operand} {rest : List Operand} {err : Error} :
      o.isWithin known = true → Dangling known gate rest err → Dangling known gate (o :: rest) err

/-- The error at the first gate with such an operand. -/
inductive Gate.Dangling : (known : List Value) → List Gate → Error → Prop
  | here {known : List Value} {g : Gate} {gates : List Gate} {err : Error} :
      Operand.Dangling known g.name g.operands err → Dangling known (g :: gates) err
  | later {known : List Value} {g : Gate} {gates : List Gate} {err : Error} :
      (∀ o ∈ g.operands, o.isWithin known = true) → Dangling (known ++ [g.name]) gates err →
      Dangling known (g :: gates) err

theorem Operand.Dangling.exists_without {known : List Value} {gate : Value} {os : List Operand} {err : Error}
    (h : Dangling known gate os err) : ∃ o ∈ os, o.isWithin known = false := by
  induction h with
  | here hmissing _ => exact ⟨_, List.mem_cons_self, hmissing⟩
  | later _ _ ih =>
    obtain ⟨o, ho, hwithout⟩ := ih
    exact ⟨o, List.mem_cons_of_mem _ ho, hwithout⟩

theorem Gate.Dangling.not_grounded {known : List Value} {gates : List Gate} {err : Error}
    (h : Dangling known gates err) : ¬areGrounded known gates = true := by
  induction h with
  | here hoperands =>
    obtain ⟨o, ho, hwithout⟩ := hoperands.exists_without
    intro hgrounded
    rw [(areGrounded_cons.1 hgrounded).1 o ho] at hwithout
    cases hwithout
  | later _ _ ih => exact fun hgrounded => ih (areGrounded_cons.1 hgrounded).2

/-! ## Functions that are no cause of it -/

/-- The language as it comes has no handlers that could fail. -/
theorem Logic.standard_raises (err : Error) : ¬Logic.standard.Raises err := by
  rintro ⟨r, hr, hraises⟩
  cases hr
  rcases hraises with ⟨spec, hspec, handler, states, haction, -⟩ | ⟨f, hf, -⟩
  · obtain ⟨b, -, rfl⟩ := List.mem_map.1 hspec
    cases haction
  · cases hf

/-- The function of an input never fails on an undefined operand. -/
def Source.IsCandid (env : Blueprint.Setting) (s : Source) : Prop :=
  ∀ f, s = .computed f → ∀ context, FailsAs (¬IsUndefined ·) (env.host.input f context).result

def Operand.IsCandid (env : Blueprint.Setting) (o : Operand) : Prop :=
  ∀ f label, o = .computed f label → ∀ scope decisions,
    FailsAs (¬IsUndefined ·) (env.host.operand f scope decisions).result

/-- No function that the blueprint or the language of its expressions calls fails on an
    undefined operand by itself. -/
structure Blueprint.IsCandid (env : Setting) (b : Blueprint) : Prop where
  inputs : ∀ p ∈ b.inputs, p.2.IsCandid env
  operands : ∀ g ∈ b.gates, ∀ o ∈ g.operands, o.IsCandid env
  handlers : ∀ err, env.logic.Raises err → ¬IsUndefined err

namespace Blueprint.Setting

variable {env : Setting} {scope : Scope} {known : List Value} {P Q : Prop} {err : Error}

theorem Excused.imp (h : env.Excused P err) (himp : P → Q) : env.Excused Q err :=
  fun hundefined => (h hundefined).imp_right himp

theorem excused_of_defined (h : ¬IsUndefined err) : env.Excused P err := fun hundefined => absurd hundefined h

theorem toState_excused (v : Value) : FailsAs (env.Excused P) v.toState :=
  (Expression.toState_ends v).weaken fun _ => excused_of_refusal

/-! ## Inputs -/

theorem resolveInput_candid {source : Source} (hsource : source.IsCandid env) (context : Value) :
    FailsAs (env.Excused P) (env.resolveInput context source).result := by
  cases source with
  | literal | context | expression => exact resolveInput_excused rfl
  | computed f =>
    simp only [resolveInput, Outcome.result_bind, Outcome.result_lift]
    exact ((hsource f rfl context).weaken fun _ => excused_of_defined).bind fun v _ => toState_excused v

theorem resolveInputs_spans {inputs : List (String × Source)} (hinputs : ∀ p ∈ inputs, p.2.IsCandid env)
    (hspans : scope.Spans known) (hnamed : Table.Named scope) (context : Value) :
    Ends (env.Excused P)
      (fun after => Scope.Spans after (known ++ inputs.map fun p => .str p.1) ∧ Table.Named after)
      (env.resolveInputs context scope inputs).result := by
  induction inputs generalizing scope known with
  | nil =>
    rw [List.map_nil, List.append_nil]
    exact ⟨hspans, hnamed⟩
  | cons p inputs ih =>
    obtain ⟨name, source⟩ := p
    obtain ⟨hfirst, hrest⟩ := List.forall_mem_cons.1 hinputs
    rw [resolveInputs, Outcome.result_bind, List.map_cons, List.append_cons]
    exact (resolveInput_candid hfirst context).bind fun s _ => ih hrest (hspans.set _ s) (hnamed.set name s)

/-! ## Gates -/

section

variable (hspans : scope.Spans known) (hnamed : Table.Named scope)
include hspans hnamed

theorem refer_spans (gate : Value) (name : String) (negated : Bool) (rest : List Operand) :
    Ends (Operand.Dangling known gate (.reference name negated :: rest))
      (fun _ => (Value.str name).isAmong known = true) (refer scope gate name) := by
  have hfound := hspans (.str name) rfl
  unfold refer
  cases hfind : Table.find? scope (.str name) with
  | some s =>
    rw [hfind] at hfound
    exact hfound.symm
  | none =>
    rw [hfind] at hfound
    obtain ⟨available, hsort, hlists⟩ := hspans.lists hnamed
    rw [hsort]
    exact .here hfound.symm hlists

theorem resolveOperand_spans {o : Operand} (ho : o.IsCandid env) (before : List Decision) (gate : Value)
    (rest : List Operand) :
    Ends (fun err => env.Excused (Operand.Dangling known gate (o :: rest) err) err)
      (fun _ => o.isWithin known = true) (env.resolveOperand scope before gate o).result := by
  cases o with
  | literal s => rfl
  | reference name negated =>
    simp only [resolveOperand, Outcome.result_bind, Outcome.result_lift]
    have hrefer := refer_spans hspans hnamed gate name negated rest
    exact (hrefer.weaken fun _ hdangling _ => .inr hdangling).bind fun _ hwithin => hwithin
  | expression text =>
    have hexpression : FailsAs (env.Excused False) (env.logic.expression (.str text) (.map scope.toEntries)).result :=
      expression_excused _ _
    exact (hexpression.weaken fun _ h => h.imp False.elim).imp fun _ _ => rfl
  | computed f label =>
    simp only [resolveOperand, Outcome.result_bind, Outcome.result_lift]
    have hcomputed : FailsAs (env.Excused False) ((env.host.operand f scope before).result >>= Value.toState) :=
      ((ho f label rfl scope before).weaken fun _ => excused_of_defined).bind fun v _ => toState_excused v
    exact (hcomputed.weaken fun _ h => h.imp False.elim).imp fun _ _ => rfl

theorem gather_spans {os : List Operand} (hos : ∀ o ∈ os, o.IsCandid env) (before : List Decision) (gate : Value) :
    Ends (fun err => env.Excused (Operand.Dangling known gate os err) err)
      (fun _ => ∀ o ∈ os, o.isWithin known = true) (env.gather scope before gate os).result := by
  induction os with
  | nil => exact List.forall_mem_nil _
  | cons o os ih =>
    obtain ⟨ho, hos⟩ := List.forall_mem_cons.1 hos
    simp only [gather, Outcome.result_bind]
    refine (resolveOperand_spans hspans hnamed ho before gate os).bind fun s hwithin => ?_
    have hrest := (ih hos).weaken fun err (h : env.Excused _ err) => h.imp (Operand.Dangling.later hwithin)
    exact hrest.bind fun others hothers => List.forall_mem_cons.2 ⟨hwithin, hothers⟩

theorem decideGate_spans {g : Gate} (hg : ∀ o ∈ g.operands, o.IsCandid env) (context : Value) (before : List Decision) :
    Ends (fun err => env.Excused (Operand.Dangling known g.name g.operands err) err)
      (fun d => d.name = g.name ∧ ∀ o ∈ g.operands, o.isWithin known = true)
      (env.decideGate context scope before g).result := by
  unfold decideGate
  rw [Outcome.result_bind]
  refine (gather_spans hspans hnamed hg before g.name).bind fun evidence hwithin => ?_
  by_cases hexpression : g.operator = .expression
  · rw [if_pos hexpression, Outcome.result_bind]
    have hstate : FailsAs (env.Excused False) (env.express context scope g.expression).result := express_excused _ _
    exact (hstate.weaken fun _ h => h.imp False.elim).bind fun _ _ => ⟨rfl, hwithin⟩
  · rw [if_neg hexpression]
    exact ⟨rfl, hwithin⟩

end

/-- By induction on the gates: the scope of each spans the names before it. -/
theorem decideAll_spans {gates : List Gate} (hgates : ∀ g ∈ gates, ∀ o ∈ g.operands, o.IsCandid env)
    (hnames : ∀ g ∈ gates, g.name.isString = true) (hspans : scope.Spans known) (hnamed : Table.Named scope)
    (context : Value) (before : List Decision) :
    Ends (fun err => env.Excused (Gate.Dangling known gates err) err)
      (fun _ => Gate.areGrounded known gates = true) (env.decideAll context scope before gates).result := by
  induction gates generalizing scope known before with
  | nil => rfl
  | cons g gates ih =>
    obtain ⟨hg, hgates⟩ := List.forall_mem_cons.1 hgates
    obtain ⟨hname, hnames⟩ := List.forall_mem_cons.1 hnames
    obtain ⟨name, hname⟩ := Value.exists_of_isString hname
    rw [decideAll, Outcome.result_bind]
    have hdecide := decideGate_spans hspans hnamed hg context before
    refine (hdecide.weaken fun _ (h : env.Excused _ _) => h.imp Gate.Dangling.here).bind fun d hd => ?_
    obtain ⟨hdname, hwithin⟩ := hd
    have hannounce : (announce scope d).result = .ok (Table.set scope g.name d.state) :=
      announce_ok.2 ⟨by rw [hdname, hname]; rfl, by rw [hdname]⟩
    rw [Outcome.result_bind, hannounce, ok_bind]
    have hnext : Table.Named (Table.set scope g.name d.state) := hname ▸ hnamed.set name d.state
    have hrest := ih hgates hnames (hspans.set g.name d.state) hnext (before ++ [d])
    refine (hrest.weaken fun _ h => h.imp (Gate.Dangling.later hwithin)).imp fun _ hgrounded => ?_
    exact Gate.areGrounded_cons.2 ⟨hwithin, hgrounded⟩

theorem evaluate_spans {b : Blueprint} (hb : b.IsCandid env) (hnames : ∀ g ∈ b.gates, g.name.isString = true)
    (context : Value) :
    Ends (fun err => env.Excused (Gate.Dangling b.inputNames b.gates err) err) (fun _ => b.isGrounded = true)
      (env.evaluate b context).result := by
  unfold evaluate
  rw [Outcome.result_bind]
  have hinputs : Ends (env.Excused False) _ (env.resolveInputs context [] b.inputs).result :=
    resolveInputs_spans hb.inputs Scope.spans_nil ⟨.nil, nofun⟩ context
  refine (hinputs.weaken fun _ h => h.imp False.elim).bind fun scope hscope => ?_
  rw [Outcome.result_bind]
  refine (decideAll_spans hb.operands hnames hscope.1 hscope.2 context []).bind fun after hgrounded => ?_
  rw [Outcome.result_bind]
  have hselect : FailsAs (env.Excused False) (select b.output after.1 after.2) := select_excused _ _ _
  exact (hselect.weaken fun _ h => h.imp False.elim).bind fun _ _ => hgrounded

/-- An evaluation never fails on an undefined operand if every reference is to an input or
    to a gate before, and never makes a report if one is not; when it fails so, it is at the
    first such reference, and the error lists what is known there. -/
theorem undefined_operands {b : Blueprint} (hnames : ∀ g ∈ b.gates, g.name.isString = true)
    (hcandid : b.IsCandid env) :
    (b.isGrounded = true → ∀ context err, (env.evaluate b context).result = .error err → ¬IsUndefined err) ∧
      (b.isGrounded = false → ∀ context report, (env.evaluate b context).result ≠ .ok report) ∧
      ∀ context err, (env.evaluate b context).result = .error err → IsUndefined err →
        Gate.Dangling b.inputNames b.gates err := by
  have hends := evaluate_spans hcandid hnames
  have hdangling : ∀ context err, (env.evaluate b context).result = .error err → IsUndefined err →
      Gate.Dangling b.inputNames b.gates err := by
    intro context err herr
    have hend := hends context
    rw [herr] at hend
    exact fun hundefined => (hend hundefined).resolve_left fun hraises => hcandid.handlers err hraises hundefined
  refine ⟨fun hgrounded context err herr hundefined => ?_, fun hungrounded context report hreport => ?_, hdangling⟩
  · exact (hdangling context err herr hundefined).not_grounded hgrounded
  · have hend : b.isGrounded = true := by
      have hend := hends context
      rwa [hreport] at hend
    rw [hend] at hungrounded
    cases hungrounded

/-- The gate `g` refers to a gate after it, and to an input that the gate `b` hides; the
    other way round it is grounded. -/
theorem undefined_operands_forward :
    let env : Setting := ⟨.standard, ⟨fun _ _ => pure (.bool true), fun _ _ _ => pure (.bool false)⟩⟩
    let g : Gate := ⟨.str "g", .or, [.reference "b" true, .computed ⟨0, none⟩ "f", .reference "h" false,
      .reference "z" false], [], .null, .null, none⟩
    let h : Gate := ⟨.str "h", .and, [.expression "b", .reference "b" false], [], .null, .null, none⟩
    let b : Gate := ⟨.str "b", .not, [.reference "b" false], [], .null, .null, none⟩
    let inputs : List (String × Source) := [("b", .computed ⟨1, none⟩)]
    let ungrounded : Blueprint := { inputs, gates := [b, g, h], output := .null, name := .null, source := none }
    let grounded : Blueprint := {
      inputs := ("z", .context "z") :: inputs, gates := [h, b, g], output := .null, name := .null, source := none }
    (∀ context err, (env.evaluate grounded context).result = .error err → ¬IsUndefined err) ∧
      (∀ context report, (env.evaluate ungrounded context).result ≠ .ok report) ∧
      Gate.Dangling ungrounded.inputNames ungrounded.gates (.undefinedOperand "h" (.str "g") [.str "b"]) := by
  intro env g h b inputs ungrounded grounded
  have hcandid (c : Blueprint) : c.IsCandid env :=
    ⟨fun _ _ _ _ _ => trivial, fun _ _ _ _ _ _ _ _ _ => trivial, fun err hraises => absurd hraises (Logic.standard_raises err)⟩
  have hnames : ∀ k ∈ [b, g, h], k.name.isString = true := by decide
  have hnames' : ∀ k ∈ [h, b, g], k.name.isString = true := by decide
  refine ⟨(undefined_operands hnames' (hcandid grounded)).1 (by decide), ?_, ?_⟩
  · exact (undefined_operands hnames (hcandid ungrounded)).2.1 (by decide)
  · exact (undefined_operands hnames (hcandid ungrounded)).2.2 (.map []) _ rfl rfl

end Blueprint.Setting

end Verdict
