/-
  Verdict.Proofs.References — a loaded blueprint refers to what it has.

  What the inputs and the gates before are called is found in the scope of a gate
  (`Covers`), so whatever an operand of a loaded blueprint refers to is found, unless it is
  a gate whose name is empty (`decideAll_refers`). No report is ever made of a blueprint
  with such an operand (`Replays.unreferred`).
-/

import Verdict.Proofs.Failures
import Verdict.Proofs.Integrity
import Verdict.Proofs.Raising

namespace Verdict

/-! ## Names that are found -/

namespace Scope

def Has (scope : Scope) (name : String) : Prop := (Table.find? scope (.str name)).isSome = true

theorem has_set (scope : Scope) (name : String) (s : State) (other : String) :
    Has (Table.set scope (.str name) s) other ↔ name = other ∨ Has scope other := by
  unfold Has
  rw [Table.find?_set scope _ _ rfl]
  by_cases hsame : name = other
  · simp [hsame, Value.same_str, Value.text?]
  · simp [hsame, Value.same_str, Value.text?]

end Scope

namespace Blueprint.Setting

variable {env : Setting} {context : Value} {P : Prop}

/-- Whether the error is no undefined operand, unless a handler raises it or `P` holds. -/
def Excused (env : Setting) (P : Prop) (e : Error) : Prop := IsUndefined e → env.logic.Raises e ∨ P

theorem excused_of_expression {e : Error} (h : IsUndefined e → env.logic.Raises e) : env.Excused P e :=
  fun hundefined => .inl (h hundefined)

theorem excused_of_refusal {e : Error} (h : Expression.IsRefusal e) : env.Excused P e :=
  fun hundefined => absurd hundefined h.defined

theorem expression_excused (text context : Value) :
    FailsAs (env.Excused P) (env.logic.expression text context).result :=
  (env.logic.expression_confined text context).weaken fun _ => excused_of_expression

theorem resolveInput_excused {source : Source} (hpure : source.isComputed = false) :
    FailsAs (env.Excused P) (env.resolveInput context source).result := by
  cases source with
  | literal s => trivial
  | context path =>
    show Ends _ _ (atPath context path)
    unfold atPath
    split
    · exact (Expression.toState_ends _).weaken fun _ => excused_of_refusal
    · trivial
  | expression text => exact expression_excused _ _
  | computed f => cases hpure

theorem resolveInputs_excused {inputs : List (String × Source)} (hpure : ∀ p ∈ inputs, p.2.isComputed = false)
    (scope : Scope) :
    Ends (env.Excused P) (fun after => ∀ name, after.Has name ↔ name ∈ inputs.map Prod.fst ∨ scope.Has name)
      (env.resolveInputs context scope inputs).result := by
  induction inputs generalizing scope with
  | nil => exact fun name => by simp
  | cons p inputs ih =>
    obtain ⟨n, source⟩ := p
    obtain ⟨hsource, hpure⟩ := List.forall_mem_cons.1 hpure
    rw [resolveInputs, Outcome.result_bind]
    refine (resolveInput_excused hsource).bind fun s _ => ?_
    refine (ih hpure _).imp fun after hafter name => ?_
    rw [hafter, Scope.has_set, List.map_cons, List.mem_cons]
    tauto

/-! ## Gates -/

theorem refer_excused {scope : Scope} {gate : Value} {name : String} (h : scope.Has name ∨ P) :
    FailsAs (env.Excused P) (refer scope gate name) := by
  unfold refer
  cases hfound : Table.find? scope (.str name) with
  | some s => trivial
  | none =>
    have hP : P := by
      refine h.resolve_left fun hhas => ?_
      rw [Scope.Has, hfound] at hhas
      cases hhas
    refine Ends.bind (?_ : FailsAs (env.Excused P) (Scope.sort (Table.keys scope))) fun _ _ => fun _ => .inr hP
    cases Scope.sort (Table.keys scope) with
    | ok _ => trivial
    | error e => exact fun _ => .inr hP

/-- Whether the operand is no function, and what it refers to is found unless `P` holds. -/
def Referable (P : Prop) (scope : Scope) (o : Operand) : Prop :=
  o.isComputed = false ∧ ∀ name negated, o = .reference name negated → scope.Has name ∨ P

theorem resolveOperand_excused {scope : Scope} {before : List Decision} {gate : Value} {o : Operand}
    (h : Referable P scope o) :
    FailsAs (env.Excused P) (env.resolveOperand scope before gate o).result := by
  obtain ⟨hpure, hfound⟩ := h
  cases o with
  | literal s => trivial
  | reference name negated =>
    simp only [resolveOperand, Outcome.result_bind, Outcome.result_lift]
    exact (refer_excused (hfound name negated rfl)).bind fun _ _ => trivial
  | expression text => exact expression_excused _ _
  | computed f label => cases hpure

theorem gather_excused {scope : Scope} {before : List Decision} {gate : Value} {os : List Operand}
    (h : ∀ o ∈ os, Referable P scope o) :
    FailsAs (env.Excused P) (env.gather scope before gate os).result := by
  induction os with
  | nil => trivial
  | cons o os ih =>
    obtain ⟨ho, hos⟩ := List.forall_mem_cons.1 h
    simp only [gather, Outcome.result_bind]
    exact (resolveOperand_excused ho).bind fun _ _ => (ih hos).bind fun _ _ => trivial

theorem express_excused (scope : Scope) (text : Value) :
    FailsAs (env.Excused P) (env.express context scope text).result := by
  unfold express
  simp only [Outcome.result_bind, Outcome.result_lift]
  refine ((orElse_defined text _).weaken (fun _ hdefined h => absurd h hdefined)).bind fun text _ => ?_
  split
  · exact expression_excused _ _
  · exact fun h => nomatch h

theorem decideGate_excused {scope : Scope} {before : List Decision} {g : Gate}
    (h : ∀ o ∈ g.operands, Referable P scope o) :
    Ends (env.Excused P) (fun d => d.name = g.name) (env.decideGate context scope before g).result := by
  unfold decideGate
  rw [Outcome.result_bind]
  refine (gather_excused h).bind fun evidence _ => ?_
  by_cases hexpression : g.operator = .expression
  · rw [if_pos hexpression, Outcome.result_bind]
    exact (express_excused scope g.expression).bind fun _ _ => rfl
  · rw [if_neg hexpression]
    rfl

theorem select_excused (output : Value) (scope : Scope) (decisions : List Decision) :
    FailsAs (env.Excused P) (select output scope decisions) := by
  unfold select
  split
  · trivial
  · split
    · trivial
    · exact fun h => nomatch h

/-! ## Whole blueprints -/

/-- Whether the known names are found, save the empty one if `unnamed` holds. -/
def Covers (unnamed : Prop) (scope : Scope) (known : List String) : Prop :=
  ∀ name ∈ known, scope.Has name ∨ name = "" ∧ unnamed

theorem exists_of_mem {α β : Type} {R : α → β → Prop} {as : List α} {bs : List β} (h : List.Forall₂ R as bs) :
    ∀ a ∈ as, ∃ b ∈ bs, R a b := by
  induction h with
  | nil => exact List.forall_mem_nil _
  | @cons a b as bs hab _ ih =>
    refine List.forall_mem_cons.2 ⟨⟨b, List.mem_cons_self, hab⟩, fun a' ha' => ?_⟩
    obtain ⟨b', hb', hab'⟩ := ih a' ha'
    exact ⟨b', List.mem_cons_of_mem _ hb', hab'⟩

/-- By induction on the gates: what the ones before are called is found. -/
theorem decideAll_refers {unnamed : Prop} {index : Nat} {items : List (String × Document.Gate)}
    {gates : List Gate} (hcalled : Document.Called index items gates) {known : List String}
    (hscoped : Document.Scoped known items) {scope : Scope} (hcovers : Covers unnamed scope known)
    (hunnamed : ∀ item ∈ items, item.1 = "" → unnamed)
    (hP : ∀ item ∈ items, ∀ x ∈ item.2.operands, x.reference? = some "" → unnamed → P)
    (before : List Decision) :
    Ends (env.Excused P) (fun after => Covers unnamed after.1 (Document.namesAfter known items))
      (env.decideAll context scope before gates).result := by
  induction hcalled generalizing known scope before with
  | nil => exact hcovers
  | @cons index name g rest gate gates hname hwrites _ ih =>
    cases hscoped with
    | cons hoperands hfresh hscoped =>
      obtain ⟨hhere, hunnamed⟩ := List.forall_mem_cons.1 hunnamed
      obtain ⟨hPhere, hP⟩ := List.forall_mem_cons.1 hP
      have hreferable : ∀ o ∈ gate.operands, Referable P scope o := by
        intro o ho
        obtain ⟨x, hx, hwritten⟩ := exists_of_mem (List.Forall₂.flip hwrites) o ho
        refine ⟨hwritten.pure, fun referred negated heq => ?_⟩
        have hreferred := (hwritten.reference referred).1 ⟨negated, heq⟩
        rcases hcovers referred (hoperands x hx referred hreferred) with hhas | ⟨rfl, hun⟩
        · exact .inl hhas
        · exact .inr (hPhere x hx hreferred hun)
      rw [decideAll, Outcome.result_bind]
      refine (decideGate_excused hreferable).bind fun d hd => ?_
      have hdname : d.name = .str (Document.called index name) := hd.trans hname
      have hannounce : (announce scope d).result = .ok (Table.set scope d.name d.state) :=
        announce_ok.2 ⟨by rw [hdname]; rfl, rfl⟩
      rw [Outcome.result_bind, hannounce, ok_bind]
      have hnext : Covers unnamed (Table.set scope d.name d.state) (name :: known) := by
        intro other hother
        rw [hdname, Scope.has_set]
        rcases List.mem_cons.1 hother with rfl | hother
        · by_cases hempty : other = ""
          · exact .inr ⟨hempty, hhere hempty⟩
          · exact .inl (.inl (if_neg hempty))
        · exact (hcovers other hother).imp_left .inr
      refine (ih hscoped hnext hunnamed hP _).imp fun after hafter => ?_
      simpa [Document.namesAfter] using hafter

section

variable {b : Blueprint} {before ds : List Decision}

/-- Whether no decision has the empty name. -/
def Named (ds : List Decision) : Prop := ∀ d ∈ ds, ∃ name, d.name = .str name ∧ name ≠ ""

theorem standing?_empty (hinputs : "" ∉ b.inputs.map Prod.fst) (hnamed : Named before) :
    standing? env b context before (.str "") = none := by
  have hlatest : Decision.latest? before (.str "") = none := by
    refine List.find?_eq_none.2 fun d hd hsame => ?_
    obtain ⟨name, hname, hne⟩ := hnamed d (List.mem_reverse.1 hd)
    rw [hname, Value.same_str] at hsame
    exact hne (Option.some.inj hsame)
  have hinput : b.input? (.str "") = none := by
    unfold input?
    rw [Option.map_eq_none_iff, List.find?_eq_none]
    intro p hp hsame
    rw [Value.same_str] at hsame
    exact hinputs (List.mem_map.2 ⟨p, List.mem_reverse.1 hp, Option.some.inj hsame⟩)
  rw [standing?, hlatest]
  simp only [hinput, Option.bind_none]

theorem Replays.named {index : Nat} {items : List (String × Document.Gate)} {gates : List Gate}
    (h : Replays env b context before gates ds) (hcalled : Document.Called index items gates) : Named ds := by
  induction h generalizing index items with
  | nil => exact List.forall_mem_nil _
  | cons hdecides _ ih =>
    cases hcalled with
    | cons hname _ hcalled =>
      exact List.forall_mem_cons.2 ⟨⟨_, hdecides.name.trans hname, Document.called_ne _ _⟩, ih hcalled⟩

/-- In a report no operand refers to the empty name, unless an input has it. -/
theorem Replays.unreferred {index : Nat} {items : List (String × Document.Gate)} {gates : List Gate}
    (h : Replays env b context before gates ds) (hcalled : Document.Called index items gates)
    (hinputs : "" ∉ b.inputs.map Prod.fst) (hnamed : Named before) :
    ∀ item ∈ items, ∀ x ∈ item.2.operands, x.reference? ≠ some "" := by
  induction h generalizing index items with
  | nil =>
    cases hcalled
    exact List.forall_mem_nil _
  | @cons before g d gs ds hdecides _ ih =>
    cases hcalled with
    | @cons _ name _ _ _ _ hname hwrites hcalled =>
      have hnext : Named (before ++ [d]) := by
        refine List.forall_mem_append.2 ⟨hnamed, List.forall_mem_singleton.2 ?_⟩
        exact ⟨_, hdecides.name.trans hname, Document.called_ne _ _⟩
      refine List.forall_mem_cons.2 ⟨fun x hx hreferred => ?_, ih hcalled hnext⟩
      obtain ⟨o, ho, hwritten⟩ := exists_of_mem hwrites x hx
      obtain ⟨negated, rfl⟩ := (hwritten.reference "").2 hreferred
      obtain ⟨evidence, -, hexplains⟩ := exists_of_mem hdecides.evidence _ ho
      obtain ⟨s, hs, -⟩ := hexplains.state
      rw [standing?_empty hinputs hnamed] at hs
      cases hs

end

end Blueprint.Setting

/-! ## Loaded blueprints -/

namespace Document

namespace Fits

variable {d : Document} {b : Blueprint} {env : Blueprint.Setting} {context : Value}

/-- Whatever the gates refer to is found, or a handler is to blame, or the document. -/
theorem decideAll_covers (h : Fits d b) {scope : Scope}
    (hscope : ∀ name, scope.Has name ↔ name ∈ b.inputs.map Prod.fst ∨ Scope.Has [] name) :
    Ends (env.Excused d.Dangles)
      (fun after => Blueprint.Setting.Covers d.HasUnnamed after.1
        (namesAfter (d.inputs.map Prod.fst) d.gates.items))
      (env.decideAll context scope [] b.gates).result := by
  refine Blueprint.Setting.decideAll_refers h.called h.names ?_ ?_ ?_ []
  · exact fun name hname => .inl ((hscope name).2 (.inl ((h.inputs.names name).2 hname)))
  · exact fun item hitem hempty => ⟨item, hitem, hempty⟩
  · exact fun item hitem x hx hreferred hunnamed => ⟨hunnamed, item, hitem, x, hx, hreferred⟩

theorem evaluate_excused (h : Fits d b) :
    FailsAs (env.Excused d.Dangles) (env.evaluate b context).result := by
  unfold Blueprint.Setting.evaluate
  simp only [Outcome.result_bind, Outcome.result_lift]
  refine (Blueprint.Setting.resolveInputs_excused h.inputs.pure []).bind fun scope hscope => ?_
  refine (h.decideAll_covers hscope).bind fun after _ => ?_
  exact (Blueprint.Setting.select_excused b.output after.1 after.2).bind fun _ _ => trivial

theorem no_report (h : Fits d b) (hdangles : d.Dangles) (report : Report) :
    (env.evaluate b context).result ≠ .ok report := by
  intro hreport
  obtain ⟨hunnamed, item, hitem, x, hx, hreferred⟩ := hdangles
  have hreplays := Blueprint.replays_of_report hreport
  exact Blueprint.Setting.Replays.unreferred hreplays h.called (h.no_empty_input hunnamed)
    (List.forall_mem_nil _) item hitem x hx hreferred

/-- The output is found after the gates, unless it is a gate with the empty name. -/
theorem output_found (h : Fits d b) {output : String} (houtput : d.output = some output) {inputs scope : Scope}
    {decisions : List Decision} (hinputs : (env.resolveInputs context [] b.inputs).result = .ok inputs)
    (hdecided : (env.decideAll context inputs [] b.gates).result = .ok (scope, decisions)) :
    scope.Has output ↔ ¬(output = "" ∧ d.HasUnnamed) := by
  constructor
  · rintro hhas ⟨rfl, hunnamed⟩
    obtain ⟨ds, hds, hreplays, htracks⟩ := Blueprint.decideAll_replays (Blueprint.tracks_inputs hinputs) hdecided
    obtain rfl : decisions = ds := hds
    rw [Scope.Has, htracks _ rfl, Blueprint.Setting.standing?_empty (h.no_empty_input hunnamed)
      (Blueprint.Setting.Replays.named hreplays h.called)] at hhas
    cases hhas
  · intro hnot
    have hscope : Ends (env.Excused d.Dangles) _ (env.resolveInputs context [] b.inputs).result :=
      Blueprint.Setting.resolveInputs_excused h.inputs.pure []
    rw [hinputs] at hscope
    have hcovers : Ends (env.Excused d.Dangles) _ (env.decideAll context inputs [] b.gates).result :=
      h.decideAll_covers hscope
    rw [hdecided] at hcovers
    exact (hcovers output (h.known output houtput)).resolve_right hnot

end Fits

/-- What comes of the references of a document in the blueprint that was read from it. -/
structure Refers {τ ω : Type} [LE τ] [DecidableLE τ] [LT τ] [DecidableLT τ] [Add τ] (d : Document) (b : Blueprint)
    (e : Engine τ ω) (present : Present τ) (context : Value) (memoize : Option Bool) : Prop where
  /-- If no operand refers to a gate with the empty name, no evaluation fails on an undefined
      operand, unless a handler or an observer raises one. -/
  defined : ¬d.Dangles → ∀ err, (e.run present b context memoize).2.result = .error err →
    err.family = .undefinedOperand →
    e.setting.logic.Raises err ∨ ∃ report, Engine.Rejects e.observers report err
  /-- If some operand does, no evaluation makes a report. -/
  dangling : d.Dangles → ∀ report, (e.setting.evaluate b context).result ≠ .ok report
  /-- The output is found after the gates, unless it is a gate with the empty name. -/
  output : ∀ output, d.output = some output → ∀ inputs scope decisions,
    (e.setting.resolveInputs context [] b.inputs).result = .ok inputs →
    (e.setting.decideAll context inputs [] b.gates).result = .ok (scope, decisions) →
    ((Table.find? scope (.str output)).isSome = true ↔ ¬(output = "" ∧ d.HasUnnamed))

section

variable {τ ω : Type} [LE τ] [DecidableLE τ] [LT τ] [DecidableLT τ] [Add τ]

theorem Fits.run_defined {d : Document} {b : Blueprint} (hfits : Fits d b) (hsound : ¬d.Dangles) {e : Engine τ ω}
    {present : Present τ} {context : Value} {memoize : Option Bool} {err : Error}
    (herr : (e.run present b context memoize).2.result = .error err) (hundefined : err.family = .undefinedOperand) :
    e.setting.logic.Raises err ∨ ∃ report, Engine.Rejects e.observers report err := by
  rcases Engine.run_error herr with ⟨-, hkey⟩ | hmade | hrejects
  · obtain ⟨text, rfl⟩ := Blueprint.key_error hkey
    cases hundefined
  · have hexcused : Ends (e.setting.Excused d.Dangles) _ (e.setting.evaluate b context).result :=
      hfits.evaluate_excused
    rw [hmade] at hexcused
    exact .inl ((hexcused hundefined).resolve_right hsound)
  · exact .inr hrejects

/-- The blueprint of a document without complaints refers to what it has, wherever the
    document comes from. -/
theorem refers_of_sound {d : Document} {b : Blueprint} (hsound : d.complaints = [])
    (hread : (Blueprint.ofMapping d.mapping).result = .ok b) (e : Engine τ ω) (present : Present τ)
    (context : Value) (memoize : Option Bool) : d.Refers b e present context memoize where
  defined hsafe _ herr hundefined := (fits_of_sound hsound hread).run_defined hsafe herr hundefined
  dangling hdangles := (fits_of_sound hsound hread).no_report hdangles
  output _ houtput _ _ _ hinputs hdecided := (fits_of_sound hsound hread).output_found houtput hinputs hdecided

/-- So does a blueprint that was loaded: it was read from a document without complaints. -/
theorem loadData_refers {strict : Bool} {path : String} {data : Value} {b : Blueprint}
    (h : (loadData strict path data).result = .ok b) (e : Engine τ ω) (present : Present τ) (context : Value)
    (memoize : Option Bool) :
    ∃ entries d, data.entries? = some entries ∧ ofEntries strict path entries = .ok d ∧
      d.Refers b e present context memoize := by
  obtain ⟨entries, d, hentries, hd, hread⟩ := loadData_ok h
  exact ⟨entries, d, hentries, hd, refers_of_sound (ofEntries_ok hd) hread e present context memoize⟩

end

/-- A gate of a mapping that refers to an input and is put out. -/
theorem loadData_refers_input :
    let gate : Value := .map [(.str "operands", .list [.str "!a"])]
    let data : Value := .map [(.str "name", .str "n"), (.str "inputs", .map [(.str "a", .bool true)]),
      (.str "gates", .map [(.str "g", gate)]), (.str "output", .str "g")]
    let d : Document := ⟨"1.0.0", "n", none, [("a", .bool true)],
      .named [("g", ⟨none, .and, [.text "!a"], [], none, none⟩)], some "g"⟩
    let b : Blueprint := {
      inputs := [("a", .literal .yes)]
      gates := [⟨.str "g", .and, [.reference "a" true], [], .null, .null, none⟩]
      output := .str "g", name := .str "n", source := some d.mapping }
    (loadData false "" data).result = .ok b ∧
      (Table.find? ([(.str "a", .yes), (.str "g", .no)] : Scope) (.str "g")).isSome = true := by
  intro gate data d b
  have hloaded : (loadData false "" data).result = .ok b := rfl
  let e : Engine Nat Unit := .fresh ⟨.standard, .none⟩ false 0 ()
  obtain ⟨entries, found, hentries, hfound, hrefers⟩ := loadData_refers hloaded e ⟨0, 0⟩ (.map []) none
  cases hentries
  obtain rfl : d = found := Except.ok.inj hfound
  have hscope := hrefers.output "g" rfl [(.str "a", .yes)] _ [⟨.str "g", .no, "AND", [⟨"!a", .no⟩], .null⟩] rfl rfl
  exact ⟨hloaded, hscope.2 fun h => absurd h.1 (by decide)⟩

/-- A gate with the empty name is called by its position, and what refers to it finds
    nothing. -/
theorem loadData_refers_unnamed :
    let data : Value := .map [(.str "name", .str "n"), (.str "gates", .map [
      (.str "", .map [(.str "operands", .list [.bool true])]),
      (.str "g", .map [(.str "operands", .list [.str ""])])])]
    let e : Engine Nat Unit := .fresh ⟨.standard, .none⟩ false 0 ()
    ∃ b, (loadData false "" data).result = .ok b ∧
      (e.run ⟨0, 0⟩ b (.map []) none).2.result = .error (.undefinedOperand "" (.str "g") [.str "gate_0"]) := by
  intro data e
  let d : Document := ⟨"1.0.0", "n", none, [], .named [("", ⟨none, .and, [.bool true], [], none, none⟩),
    ("g", ⟨none, .and, [.text ""], [], none, none⟩)], none⟩
  let b (name : String) : Blueprint := {
    inputs := []
    gates := [⟨.str name, .and, [.literal .yes], [], .null, .null, none⟩,
      ⟨.str "g", .and, [.reference "" false], [], .null, .null, none⟩]
    output := .null, name := .str "n", source := some d.mapping }
  have hloaded : (loadData false "" data).result = .ok (b ("gate_" ++ Text.decimal 0)) := rfl
  have hname : "gate_" ++ Text.decimal 0 = "gate_0" := by
    rw [show (0 : Int) = .ofNat 0 from rfl, Text.decimal, Text.intChars, Text.natChars]
    decide
  rw [hname] at hloaded
  exact ⟨b "gate_0", hloaded, rfl⟩

end Document

end Verdict
