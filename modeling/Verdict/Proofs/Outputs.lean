/-
  Verdict.Proofs.Outputs — the result of a report and the decision on its output.

  The result is the state of the latest decision under the output, while a decision is
  looked for from the front (`Report.decision?`). Nothing keeps two gates from bearing one
  name: a name may be given twice, and one that is made up for a gate, or made of a key that
  is no text, may be given to another. So the decision that is found and the result are of
  one gate if only one bears the name, as in a mapping under texts (`result_decided`), and
  can differ if two do.
-/

import Verdict.Proofs.Calls
import Verdict.Proofs.Circuits
import Verdict.Proofs.Grounding

namespace Verdict

/-! ## The first and the latest decision of a name -/

namespace Decision

variable {decisions : List Decision} {name : Value}

theorem exists_first_latest (h : ∃ d ∈ decisions, d.name.same name = true) :
    ∃ first last, (decisions.find? fun d => d.name.same name) = some first ∧ latest? decisions name = some last := by
  have hfirst : (decisions.find? fun d => d.name.same name).isSome = true := List.find?_isSome.2 h
  have hlast : (latest? decisions name).isSome = true := by
    refine List.find?_isSome.2 ?_
    simpa only [List.mem_reverse] using h
  obtain ⟨first, hfirst⟩ := Option.isSome_iff_exists.1 hfirst
  obtain ⟨last, hlast⟩ := Option.isSome_iff_exists.1 hlast
  exact ⟨first, last, hfirst, hlast⟩

/-- Where a name is decided once, its latest decision is the first. -/
theorem latest?_of_single (h : (decisions.map Decision.name).countP (fun k => k.same name) = 1) :
    latest? decisions name = decisions.find? fun d => d.name.same name := by
  rw [List.countP_map, List.countP_eq_length_filter] at h
  obtain ⟨d, hd⟩ := List.length_eq_one_iff.1 h
  have hsingle : (decisions.filter fun d => d.name.same name) = [d] := hd
  rw [latest?, ← List.head?_filter, List.filter_reverse, hsingle, ← List.head?_filter, hsingle]
  rfl

end Decision

/-! ## Names of gates that are read -/

theorem Value.same_null {v : Value} : v.same .null = true ↔ v = .null := by
  cases v <;> simp [same, sameAsNumber, number?, text?]

namespace Blueprint

theorem keyName_ne_null (key : Value) : keyName key ≠ .null := by
  unfold keyName
  split
  · rintro rfl
    next h => cases h
  · exact nofun

theorem orElse_ne_null {v w : Value} {s : String} (h : v.orElse (.str s) = .ok w) : w ≠ .null := by
  rintro rfl
  obtain ⟨truth, htruth, h⟩ := bind_eq_ok.1 h
  cases truth with
  | true =>
    cases h
    cases htruth
  | false => cases h

theorem listed_ne_null {definitions : List Value} {index : Nat} {items : List (Value × Value)}
    (h : listed index definitions = .ok items) : ∀ item ∈ items, item.1 ≠ .null := by
  induction definitions generalizing index items with
  | nil =>
    cases h
    exact List.forall_mem_nil _
  | cons definition rest ih =>
    rw [listed] at h
    obtain ⟨entries, -, h⟩ := bind_eq_ok.1 h
    obtain ⟨name, hname, h⟩ := bind_eq_ok.1 h
    obtain ⟨others, hothers, h⟩ := bind_eq_ok.1 h
    cases h
    exact List.forall_mem_cons.2 ⟨orElse_ne_null hname, ih hothers⟩

/-- Every gate that is read has a name. -/
theorem gateItems_ne_null {gates : Value} {items : List (Value × Value)} (h : gateItems gates = .ok items) :
    ∀ item ∈ items, item.1 ≠ .null := by
  unfold gateItems at h
  split at h
  · cases h
    intro item hitem
    obtain ⟨e, -, rfl⟩ := List.mem_map.1 hitem
    exact keyName_ne_null e.1
  · obtain ⟨definitions, -, h⟩ := bind_eq_ok.1 h
    exact listed_ne_null h

theorem called_second : "gate_" ++ Text.decimal 1 = "gate_1" := by decide +kernel

variable {entries : Entries} {b : Blueprint}

theorem gateNames_ne_null (h : (ofMapping (.map entries)).result = .ok b) : ∀ name ∈ b.gateNames, name ≠ .null := by
  obtain ⟨_, _, items, _, -, -, hitems, hgates, -⟩ := ofMapping_ok h
  intro name hname
  have hnames : items.map Prod.fst = b.gateNames := Gate.names_of_items (Gate.ofDefinitions_ok hgates)
  rw [← hnames] at hname
  obtain ⟨item, hitem, rfl⟩ := List.mem_map.1 hname
  exact gateItems_ne_null hitems item hitem

/-- No two gates of a mapping under texts bear one name. -/
theorem gateNames_distinct {table : Entries} (h : (ofMapping (.map entries)).result = .ok b)
    (htable : entries.field "gates" = .map table) (hnamed : Table.Named table) :
    b.gateNames.Pairwise fun k k' => k.same k' = false := by
  obtain ⟨_, _, items, _, hdata, helse, hitems, hgates, -⟩ := ofMapping_ok h
  cases hdata
  rw [htable, Setting.orElse_map] at helse
  cases helse
  obtain rfl : table = items := Except.ok.inj ((gateItems_of_named hnamed).symm.trans hitems)
  have hnames : table.map Prod.fst = b.gateNames := Gate.names_of_items (Gate.ofDefinitions_ok hgates)
  rw [← hnames]
  exact List.pairwise_map.2 hnamed.distinct

/-! ## Reports -/

/-- The result is the state of the latest decision under the output, if there is one. -/
theorem result_latest {env : Setting} {context : Value} {r : Report} (hreport : (env.evaluate b context).result = .ok r)
    (hatom : b.output.isAtom = true) (houtput : b.output ≠ .null) {last : Decision}
    (hlast : Decision.latest? r.decisions b.output = some last) : r.result = last.state := by
  obtain ⟨scope, scope', decisions, s, hscope, hdecide, hselect, rfl⟩ := evaluate_ok.1 hreport
  obtain ⟨_, -, -, htracks⟩ := decideAll_replays (tracks_inputs hscope) hdecide
  have hlatest : Decision.latest? decisions b.output = some last := hlast
  have hresult : s = putOut env b context decisions := select_ok htracks hatom hselect
  rw [putOut_key houtput, standing?, hlatest] at hresult
  exact hresult

end Blueprint

/-! ## Served reports -/

namespace Engine

variable {τ ω : Type} [LE τ] [DecidableLE τ] [LT τ] [DecidableLT τ] [Add τ] {e : Engine τ ω} {present : Present τ}
  {context : Value} {memoize : Option Bool} {b : Blueprint} {served : Served}

/-- A report that is served was made of the blueprint, now or before. -/
theorem report_of_served {source : Value} (hread : (Blueprint.ofValue source).result = .ok b)
    (hkept : memoize.getD e.memoizes = true → e.KeepsOwn b context)
    (hserved : (e.evaluate present source context memoize).2.result = .ok served) :
    ∃ other, (e.setting.evaluate b other).result = .ok served.report := by
  let t : Turn τ ω := ⟨e, ⟨present, source, context, memoize⟩⟩
  have hgoes : Goes t (.ok served) := hserved ▸ t.goes
  cases hgoes with
  | finds _ key hkey hget _ =>
    obtain ⟨entry, hentry, rfl⟩ := Cache.mem_of_get (congrArg Prod.fst hget)
    rw [Turn.key?_of_read hread] at hkey
    obtain ⟨hmemo, hown⟩ := freshKey_some hkey
    exact hkept hmemo _ hentry hown
  | tells notice cache _ _ htells =>
    obtain rfl : b = notice.blueprint := Except.ok.inj (hread.symm.trans htells.read)
    exact ⟨notice.context, by rw [htells.made]; exact htells.report⟩

/-- The output is decided, and the result is the state of its latest decision. The decision
    that is found is the first one: it is the same if a single gate bears the name. -/
theorem result_decided {entries : Entries} (hread : (Blueprint.ofMapping (.map entries)).result = .ok b)
    (hkept : memoize.getD e.memoizes = true → e.KeepsOwn b context)
    (hserved : (e.evaluate present (.map entries) context memoize).2.result = .ok served)
    (hatom : b.output.isAtom = true) (hgate : b.output.isAmong b.gateNames = true) :
    ∃ first last, served.report.decision? b.output = some first ∧
      Decision.latest? served.report.decisions b.output = some last ∧ served.report.result = last.state ∧
      (b.gateNames.countP (fun name => name.same b.output) = 1 → first = last) ∧
      ∀ table, entries.field "gates" = .map table → Table.Named table → first = last := by
  have hvalue : (Blueprint.ofValue (.map entries)).result = .ok b := hread
  obtain ⟨other, hreport⟩ := report_of_served hvalue hkept hserved
  have hnames : served.report.decisions.map Decision.name = b.gateNames :=
    (Blueprint.replays_of_report hreport).names
  obtain ⟨name, hname, hsame⟩ := List.any_eq_true.1 hgate
  have hdecided : ∃ d ∈ served.report.decisions, d.name.same b.output = true := by
    rw [← hnames] at hname
    obtain ⟨d, hd, rfl⟩ := List.mem_map.1 hname
    exact ⟨d, hd, hsame⟩
  obtain ⟨first, last, hfirst, hlast⟩ := Decision.exists_first_latest hdecided
  have houtput : b.output ≠ .null := by
    intro hnull
    rw [hnull, Value.same_null] at hsame
    exact Blueprint.gateNames_ne_null hread name hname hsame
  refine ⟨first, last, hfirst, hlast, Blueprint.result_latest hreport hatom houtput hlast, ?_, ?_⟩
  · intro hsingle
    rw [Decision.latest?_of_single (hnames ▸ hsingle), hfirst] at hlast
    exact Option.some.inj hlast
  · intro table htable hnamed
    have hdistinct := Blueprint.gateNames_distinct hread htable hnamed
    rw [Blueprint.latest?_of_distinct (hnames ▸ hdistinct) hatom, hfirst] at hlast
    exact Option.some.inj hlast

/-- The second gate has no name and is called by its position; the output is the first. -/
theorem result_decided_unnamed :
    let gates : List Value := [
      .map [(.str "name", .str "g"), (.str "operands", .list [.bool true, .bool false])],
      .map [(.str "operator", .str "not"), (.str "operands", .list [.str "g"])]]
    let source : Value := .map [(.str "gates", .list gates), (.str "output", .str "g")]
    let b (name : String) : Blueprint := {
      inputs := []
      gates := [
        ⟨.str "g", .and, [.literal .yes, .literal .no], [], .null, .null, none⟩,
        ⟨.str name, .not, [.reference "g" false], [], .null, .null, none⟩]
      output := .str "g", name := .null, source := some source }
    let decisions : List Decision := [
      ⟨.str "g", .no, "AND", [⟨"true", .yes⟩, ⟨"false", .no⟩], .null⟩,
      ⟨.str "gate_1", .yes, "NOT", [⟨"g", .no⟩], .null⟩]
    let report : Report :=
      ⟨.no, decisions, "-+", [(.str "total_gates", .int 2), (.str "blueprint", .null)]⟩
    let e : Engine Nat Unit := .fresh ⟨.standard, .none⟩ true 60 ()
    (Blueprint.ofMapping source).result = .ok (b "gate_1") ∧ e.KeepsOwn (b "gate_1") (.map []) ∧
      (e.evaluate ⟨0, 0⟩ source (.map []) none).2.result = .ok ⟨0, report⟩ ∧
      ∃ d, report.decision? (.str "g") = some d ∧ report.result = d.state := by
  intro gates source b decisions report e
  have hread : (Blueprint.ofMapping source).result = .ok (b ("gate_" ++ Text.decimal 1)) := rfl
  rw [Blueprint.called_second] at hread
  have hkept : e.KeepsOwn (b "gate_1") (.map []) := fun kept hnone => nomatch hnone
  have hserved : (e.evaluate ⟨0, 0⟩ source (.map []) none).2.result = .ok ⟨0, report⟩ := by
    have hvalue : (Blueprint.ofValue source).result = .ok (b "gate_1") := hread
    rw [evaluate_of_read hvalue]
    rfl
  obtain ⟨first, last, hfirst, -, hresult, hsingle, -⟩ :=
    result_decided hread (fun _ => hkept) hserved rfl (by decide)
  obtain rfl := hsingle (by decide)
  exact ⟨hread, hkept, hserved, first, hfirst, hresult⟩

/-- The name that the second gate is called by was given to the first: the decision that is
    found is the first gate's, the result is the second's. -/
theorem result_differs_from_decision :
    let gates : List Value := [
      .map [(.str "name", .str "gate_1"), (.str "operands", .list [.bool true])],
      .map [(.str "operands", .list [.bool false])]]
    let source : Value := .map [(.str "gates", .list gates), (.str "output", .str "gate_1")]
    let b (name : String) : Blueprint := {
      inputs := []
      gates := [
        ⟨.str "gate_1", .and, [.literal .yes], [], .null, .null, none⟩,
        ⟨.str name, .and, [.literal .no], [], .null, .null, none⟩]
      output := .str "gate_1", name := .null, source := some source }
    let found : Decision := ⟨.str "gate_1", .yes, "AND", [⟨"true", .yes⟩], .null⟩
    let report : Report := {
      result := .no
      decisions := [found, ⟨.str "gate_1", .no, "AND", [⟨"false", .no⟩], .null⟩]
      encoded := "+-"
      metadata := [(.str "total_gates", .int 2), (.str "blueprint", .null)] }
    let e : Engine Nat Unit := .fresh ⟨.standard, .none⟩ false 60 ()
    (Blueprint.ofMapping source).result = .ok (b "gate_1") ∧ .str "gate_1" ∈ (b "gate_1").gateNames ∧
      (e.evaluate ⟨0, 0⟩ source (.map []) none).2.result = .ok ⟨0, report⟩ ∧
      report.decision? (.str "gate_1") = some found ∧ found.state ≠ report.result := by
  intro gates source b found report e
  have hread : (Blueprint.ofMapping source).result = .ok (b ("gate_" ++ Text.decimal 1)) := rfl
  rw [Blueprint.called_second] at hread
  have hserved : (e.evaluate ⟨0, 0⟩ source (.map []) none).2.result = .ok ⟨0, report⟩ := by
    have hvalue : (Blueprint.ofValue source).result = .ok (b "gate_1") := hread
    rw [evaluate_of_read hvalue]
    rfl
  exact ⟨hread, List.mem_cons_self, hserved, rfl, by decide⟩

end Engine

end Verdict
