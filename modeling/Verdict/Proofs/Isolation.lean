/-
  Verdict.Proofs.Isolation — a context reaches the gates through the inputs only.

  The expression of a gate is evaluated over the context with the scope laid on top, under
  names that may have dots in them. An expression is closed over names when each of its
  words is a literal or one of them (`Logic.Closed`). A word that the scope knows is found
  there as a whole, before any of its parts is looked for in the context, so contexts make
  no difference to a closed expression (`express_isolated`). The scope knows the inputs and
  the gates before, gate after gate.
  - `Blueprint.Setting.contexts_do_not_leak`: where the expressions of the gates are closed
    over the inputs and the gates before, two contexts that give each input the same state
    give the blueprint the same outcome, whatever else they hold.
-/

import Verdict.Proofs.Scopes

namespace Verdict

open Expression (literal? IsWord resolveWord)

/-! ## Closed expressions -/

/-- Whether every word of an expression is a literal or one of the names. -/
def Logic.Closed (l : Logic) (names : List Value) (text : Value) : Prop :=
  ∀ r ∈ l.registry, ∀ s ∈ text.text?, ∀ t ∈ r.tokenize s, t.kind = .operand →
    (literal? t.text).isSome = true ∨ t.text ∈ names.filterMap Value.text?

/-- Whether the expression of each gate is closed over the names and the gates before. -/
def Logic.AllClosed (l : Logic) : (names : List Value) → List Gate → Prop
  | _, [] => True
  | names, g :: gates =>
    (g.operator = .expression → l.Closed names g.expression) ∧ l.AllClosed (names ++ [g.name]) gates

theorem Logic.closed_empty (l : Logic) (names : List Value) : l.Closed names (.str "") := by
  intro r _ s hs t ht
  cases hs
  have hnone : r.tokenize "" = [] := by
    rw [Expression.Registry.tokenize, show "".toList = [] by decide, Expression.lexemes]
    rfl
  rw [hnone] at ht
  cases ht

/-! ## Names that a scope knows -/

/-- A name that the scope knows is found there, whatever the context beneath holds. -/
theorem Scope.Knows.entryAt? {scope : Scope} {names : List Value} (h : scope.Knows names) {word : String}
    (hword : word ∈ names.filterMap Value.text?) :
    ∃ v, ∀ entries : Entries, (Value.map (Table.merge entries scope.toEntries)).entryAt? word = some v := by
  obtain ⟨e, he, hsame⟩ : ∃ e ∈ scope, e.1.same (.str word) = true := by
    have hfound := h word hword
    rwa [Table.find?, Option.isSome_map, List.find?_isSome] at hfound
  obtain ⟨v, hv⟩ : ∃ v, Table.find? scope.toEntries.reverse (.str word) = some v := by
    rw [← Option.isSome_iff_exists, Table.find?, Option.isSome_map, List.find?_isSome]
    exact ⟨(e.1, .state e.2), List.mem_reverse.2 (List.mem_map.2 ⟨e, he, rfl⟩), hsame⟩
  refine ⟨v, fun entries => ?_⟩
  show Table.find? (Table.merge entries scope.toEntries) (.str word) = some v
  rw [Table.find?_merge _ _ rfl, hv]
  rfl

theorem Expression.resolveWord_entry {context context' : Value} {word : String} (hword : IsWord word.toList)
    {v : Value} (h : context.entryAt? word = some v) (h' : context'.entryAt? word = some v) :
    resolveWord context word = resolveWord context' word := by
  simp only [resolveWord, fetch_path _ hword.not_inverted, String.ofList_toList,
    Blueprint.Setting.atPath, Value.resolve?, h, h']

/-! ## Gates -/

namespace Blueprint.Setting

variable {env : Setting} {scope : Scope} {names : List Value}

/-- A closed expression over what the scope knows does not see the context. -/
theorem express_isolated (hknows : scope.Knows names) {text : Value} (hclosed : env.logic.Closed names text)
    (entries entries' : Entries) :
    env.express (.map entries) scope text = env.express (.map entries') scope text := by
  unfold express
  refine Outcome.bind_congr_of_ok fun v hv => ?_
  have hv : v = text ∨ v = .str "" := by
    obtain ⟨truth, -, hv⟩ := bind_eq_ok.1 hv
    cases truth with
    | true => cases hv; exact .inl rfl
    | false => cases hv; exact .inr rfl
  have hclosed : env.logic.Closed names v := by
    rcases hv with rfl | rfl
    · exact hclosed
    · exact env.logic.closed_empty names
  refine expression_congr env.logic (orElse_map _) (orElse_map _) fun r hr s hs => ?_
  refine r.evaluate_agrees fun t ht hkind => ?_
  rcases hclosed r hr s hs t ht hkind with hliteral | hname
  · obtain ⟨state, hstate⟩ := Option.isSome_iff_exists.1 hliteral
    simp only [resolveWord, hstate]
  · obtain ⟨found, hfound⟩ := hknows.entryAt? hname
    exact Expression.resolveWord_entry (Expression.isWord_of_operand t ht hkind) (hfound _) (hfound _)

theorem decideGate_isolated (hknows : scope.Knows names) {g : Gate}
    (hclosed : g.operator = .expression → env.logic.Closed names g.expression) (entries entries' : Entries)
    (decisions : List Decision) :
    env.decideGate (.map entries) scope decisions g = env.decideGate (.map entries') scope decisions g := by
  unfold decideGate
  refine Outcome.bind_congr_of_ok fun evidence _ => ?_
  by_cases hexpression : g.operator = .expression
  · rw [if_pos hexpression, if_pos hexpression, express_isolated hknows (hclosed hexpression) entries entries']
  · rw [if_neg hexpression, if_neg hexpression]

/-- By induction on the gates: the scope knows the names of those that are decided. -/
theorem decideAll_isolated {gates : List Gate} (hknows : scope.Knows names)
    (hclosed : env.logic.AllClosed names gates) (entries entries' : Entries) (decisions : List Decision) :
    env.decideAll (.map entries) scope decisions gates = env.decideAll (.map entries') scope decisions gates := by
  induction gates generalizing scope names decisions with
  | nil => rfl
  | cons g gates ih =>
    obtain ⟨hg, hgates⟩ := hclosed
    unfold decideAll
    rw [decideGate_isolated hknows hg entries entries']
    refine Outcome.bind_congr_of_ok fun d hd => Outcome.bind_congr_of_ok fun next hnext => ?_
    obtain ⟨-, rfl⟩ := announce_ok.1 hnext
    obtain ⟨evidence, state, -, -, rfl⟩ := decideGate_ok.1 hd
    exact ih (hknows.set g.name state) hgates _

/-! ## Whole blueprints -/

theorem resolveInputs_congr {context context' : Value} {inputs : List (String × Source)}
    (h : ∀ p ∈ inputs, (env.resolveInput context p.2).result = (env.resolveInput context' p.2).result)
    (scope : Scope) :
    (env.resolveInputs context scope inputs).result = (env.resolveInputs context' scope inputs).result := by
  induction inputs generalizing scope with
  | nil => rfl
  | cons p inputs ih =>
    obtain ⟨hp, hinputs⟩ := List.forall_mem_cons.1 h
    simp only [resolveInputs, Outcome.result_bind, hp, ih hinputs]

/-- If the expressions of the gates use literals, inputs and gates before them only, then
    two contexts that give each input the same state, or fail on it alike, give the
    blueprint the same report, or fail it alike. -/
theorem contexts_do_not_leak {b : Blueprint}
    (hclosed : env.logic.AllClosed (b.inputs.map fun p => .str p.1) b.gates) {entries entries' : Entries}
    (hinputs : ∀ p ∈ b.inputs,
      (env.resolveInput (.map entries) p.2).result = (env.resolveInput (.map entries') p.2).result) :
    (env.evaluate b (.map entries)).result = (env.evaluate b (.map entries')).result := by
  unfold evaluate
  rw [Outcome.result_bind, Outcome.result_bind, resolveInputs_congr hinputs]
  cases hscope : (env.resolveInputs (.map entries') [] b.inputs).result with
  | error e => rfl
  | ok scope =>
    have hknows : scope.Knows (b.inputs.map fun p => .str p.1) := resolveInputs_knows (Scope.knows_nil []) hscope
    simp only [ok_bind, Outcome.result_bind, decideAll_isolated hknows hclosed entries entries']

/-- An input with a dot in its name, and a gate over another gate. The second context holds
    each of their names, and the parts of the dotted one, with other values. -/
theorem contexts_do_not_leak_dotted :
    let env : Setting := ⟨.standard, .none⟩
    let b : Blueprint := {
      inputs := [("u.ok", .context "ok"), ("h", .literal .no)]
      gates := [
        ⟨.str "g", .expression, [.reference "h" true], [], .str "u.ok", .null, none⟩,
        ⟨.str "k", .expression, [], [], .str "g AND NOT h", .null, none⟩]
      output := .str "k", name := .null, source := none }
    let context : Value := .map [(.str "ok", .bool true)]
    let context' : Value := .map [(.str "ok", .int 1), (.str "u.ok", .bool false),
      (.str "u", .map [(.str "ok", .bool false)]), (.str "g", .bool false), (.str "h", .bool true)]
    ∃ r, (env.evaluate b context).result = .ok r ∧ (env.evaluate b context').result = .ok r ∧
      r.result = .yes ∧ r.encoded = "++" := by
  intro env b context context'
  have hfirst : Expression.Registry.standard.tokenize "u.ok" = [⟨.operand, "u.ok", 0, 0⟩] := by
    have hlexemes : Expression.lexemes 0 "u.ok".toList = [⟨['u', '.', 'o', 'k'], 0⟩] := by
      rw [show "u.ok".toList = ['u', '.', 'o', 'k'] by decide]
      simp +decide [Expression.lexemes]
    rw [Expression.Registry.tokenize, hlexemes]
    decide
  have hsecond : Expression.Registry.standard.tokenize "g AND NOT h" =
      [⟨.operand, "g", 0, 0⟩, ⟨.operator, "AND", 2, 0⟩, ⟨.operator, "NOT", 6, 0⟩, ⟨.operand, "h", 10, 0⟩] := by
    have hlexemes : Expression.lexemes 0 "g AND NOT h".toList =
        [⟨['g'], 0⟩, ⟨['A', 'N', 'D'], 2⟩, ⟨['N', 'O', 'T'], 6⟩, ⟨['h'], 10⟩] := by
      rw [show "g AND NOT h".toList = ['g', ' ', 'A', 'N', 'D', ' ', 'N', 'O', 'T', ' ', 'h'] by decide]
      simp +decide [Expression.lexemes]
    rw [Expression.Registry.tokenize, hlexemes]
    decide
  have hclosed : env.logic.AllClosed (b.inputs.map fun p => .str p.1) b.gates := by
    refine ⟨fun _ => ?_, fun _ => ?_, trivial⟩
    · intro registry hregistry text htext
      cases hregistry
      cases htext
      rw [hfirst]
      decide
    · intro registry hregistry text htext
      cases hregistry
      cases htext
      rw [hsecond]
      decide
  have hinputs : ∀ p ∈ b.inputs,
      (env.resolveInput context p.2).result = (env.resolveInput context' p.2).result := by
    intro p hp
    have hcases : p = ("u.ok", .context "ok") ∨ p = ("h", .literal .no) := by simpa [b] using hp
    rcases hcases with rfl | rfl <;> rfl
  obtain ⟨r, h, hr⟩ : ∃ r, (env.evaluate b context).result = .ok r ∧ r.result = .yes ∧ r.encoded = "++" := by
    let scope : Scope := [(.str "u.ok", .yes), (.str "h", .no)]
    let g : Decision := ⟨.str "g", .yes, "EXPRESSION", [⟨"!h", .yes⟩], .null⟩
    let k : Decision := ⟨.str "k", .yes, "EXPRESSION", [], .null⟩
    have hg : (env.express context scope (.str "u.ok")).result = .ok .yes := by
      show (Expression.Registry.standard.evaluate "u.ok" _).result = _
      rw [Expression.Registry.evaluate, hfirst]
      rfl
    have hk : (env.express context (Table.set scope g.name g.state) (.str "g AND NOT h")).result = .ok .yes := by
      show (Expression.Registry.standard.evaluate "g AND NOT h" _).result = _
      rw [Expression.Registry.evaluate, hsecond]
      rfl
    refine ⟨_, evaluate_ok.2 ⟨scope, Table.set (Table.set scope g.name g.state) k.name k.state, [g, k], .yes, rfl,
      ?_, rfl, rfl⟩, rfl, by decide⟩
    refine decideAll_cons_ok.2 ⟨g, decideGate_ok.2 ⟨_, .yes, rfl, hg, rfl⟩, rfl, ?_⟩
    exact decideAll_cons_ok.2 ⟨k, decideGate_ok.2 ⟨_, .yes, rfl, hk, rfl⟩, rfl, rfl⟩
  have hsame := contexts_do_not_leak hclosed hinputs
  exact ⟨r, h, hsame.symm.trans h, hr⟩

end Blueprint.Setting

end Verdict
