/-
  Verdict.Proofs.Monotonicity — what more knowledge, and better evidence, do to a report.

  Two orders of states are kept by gates. In the order of information the undecided state
  lies below both others, and the connectives keep it, inversion included. In the order
  `no` < `unknown` < `yes`, which is that of the states' worths, `and` is the minimum and
  `or` the maximum of two states, and a vote whose weights are not negative goes with its
  operands; inversion turns this order around.
  - `Blueprint.Setting.verdicts_stand`: what a blueprint of connectives has decided is not
    taken back when more becomes known.
  - `Blueprint.Setting.verdicts_rise`: no decision of a blueprint without inversion falls
    when its inputs rise.
-/

import Verdict.Proofs.Comparison
import Verdict.Proofs.Information

namespace Verdict

/-! ## Connectives and the order of information -/

/-- Whether an operand is a name, possibly inverted, or a state. -/
def Operand.isGiven : Operand → Bool
  | .reference _ _ | .literal _ => true
  | .expression _ | .computed _ _ => false

theorem Operand.given_keeps {o : Operand} (h : o.isGiven = true) : o.Keeps State.Below := by
  cases o with
  | reference name negated => exact fun _ _ _ hst => hst.invert
  | literal s => exact .refl s
  | expression text => cases h
  | computed f label => cases h

theorem Operator.connective_keeps {o : Operator} (ho : o ∈ [Operator.and, .or, .not]) (weights : List Int) :
    o.Keeps State.Below weights := by
  have hcases : o = .and ∨ o = .or ∨ o = .not := by simpa using ho
  intro states states' h
  rcases hcases with rfl | rfl | rfl
  · exact Vote.all_below h
  · exact Vote.any_below h
  · cases h with
    | nil => exact .refl _
    | cons hfirst _ => exact hfirst.invert

namespace Blueprint.Setting

/-- Two reports on a blueprint of connectives over names and states: if the second
    evaluation gives each input the state that the first has decided for it, then whatever
    the first report decides, the second decides alike. -/
theorem verdicts_stand {env env' : Setting} {b : Blueprint} {context context' : Value} {r r' : Report}
    (hgates : ∀ g ∈ b.gates, g.operator ∈ [Operator.and, .or, .not] ∧ ∀ o ∈ g.operands, o.isGiven = true)
    (hinputs : ∀ p ∈ b.inputs, ∀ s, s ≠ .unknown → (env.resolveInput context p.2).result = .ok s →
      (env'.resolveInput context' p.2).result = .ok s)
    (h : (env.evaluate b context).result = .ok r) (h' : (env'.evaluate b context').result = .ok r') :
    r.decisions.map Decision.name = b.gateNames ∧
      List.Forall₂ (fun d d' => d.name = d'.name ∧ (d.state ≠ .unknown → d'.state = d.state))
        r.decisions r'.decisions ∧
      (r.result ≠ .unknown → r'.result = r.result) := by
  have hkeeps : ∀ g ∈ b.gates, g.Keeps State.Below := by
    intro g hg
    obtain ⟨hoperator, hoperands⟩ := hgates g hg
    refine ⟨fun o ho => Operand.given_keeps (hoperands o ho), ?_, Operator.connective_keeps hoperator _⟩
    intro hx
    rw [hx] at hoperator
    exact absurd hoperator (by decide)
  have hbelow : ∀ p ∈ b.inputs, ∀ s s', (env.resolveInput context p.2).result = .ok s →
      (env'.resolveInput context' p.2).result = .ok s' → s.Below s' := by
    intro p hp s s' hs hs'
    by_cases hunknown : s = .unknown
    · exact .inl hunknown
    · have hsame := hinputs p hp s hunknown hs
      exact .inr (Except.ok.inj (hsame.symm.trans hs'))
  obtain ⟨hdecisions, hresult⟩ := evaluate_matches (.refl _) hkeeps hbelow h h'
  exact ⟨(replays_of_report h).names, hdecisions.imp fun d d' hd => ⟨hd.name, hd.state.eq_of_decided⟩,
    hresult.eq_of_decided⟩

/-- The gate `a` hides the input `a`, and the output is found nowhere. The second context
    decides `b` as well, and the last disjunction stands. -/
theorem verdicts_stand_hidden_input :
    let env : Setting := ⟨.standard, .none⟩
    let b : Blueprint := {
      inputs := [("a", .context "a"), ("b", .context "facts.b")]
      gates := [
        ⟨.str "a", .not, [.reference "a" false], [], .null, .null, none⟩,
        ⟨.str "none", .and, [], [], .null, .null, none⟩,
        ⟨.str "g", .or, [.reference "a" true, .reference "b" false, .literal .unknown], [], .null, .null, none⟩]
      output := .str "elsewhere", name := .null, source := none }
    let context : Value := .map [(.str "a", .bool true)]
    let context' : Value := .map [(.str "facts", .map [(.str "b", .bool false)]), (.str "a", .int 1)]
    ∃ r r', (env.evaluate b context).result = .ok r ∧ (env.evaluate b context').result = .ok r' ∧
      r.result = .yes ∧ r'.result = .yes := by
  intro env b context context'
  have hgates : ∀ g ∈ b.gates, g.operator ∈ [Operator.and, .or, .not] ∧ ∀ o ∈ g.operands, o.isGiven = true := by
    decide
  have hinputs : ∀ p ∈ b.inputs, ∀ s, s ≠ .unknown → (env.resolveInput context p.2).result = .ok s →
      (env.resolveInput context' p.2).result = .ok s := by
    intro p hp s hs hresolves
    have hcases : p = ("a", .context "a") ∨ p = ("b", .context "facts.b") := by simpa [b] using hp
    rcases hcases with rfl | rfl
    · exact hresolves
    · cases hresolves
      exact absurd rfl hs
  obtain ⟨r, h, hr⟩ : ∃ r, (env.evaluate b context).result = .ok r ∧ r.result = .yes := ⟨_, rfl, rfl⟩
  obtain ⟨r', h'⟩ : ∃ r', (env.evaluate b context').result = .ok r' := ⟨_, rfl⟩
  have hstands : r'.result = r.result := (verdicts_stand hgates hinputs h h').2.2 (by rw [hr]; decide)
  exact ⟨r, r', h, h', hr, hstands.trans hr⟩

end Blueprint.Setting

/-! ## Votes and the order of worths -/

namespace State

theorem toInt_and (s t : State) : (s.and t).toInt = min s.toInt t.toInt := by
  cases s <;> cases t <;> rfl

theorem toInt_or (s t : State) : (s.or t).toInt = max s.toInt t.toInt := by
  cases s <;> cases t <;> rfl

/-- The sign of a greater number is not smaller. -/
theorem toInt_sign_mono {m n : Int} (h : m ≤ n) :
    (ofTrit (.ofInt m)).toInt ≤ (ofTrit (.ofInt n)).toInt := by
  simp only [toInt, toTrit_ofTrit, Trit.ofInt]
  split_ifs <;> simp only [Trit.toInt] <;> omega

end State

namespace Vote

variable {states states' : List State}

theorem all_mono (h : List.Forall₂ (fun s t => s.toInt ≤ t.toInt) states states') :
    (all states).toInt ≤ (all states').toInt := by
  rw [all_eq_foldr, all_eq_foldr]
  induction h with
  | nil => exact Int.le_refl _
  | cons hs _ ih =>
    rw [List.foldr_cons, List.foldr_cons, State.toInt_and, State.toInt_and]
    omega

theorem any_mono (h : List.Forall₂ (fun s t => s.toInt ≤ t.toInt) states states') :
    (any states).toInt ≤ (any states').toInt := by
  rw [any_eq_foldr, any_eq_foldr]
  induction h with
  | nil => exact Int.le_refl _
  | cons hs _ ih =>
    rw [List.foldr_cons, List.foldr_cons, State.toInt_or, State.toInt_or]
    omega

/-- Where the weights end, the states go on counting once. -/
theorem weightedSum_mono {weights : List Int} (hweights : ∀ w ∈ weights, 0 ≤ w)
    (h : List.Forall₂ (fun s t => s.toInt ≤ t.toInt) states states') :
    weightedSum weights states ≤ weightedSum weights states' := by
  induction h generalizing weights with
  | nil => cases weights <;> exact Int.le_refl _
  | @cons s t states states' hst _ ih =>
    cases weights with
    | nil =>
      have hrest := ih (List.forall_mem_nil _)
      simp only [weightedSum]
      omega
    | cons w weights =>
      obtain ⟨hw, hweights⟩ := List.forall_mem_cons.1 hweights
      have hfirst : s.toInt * w ≤ t.toInt * w := Int.mul_le_mul_of_nonneg_right hst hw
      have hrest := ih hweights
      simp only [weightedSum]
      omega

theorem weighted_mono {weights : List Int} (hweights : ∀ w ∈ weights, 0 ≤ w)
    (h : List.Forall₂ (fun s t => s.toInt ≤ t.toInt) states states') :
    (weighted weights states).toInt ≤ (weighted weights states').toInt :=
  State.toInt_sign_mono (weightedSum_mono hweights h)

theorem consensus_mono (h : List.Forall₂ (fun s t => s.toInt ≤ t.toInt) states states') :
    (consensus states).toInt ≤ (consensus states').toInt := by
  unfold consensus
  rw [h.length_eq]
  apply weighted_mono _ h
  intro w hw
  rw [List.eq_of_mem_replicate hw]
  decide

end Vote

/-- Whether an operand is a name that is not inverted, or a state. -/
def Operand.isUpright : Operand → Bool
  | .reference _ negated => !negated
  | .literal _ => true
  | .expression _ | .computed _ _ => false

theorem Operand.upright_keeps {o : Operand} (h : o.isUpright = true) :
    o.Keeps fun s t => s.toInt ≤ t.toInt := by
  cases o with
  | reference name negated =>
    cases negated with
    | false => exact fun hnegated => (nomatch hnegated)
    | true => cases h
  | literal s => exact Int.le_refl _
  | expression text => cases h
  | computed f label => cases h

theorem Operator.vote_keeps {o : Operator} (ho : o ∈ [Operator.and, .or, .consensus, .weighted]) {weights : List Int}
    (hweights : o = .weighted → ∀ w ∈ weights, 0 ≤ w) : o.Keeps (fun s t => s.toInt ≤ t.toInt) weights := by
  have hcases : o = .and ∨ o = .or ∨ o = .consensus ∨ o = .weighted := by simpa using ho
  intro states states' h
  rcases hcases with rfl | rfl | rfl | rfl
  · exact Vote.all_mono h
  · exact Vote.any_mono h
  · exact Vote.consensus_mono h
  · exact Vote.weighted_mono (hweights rfl) h

namespace Blueprint.Setting

/-- Two reports on a blueprint that inverts nothing and whose weights are not negative: if
    no input is lower in the second evaluation than in the first, then no decision is, and
    the result is not. -/
theorem verdicts_rise {env env' : Setting} {b : Blueprint} {context context' : Value} {r r' : Report}
    (hgates : ∀ g ∈ b.gates, g.operator ∈ [Operator.and, .or, .consensus, .weighted] ∧
      (g.operator = .weighted → ∀ w ∈ g.weights, 0 ≤ w) ∧ ∀ o ∈ g.operands, o.isUpright = true)
    (hinputs : ∀ p ∈ b.inputs, ∀ s s', (env.resolveInput context p.2).result = .ok s →
      (env'.resolveInput context' p.2).result = .ok s' → s.toInt ≤ s'.toInt)
    (h : (env.evaluate b context).result = .ok r) (h' : (env'.evaluate b context').result = .ok r') :
    r.decisions.map Decision.name = b.gateNames ∧
      List.Forall₂ (fun d d' => d.name = d'.name ∧ d.state.toInt ≤ d'.state.toInt) r.decisions r'.decisions ∧
      r.result.toInt ≤ r'.result.toInt := by
  have hkeeps : ∀ g ∈ b.gates, g.Keeps fun s t => s.toInt ≤ t.toInt := by
    intro g hg
    obtain ⟨hoperator, hweights, hoperands⟩ := hgates g hg
    refine ⟨fun o ho => Operand.upright_keeps (hoperands o ho), ?_, Operator.vote_keeps hoperator hweights⟩
    intro hx
    rw [hx] at hoperator
    exact absurd hoperator (by decide)
  obtain ⟨hdecisions, hresult⟩ := evaluate_matches (Int.le_refl _) hkeeps hinputs h h'
  exact ⟨(replays_of_report h).names, hdecisions.imp fun d d' hd => ⟨hd.name, hd.state⟩, hresult⟩

/-- The weighted gate has fewer weights than operands, and the gates after it feed on it. -/
theorem verdicts_rise_short_weights :
    let env : Setting := ⟨.standard, .none⟩
    let b : Blueprint := {
      inputs := [("a", .context "a"), ("b", .context "b")]
      gates := [
        ⟨.str "v", .weighted, [.reference "a" false, .reference "b" false, .literal .yes], [2], .null, .null, none⟩,
        ⟨.str "w", .consensus, [.reference "v" false, .reference "b" false], [], .null, .null, none⟩,
        ⟨.str "g", .and, [.reference "w" false, .reference "a" false], [], .null, .null, none⟩]
      output := .str "g", name := .null, source := none }
    let context : Value := .map [(.str "a", .bool false)]
    let context' : Value := .map [(.str "b", .bool true)]
    ∃ r r', (env.evaluate b context).result = .ok r ∧ (env.evaluate b context').result = .ok r' ∧
      r.decisions.map Decision.state = [.no, .no, .no] ∧
      r'.decisions.map Decision.state = [.yes, .yes, .unknown] ∧ r.result.toInt ≤ r'.result.toInt := by
  intro env b context context'
  have hgates : ∀ g ∈ b.gates, g.operator ∈ [Operator.and, .or, .consensus, .weighted] ∧
      (g.operator = .weighted → ∀ w ∈ g.weights, 0 ≤ w) ∧ ∀ o ∈ g.operands, o.isUpright = true := by
    decide
  have hinputs : ∀ p ∈ b.inputs, ∀ s s', (env.resolveInput context p.2).result = .ok s →
      (env.resolveInput context' p.2).result = .ok s' → s.toInt ≤ s'.toInt := by
    intro p hp s s' hs hs'
    have hcases : p = ("a", .context "a") ∨ p = ("b", .context "b") := by simpa [b] using hp
    rcases hcases with rfl | rfl
    · cases hs
      cases hs'
      decide
    · cases hs
      cases hs'
      decide
  obtain ⟨r, h, hr⟩ : ∃ r, (env.evaluate b context).result = .ok r ∧
      r.decisions.map Decision.state = [.no, .no, .no] := ⟨_, rfl, rfl⟩
  obtain ⟨r', h', hr'⟩ : ∃ r', (env.evaluate b context').result = .ok r' ∧
      r'.decisions.map Decision.state = [.yes, .yes, .unknown] := ⟨_, rfl, rfl⟩
  exact ⟨r, r', h, h', hr, hr', (verdicts_rise hgates hinputs h h').2.2⟩

end Blueprint.Setting

end Verdict
