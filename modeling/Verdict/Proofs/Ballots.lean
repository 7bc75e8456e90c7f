/-
  Verdict.Proofs.Ballots — votes without weights are one function.

  The count of the decided states against each other, the sum of all worths and a weighted
  vote whose weights are missing or ones all come to the sign of the score, which the order
  of the states has no part in (`elects_sign`). A call of `MAJ` or `CONSENSUS` over literals
  is spelled in many ways and gives that sign too (`evaluate_call`). Main statement: what
  wins a plurality outright wins every one of these votes (`unweighted_votes_agree`).
-/

import Verdict.Logic
import Verdict.Shortcut
import Verdict.Proofs.Fragments
import Verdict.Proofs.Leaves

namespace Verdict

/-! ## Weights that make no difference -/

/-- Whether a value holds no weights, or nothing but ones. -/
inductive Value.WeighsAlike : Value → Prop
  | nothing : WeighsAlike .null
  | ones {weights : List Value} : (∀ w ∈ weights, w.toWeight = .ok 1) → WeighsAlike (.list weights)

theorem Value.toWeights_of_ones {weights : List Value} (h : ∀ w ∈ weights, w.toWeight = .ok 1) :
    toWeights weights = .ok (List.replicate weights.length 1) := by
  induction weights with
  | nil => rfl
  | cons w weights ih =>
    obtain ⟨hw, hrest⟩ := List.forall_mem_cons.1 h
    rw [toWeights, hw, ih hrest]
    rfl

theorem Value.WeighsAlike.weights {v : Value} (h : v.WeighsAlike) :
    ∃ ws, v.weights = .ok ws ∧ ∀ w ∈ ws, w = 1 := by
  cases h with
  | nothing => exact ⟨[], rfl, List.forall_mem_nil _⟩
  | @ones weights hones =>
    refine ⟨List.replicate weights.length 1, ?_, fun _ => List.eq_of_mem_replicate⟩
    rw [← Value.toWeights_of_ones hones]
    cases weights <;> rfl

/-! ## Calls over literals -/

namespace Expression

/-- A call of the operator over the words of states, with a comma between each two. -/
def Builtin.callText (b : Builtin) (states : List State) : String :=
  b.key ++ "(" ++ ", ".intercalate (states.map State.word) ++ ")"

/-- Whether the text is a call of the operator over literals for the states, in whatever way
    they are spelled. -/
def Builtin.IsCall (b : Builtin) (states : List State) (text : String) : Prop :=
  (Tree.call (.builtin b) (states.map Tree.literal)).SpelledBy .standard text

theorem Tree.values_literals (r : Registry) (context : Value) (states : List State) :
    Tree.values r context (states.map Tree.literal) = states := by
  induction states with
  | nil => rfl
  | cons s states ih =>
    rw [List.map_cons, Tree.values, ih]
    rfl

theorem Tree.allPaths_literals (states : List State) : Tree.allPaths (states.map Tree.literal) = [] := by
  induction states with
  | nil => rfl
  | cons s states ih =>
    rw [List.map_cons, Tree.allPaths, ih]
    rfl

/-- No context has a part in a call over literals. -/
theorem evaluate_call {b : Builtin} (hb : b ∈ [.majority, .consensus]) {states : List State} {text : String}
    (h : b.IsCall states text) (context : Value) :
    (Registry.standard.evaluate text context).result = .ok (Vote.consensus states) := by
  obtain ⟨level, symbols, pieces, hwritten, hsymbols, hspaced⟩ := h
  have hpaths : ∀ path ∈ (Tree.call (.builtin b) (states.map Tree.literal)).paths, Offers context path := by
    rw [Tree.paths, Tree.allPaths_literals]
    exact List.forall_mem_nil _
  let value := (Tree.call (.builtin b) (states.map Tree.literal)).value .standard context
  have hconverted : Converted .standard text context level [value] (Registry.standard.tokenize text) :=
    hwritten.converted Registry.standard_intact standard_reliable hpaths
      (tokenize_read Registry.standard_intact hwritten hsymbols hspaced)
  have hvalue : value = b.value states := by
    show b.value (Tree.values .standard context (states.map Tree.literal)) = _
    rw [Tree.values_literals]
  rw [evaluate_converted hconverted, hvalue, ← Builtin.apply_eq_value (.inr hb)]
  rcases List.mem_pair.1 hb with rfl | rfl <;> rfl

theorem isWord_word (s : State) : IsWord s.word.toList := by cases s <;> decide

theorem literal_spelledBy_word (s : State) : (Symbol.literal s).SpelledBy s.word.toList := by cases s <;> decide

/-- By induction on the states: their words with commas between them are written arguments,
    in front of whatever does not go on with the last word. -/
theorem arguments_spelled (s : State) (states : List State) :
    ∃ symbols pieces, AllWritten .standard ((s :: states).map Tree.literal) symbols ∧
      List.Forall₂ Symbol.SpelledBy symbols pieces ∧
      ∀ others rest, rest.head?.any isWordChar = false → Spaced others rest →
        Spaced (pieces ++ others) ([',', ' '].intercalate ((s :: states).map fun s => s.word.toList) ++ rest) := by
  induction states generalizing s with
  | nil =>
    refine ⟨_, [s.word.toList], .one (.literal 0 s), .cons (literal_spelledBy_word s) .nil, ?_⟩
    intro others rest hrest hspaced
    rw [List.map_singleton, List.intercalate_singleton]
    exact .word (isWord_word s) hrest hspaced
  | cons t states ih =>
    obtain ⟨symbols, pieces, hwritten, hspelled, hspaced⟩ := ih t
    refine ⟨_, s.word.toList :: [','] :: pieces, .more (.literal 0 s) hwritten,
      .cons (literal_spelledBy_word s) (.cons rfl hspelled), ?_⟩
    intro others rest hrest hothers
    rw [List.map_cons, List.map_cons, List.intercalate_cons_cons, List.append_assoc, List.append_assoc]
    exact .word (isWord_word s) rfl (.mark rfl (.blank isBlank_space (hspaced others rest hrest hothers)))

theorem isCall_callText {b : Builtin} (hb : b ∈ [.majority, .consensus]) (states : List State) :
    b.IsCall states (b.callText states) := by
  have hkeys : ∀ b ∈ [Builtin.majority, .consensus],
      (Symbol.callee (.builtin b)).SpelledBy b.key.toList ∧ IsWord b.key.toList := by decide
  obtain ⟨hkey, hword⟩ := hkeys b hb
  have htakes : ∀ count, Takes .standard (.builtin b) count := fun _ => .inr hb
  have htext : (b.callText states).toList =
      b.key.toList ++ '(' :: ([',', ' '].intercalate (states.map fun s => s.word.toList) ++ [')']) := by
    simp only [Builtin.callText, String.toList_append, String.toList_intercalate, List.map_map, List.append_assoc]
    rfl
  have hend : Spaced [[')']] [')'] := .mark rfl .nil
  rw [Builtin.IsCall, Tree.SpelledBy, htext]
  cases states with
  | nil =>
    refine ⟨0, _, [b.key.toList, ['('], [')']], .bare 0 (htakes 0),
      .cons hkey (.cons rfl (.cons rfl .nil)), ?_⟩
    exact .word hword rfl (.mark rfl hend)
  | cons s states =>
    obtain ⟨symbols, pieces, hwritten, hspelled, hspaced⟩ := arguments_spelled s states
    refine ⟨0, _, b.key.toList :: ['('] :: (pieces ++ [[')']]), .call 0 (htakes _) hwritten,
      .cons hkey (.cons rfl (List.rel_append hspelled (.cons rfl .nil))), ?_⟩
    exact .word hword rfl (.mark rfl (hspaced [[')']] [')'] rfl hend))

end Expression

/-! ## One vote -/

namespace Vote

/-- Whether some states elect one state, in whatever way they vote without weights. -/
structure Elects (states : List State) (s : State) : Prop where
  lead : lead states = s
  consensus : consensus states = s
  majority : majority states = s
  score : .ofTrit (.ofInt (score states)) = s
  weighted : ∀ weights : Value, weights.WeighsAlike → Algebra.weighted (.vector states) weights = .ok s
  call : ∀ b ∈ [Expression.Builtin.majority, .consensus], ∀ text, b.IsCall states text → ∀ context,
    (Expression.Registry.standard.evaluate text context).result = .ok s

theorem elects_sign (states : List State) : Elects states (.ofTrit (.ofInt (Vote.score states))) where
  lead := lead_eq_score states
  consensus := consensus_eq_sign states
  majority := majority_eq_sign states
  score := rfl
  weighted := by
    intro weights halike
    obtain ⟨ws, hweights, hones⟩ := halike.weights
    rw [Algebra.weighted, Value.toVector_vector, hweights]
    exact congrArg Except.ok (weighted_of_ones hones states)
  call := by
    intro b hb text hcall context
    rw [Expression.evaluate_call hb hcall, consensus_eq_sign]

theorem Plurality.word_inj {p q : Plurality} (h : p.word = q.word) : p = q := by
  cases p <;> cases q <;> first | rfl | exact absurd h (by decide)

/-- States elect one state in all ways of voting without weights, those of the expression
    language included, and go on electing it in any other order; and what wins a plurality
    of them is what they elect. -/
theorem unweighted_votes_agree (states : List State) :
    ∃ s, (∀ others : List State, others.Perm states → Elects others s) ∧
      (∀ b ∈ [Expression.Builtin.majority, .consensus], b.IsCall states (b.callText states)) ∧
      ∃ winner, Shortcut.vote (states.map Value.state) = .ok winner ∧
        (winner.word = "true" → s = .yes) ∧ (winner.word = "false" → s = .no) := by
  refine ⟨lead states, ?_, fun b hb => Expression.isCall_callText hb states, plurality states, ?_, ?_, ?_⟩
  · intro others hperm
    rw [lead_eq_score, ← score_perm hperm]
    exact elects_sign others
  · rw [Shortcut.vote, Value.toStates_states]
    rfl
  · intro hword
    have hwins : plurality states = .yes := Plurality.word_inj hword
    exact lead_of_plurality.1 hwins
  · intro hword
    have hwins : plurality states = .no := Plurality.word_inj hword
    exact lead_of_plurality.2 hwins

/-- Two of four states win outright, and go on winning in another order; the weights are
    fewer than the states. -/
theorem unweighted_votes_agree_turned :
    let states : List State := [.yes, .no, .unknown, .yes]
    let others : List State := [.no, .yes, .yes, .unknown]
    let weights : Value := .list [.int 1, .bool true, .str " 1 "]
    (others.Perm states ∧ weights.WeighsAlike ∧ Shortcut.vote (states.map Value.state) = .ok .yes) ∧
      Elects others .yes ∧ Algebra.weighted (.vector others) weights = .ok .yes ∧
      (Expression.Registry.standard.evaluate "CONSENSUS(false, true, true, unknown)" (.map [])).result = .ok .yes := by
  intro states others weights
  have hperm : others.Perm states := by decide
  have halike : weights.WeighsAlike := by
    refine .ones ?_
    simp only [List.forall_mem_cons]
    exact ⟨rfl, rfl, rfl, List.forall_mem_nil _⟩
  obtain ⟨s, helects, -, winner, hvote, hyes, -⟩ := unweighted_votes_agree states
  obtain rfl : Plurality.yes = winner := Except.ok.inj hvote
  obtain rfl : s = .yes := hyes rfl
  have hcall := Expression.isCall_callText (b := .consensus) (by decide) others
  exact ⟨⟨hperm, halike, hvote⟩, helects others hperm, (helects others hperm).weighted weights halike,
    (helects others hperm).call .consensus (by decide) _ hcall (.map [])⟩

end Vote
end Verdict
