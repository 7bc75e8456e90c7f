/-
  Verdict.Proofs.Duality — inverting every state inverts every vote.

  `no` dominates a conjunction as `yes` dominates a disjunction, so inversion turns the one
  into the other (`all_invert`, `any_invert`). All other votes go by the sign of a sum, and
  an inverted state adds the opposite (`weightedSum_invert`), whatever its weight, a missing
  one included. To negate the weights does the same, but a missing weight cannot be negated
  (`weightedSum_neg`). Main statement: `inversion_duality`.
-/

import Verdict.Logic
import Verdict.Proofs.Codes
import Verdict.Proofs.Inversion

namespace Verdict

/-! ## States and signs -/

theorem Trit.ofInt_neg (n : Int) : ofInt (-n) = (ofInt n).invert := by
  unfold ofInt
  by_cases hpositive : 0 < n
  · rw [if_pos hpositive, if_neg (by omega), if_pos (by omega)]
    rfl
  · by_cases hnegative : n < 0
    · rw [if_neg hpositive, if_pos hnegative, if_pos (by omega)]
      rfl
    · rw [if_neg hpositive, if_neg hnegative, if_neg (by omega), if_neg (by omega)]
      rfl

namespace State

theorem invert_and (s t : State) : (s.and t).invert = s.invert.or t.invert := by cases s <;> cases t <;> rfl

theorem invert_or (s t : State) : (s.or t).invert = s.invert.and t.invert := by cases s <;> cases t <;> rfl

theorem toInt_invert (s : State) : s.invert.toInt = -s.toInt := by cases s <;> rfl

/-- The opposite sign is the sign of the inverted state. -/
theorem ofTrit_ofInt_neg (n : Int) : ofTrit (.ofInt (-n)) = (ofTrit (.ofInt n)).invert := by
  rw [Trit.ofInt_neg]
  cases Trit.ofInt n <;> rfl

end State

/-! ## Votes -/

namespace Vote

theorem all_invert (states : List State) : all (states.map State.invert) = (any states).invert := by
  rw [all_eq_foldr, any_eq_foldr, List.foldr_map]
  show states.foldr (fun s => s.invert.and) (State.invert .no) = _
  exact List.foldr_hom State.invert fun s t => (State.invert_or s t).symm

theorem any_invert (states : List State) : any (states.map State.invert) = (all states).invert := by
  rw [all_eq_foldr, any_eq_foldr, List.foldr_map]
  show states.foldr (fun s => s.invert.or) (State.invert .yes) = _
  exact List.foldr_hom State.invert fun s t => (State.invert_and s t).symm

/-- By induction on the states: a state without a weight is turned around like one with a
    weight. -/
theorem weightedSum_invert (weights : List Int) (states : List State) :
    weightedSum weights (states.map State.invert) = -weightedSum weights states := by
  induction states generalizing weights with
  | nil => cases weights <;> rfl
  | cons s states ih =>
    cases weights with
    | nil => rw [List.map_cons, weightedSum, weightedSum, ih, State.toInt_invert, Int.neg_add]
    | cons w weights =>
      rw [List.map_cons, weightedSum, weightedSum, ih, State.toInt_invert, Int.neg_mul, Int.neg_add]

/-- By induction on the states, each of which has a weight. -/
theorem weightedSum_neg {weights : List Int} {states : List State} (h : states.length ≤ weights.length) :
    weightedSum (weights.map (-·)) states = -weightedSum weights states := by
  induction states generalizing weights with
  | nil => cases weights <;> rfl
  | cons s states ih =>
    cases weights with
    | nil => exact absurd h (Nat.not_succ_le_zero _)
    | cons w weights =>
      rw [List.map_cons, weightedSum, weightedSum, ih (Nat.le_of_succ_le_succ h), Int.mul_neg, Int.neg_add]

theorem weighted_invert (weights : List Int) (states : List State) :
    weighted weights (states.map State.invert) = (weighted weights states).invert := by
  rw [weighted, weightedSum_invert, State.ofTrit_ofInt_neg, weighted]

theorem weighted_neg {weights : List Int} {states : List State} (h : states.length ≤ weights.length) :
    weighted (weights.map (-·)) states = (weighted weights states).invert := by
  rw [weighted, weightedSum_neg h, State.ofTrit_ofInt_neg, weighted]

/-- A state without a weight keeps weighing one when the others are negated. -/
example : weighted [1] [.yes, .yes, .yes] = .yes ∧ weighted [-1] [.yes, .yes, .yes] = .yes := by decide

theorem score_invert (states : List State) : score (states.map State.invert) = -score states := by
  have hones : ∀ w ∈ ([] : List Int), w = 1 := List.forall_mem_nil _
  rw [← weightedSum_of_ones hones, weightedSum_invert, weightedSum_of_ones hones]

theorem lead_invert (states : List State) : lead (states.map State.invert) = (lead states).invert := by
  rw [lead_eq_score, score_invert, State.ofTrit_ofInt_neg, lead_eq_score]

theorem consensus_invert (states : List State) :
    consensus (states.map State.invert) = (consensus states).invert := by
  rw [consensus_eq_sign, score_invert, State.ofTrit_ofInt_neg, consensus_eq_sign]

end Vote

/-! ## Duality -/

theorem toList_encodeStates_invert (states : List State) :
    (encodeStates (states.map State.invert)).toList = (encodeStates states).toList.map Trit.exchanged := by
  rw [toList_encodeStates, toList_encodeStates, List.map_map, List.map_map]
  refine List.map_congr_left fun s _ => ?_
  rw [Function.comp_apply, Function.comp_apply, State.toTrit_invert, Trit.symbol_invert]

theorem Value.weights_ints (weights : List Int) : (Value.list (weights.map Value.int)).weights = .ok weights := by
  have hread : Value.toWeights (weights.map Value.int) = .ok weights := by
    induction weights with
    | nil => rfl
    | cons w weights ih =>
      rw [List.map_cons, Value.toWeights, ih]
      rfl
  cases weights with
  | nil => rfl
  | cons w weights => exact hread

theorem Algebra.weighted_ints (states : List State) (weights : List Int) :
    weighted (.vector states) (.list (weights.map .int)) = .ok (Vote.weighted weights states) := by
  rw [weighted, Value.toVector_vector, Value.weights_ints]
  rfl

/-- Inverting all states exchanges conjunction and disjunction and inverts them, inverts
    every other vote, with weights or without, negates the score and exchanges the signs of
    the code. Negating the weights inverts a weighted vote too, unless weights are missing. -/
theorem inversion_duality (states : List State) (weights : List Int) :
    let inverted := states.map State.invert
    Vote.all inverted = (Vote.any states).invert ∧ Vote.any inverted = (Vote.all states).invert ∧
      Vote.lead inverted = (Vote.lead states).invert ∧
      Vote.consensus inverted = (Vote.consensus states).invert ∧
      Vote.score inverted = -Vote.score states ∧
      (∃ s, Algebra.weighted (.vector states) (.list (weights.map .int)) = .ok s ∧
        Algebra.weighted (.vector inverted) (.list (weights.map .int)) = .ok s.invert ∧
        (states.length ≤ weights.length →
          Algebra.weighted (.vector states) (.list ((weights.map (-·)).map .int)) = .ok s.invert)) ∧
      (encodeStates inverted).toList = (encodeStates states).toList.map Trit.exchanged := by
  intro inverted
  refine ⟨Vote.all_invert states, Vote.any_invert states, Vote.lead_invert states, Vote.consensus_invert states,
    Vote.score_invert states, ⟨Vote.weighted weights states, ?_, ?_, ?_⟩, toList_encodeStates_invert states⟩
  · exact Algebra.weighted_ints states weights
  · rw [Algebra.weighted_ints, Vote.weighted_invert]
  · intro henough
    rw [Algebra.weighted_ints, Vote.weighted_neg henough]

/-- The last weight has no state, and the second state has the last say. -/
theorem inversion_duality_heavy :
    let states : List State := [.yes, .no, .unknown]
    let weights : List Int := [2, 5, 1, 7]
    states.length ≤ weights.length ∧
      Algebra.weighted (.vector states) (.list (weights.map .int)) = .ok .no ∧
      Algebra.weighted (.vector (states.map State.invert)) (.list (weights.map .int)) = .ok .yes ∧
      Algebra.weighted (.vector states) (.list ((weights.map (-·)).map .int)) = .ok .yes := by
  intro states weights
  have henough : states.length ≤ weights.length := by decide
  obtain ⟨-, -, -, -, -, ⟨s, hs, hinverted, hnegated⟩, -⟩ := inversion_duality states weights
  obtain rfl : State.no = s := Except.ok.inj hs
  exact ⟨henough, hs, hinverted, hnegated henough⟩

end Verdict
