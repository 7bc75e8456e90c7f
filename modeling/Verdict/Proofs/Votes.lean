/-
  Verdict.Proofs.Votes — what the votes amount to.

  The connectives over many states are their folds, and the votes are signs: of the sum of
  the states' worths times their weights, or of the difference of two counts.
-/

import Verdict.Vote
import Mathlib.Algebra.Ring.Int.Defs
import Mathlib.Data.List.Fold

namespace Verdict

namespace State

instance : Std.Associative State.and := ⟨fun a b c => by cases a <;> cases b <;> cases c <;> rfl⟩

instance : Std.LawfulIdentity State.and .yes where
  left_id s := by cases s <;> rfl
  right_id s := by cases s <;> rfl

instance : Std.Associative State.or := ⟨fun a b c => by cases a <;> cases b <;> cases c <;> rfl⟩

instance : Std.LawfulIdentity State.or .no where
  left_id s := by cases s <;> rfl
  right_id s := by cases s <;> rfl

end State

namespace Vote

theorem all_eq_foldr (states : List State) : all states = states.foldr State.and .yes := by
  induction states with
  | nil => rfl
  | cons s states ih =>
    rw [List.foldr_cons, ← ih]
    cases s <;> simp only [all, List.contains_cons] <;>
      cases states.contains .no <;> cases states.contains .unknown <;> rfl

theorem any_eq_foldr (states : List State) : any states = states.foldr State.or .no := by
  induction states with
  | nil => rfl
  | cons s states ih =>
    rw [List.foldr_cons, ← ih]
    cases s <;> simp only [any, List.contains_cons] <;>
      cases states.contains .yes <;> cases states.contains .unknown <;> rfl

theorem all_eq_foldl (states : List State) : all states = states.foldl State.and .yes := by
  rw [all_eq_foldr, List.foldl_eq_foldr_of_commute fun s => by cases s <;> rfl]

theorem any_eq_foldl (states : List State) : any states = states.foldl State.or .no := by
  rw [any_eq_foldr, List.foldl_eq_foldr_of_commute fun s => by cases s <;> rfl]

theorem weightedSum_eq_sum (weights : List Int) (states : List State) :
    weightedSum weights states = (List.zipWith (fun s w => s.toInt * w) states
      (weights ++ List.replicate (states.length - weights.length) 1)).sum := by
  induction states generalizing weights with
  | nil => cases weights <;> rfl
  | cons s states ih =>
    cases weights with
    | nil =>
      have hlen : (s :: states).length - ([] : List Int).length = states.length + 1 := rfl
      rw [hlen, List.replicate_succ, List.nil_append, List.zipWith_cons_cons, List.sum_cons, Int.mul_one]
      exact congrArg (s.toInt + ·) (ih [])
    | cons w weights =>
      rw [List.length_cons, List.length_cons, Nat.add_sub_add_right, List.cons_append,
        List.zipWith_cons_cons, List.sum_cons]
      exact congrArg (s.toInt * w + ·) (ih weights)

theorem score_eq_sum (states : List State) : score states = (states.map State.toInt).sum := by
  induction states with
  | nil => rfl
  | cons s states ih => rw [score, List.map_cons, List.sum_cons, ih]

/-- By induction on the states: whether a state's weight is written or missing, it is one. -/
theorem weightedSum_of_ones {weights : List Int} (h : ∀ w ∈ weights, w = 1) (states : List State) :
    weightedSum weights states = score states := by
  induction states generalizing weights with
  | nil => cases weights <;> rfl
  | cons s states ih =>
    cases weights with
    | nil => rw [weightedSum, score, ih h]
    | cons w weights =>
      obtain ⟨rfl, hrest⟩ := List.forall_mem_cons.1 h
      rw [weightedSum, score, ih hrest, Int.mul_one]

theorem weighted_of_ones {weights : List Int} (h : ∀ w ∈ weights, w = 1) (states : List State) :
    weighted weights states = .ofTrit (.ofInt (score states)) := by
  rw [weighted, weightedSum_of_ones h]

theorem consensus_eq_sign (states : List State) : consensus states = .ofTrit (.ofInt (score states)) :=
  weighted_of_ones (fun _ => List.eq_of_mem_replicate) states

theorem majority_eq_sign (states : List State) : majority states = .ofTrit (.ofInt (score states)) :=
  weighted_of_ones (fun _ => List.eq_of_mem_replicate) states

theorem consensus_eq_sum (states : List State) :
    consensus states = .ofTrit (.ofInt (states.map State.toInt).sum) := by
  rw [consensus_eq_sign, score_eq_sum]

theorem lead_eq_sign (states : List State) :
    lead states = .ofTrit (.ofInt (states.count .yes - states.count .no)) := by
  simp only [lead, Trit.ofInt]
  by_cases htie : states.count .yes = states.count .no
  · rw [if_pos htie, if_neg (by omega), if_neg (by omega)]
    rfl
  · by_cases hyes : states.count .no < states.count .yes
    · rw [if_neg htie, if_pos hyes, if_pos (by omega)]
      rfl
    · rw [if_neg htie, if_neg hyes, if_neg (by omega), if_pos (by omega)]
      rfl

theorem score_eq_counts (states : List State) : score states = states.count .yes - states.count .no := by
  induction states with
  | nil => rfl
  | cons s states ih =>
    rw [score, ih]
    cases s <;> simp [State.toInt, State.toTrit, Trit.toInt] <;> omega

theorem lead_eq_score (states : List State) : lead states = .ofTrit (.ofInt (score states)) := by
  rw [lead_eq_sign, score_eq_counts]

theorem score_perm {states others : List State} (h : states.Perm others) : score states = score others := by
  rw [score_eq_counts, score_eq_counts, h.count_eq, h.count_eq]

/-- A state that wins outright outnumbers the other decided one. -/
theorem count_of_plurality (states : List State) :
    (plurality states = .yes → states.count .no < states.count .yes) ∧
      (plurality states = .no → states.count .yes < states.count .no) := by
  simp only [plurality]
  split_ifs with hyes hno
  · exact ⟨fun _ => hyes.1, fun h => nomatch h⟩
  · exact ⟨fun h => (nomatch h), fun _ => hno.1⟩
  · exact ⟨fun h => (nomatch h), fun h => nomatch h⟩

/-- The winner of a plurality wins the vote without weights. -/
theorem lead_of_plurality {states : List State} :
    (plurality states = .yes → lead states = .yes) ∧ (plurality states = .no → lead states = .no) := by
  obtain ⟨hyes, hno⟩ := count_of_plurality states
  constructor
  · intro h
    have hmore := hyes h
    rw [lead, if_neg (by omega), if_pos hmore]
  · intro h
    have hmore := hno h
    rw [lead, if_neg (by omega), if_neg (by omega)]

end Vote
end Verdict
