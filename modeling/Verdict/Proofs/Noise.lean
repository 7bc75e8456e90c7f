/-
  Verdict.Proofs.Noise — a noisy signal is replaced by its dominant state.

  Whatever the threshold, normalizing keeps a signal or makes it constant, and of the two
  decided states it takes the more frequent one, of two equally frequent ones the first
  (`dominates_of_dominant?`). A constant signal stays as it is under every threshold, so to
  normalize again changes nothing (`normalize_normalize`). With a number for the threshold
  the share of undecided states is rounded before it is compared
  (`normalizeValues_normalizes`). Main statement: which of the two happens is the exact
  comparison of the share with the threshold (`normalize_noise`).
-/

import Verdict.Noise
import Verdict.Proofs.Leaves
import Mathlib.Algebra.Order.Field.Basic
import Mathlib.Data.Rat.Cast.Order
import Mathlib.Tactic.SplitIfs

namespace Verdict.Noise

/-! ## The dominant state -/

/-- Whether a state is decided and at least as frequent among the states as the other decided
    one, and comes before it if they are equally frequent. -/
structure Dominates (s : State) (states : List State) : Prop where
  known : s.isKnown = true
  frequent : states.count s.invert ≤ states.count s
  first : states.count s.invert = states.count s → states.find? State.isKnown = some s

theorem dominates_of_dominant? {states : List State} {s : State} (h : dominant? states = some s) :
    Dominates s states := by
  simp only [dominant?] at h
  split_ifs at h with hyes hno
  · cases h
    exact ⟨rfl, Nat.le_of_lt hyes, fun htie => absurd htie (Nat.ne_of_lt hyes)⟩
  · cases h
    exact ⟨rfl, Nat.le_of_lt hno, fun htie => absurd htie (Nat.ne_of_lt hno)⟩
  · have hknown : s.isKnown = true := List.find?_some h
    refine ⟨hknown, ?_, fun _ => h⟩
    cases s with
    | yes => exact Nat.le_of_not_lt hno
    | no => exact Nat.le_of_not_lt hyes
    | unknown => cases hknown

theorem Dominates.mem {states : List State} {s : State} (h : Dominates s states) : s ∈ states := by
  by_cases htie : states.count s.invert = states.count s
  · exact List.mem_of_find?_eq_some (h.first htie)
  · have hfrequent := h.frequent
    exact List.count_pos_iff.1 (by omega)

theorem known_of_ne {s : State} (h : s ≠ .unknown) : s.isKnown = true := by
  cases s with
  | yes | no => rfl
  | unknown => exact absurd rfl h

/-- A signal with a decided state has a dominant one. -/
theorem exists_dominant {states : List State} {u : State} (hu : u ∈ states) (hknown : u ≠ .unknown) :
    ∃ s, dominant? states = some s := by
  simp only [dominant?]
  split_ifs
  · exact ⟨.yes, rfl⟩
  · exact ⟨.no, rfl⟩
  · exact Option.isSome_iff_exists.1 (List.find?_isSome.2 ⟨u, hu, known_of_ne hknown⟩)

theorem dominant?_replicate (n : Nat) (s : State) :
    (dominant? (List.replicate (n + 1) s)).getD .unknown = s := by
  have hmem : s ∈ List.replicate (n + 1) s := List.mem_replicate.2 ⟨Nat.succ_ne_zero n, rfl⟩
  cases hdominant : dominant? (List.replicate (n + 1) s) with
  | none =>
    by_cases hs : s = .unknown
    · exact hs.symm
    · obtain ⟨_, hsome⟩ := exists_dominant hmem hs
      rw [hdominant] at hsome
      cases hsome
  | some d => exact List.eq_of_mem_replicate (dominates_of_dominant? hdominant).mem

/-! ## Normalizing -/

/-- What normalizing makes of states, if the threshold accepts them and if not. -/
structure Normalizes (accepted : Prop) (states signal : List State) : Prop where
  length : signal.length = states.length
  kept : accepted → signal = states
  replaced : ¬accepted → ∃ s, (∀ u ∈ signal, u = s) ∧ ((∀ u ∈ states, u = .unknown) → s = .unknown) ∧
    ((∃ u ∈ states, u ≠ .unknown) → Dominates s states)

variable {t : Threshold} {states : List State}

theorem normalize_of_accepts (h : t.accepts (states.count .unknown) states.length = true) :
    normalize t states = states := by
  cases states with
  | nil => rfl
  | cons s states => rw [normalize, if_neg (by simp), if_pos h]

theorem normalize_of_refused (h : ¬t.accepts (states.count .unknown) states.length = true) :
    normalize t states = List.replicate states.length ((dominant? states).getD .unknown) := by
  cases states with
  | nil => rfl
  | cons s states => rw [normalize, if_neg (by simp), if_neg h]

theorem normalize_replicate (t : Threshold) (n : Nat) (s : State) :
    normalize t (List.replicate n s) = List.replicate n s := by
  by_cases haccepts : t.accepts ((List.replicate n s).count .unknown) (List.replicate n s).length = true
  · exact normalize_of_accepts haccepts
  · rw [normalize_of_refused haccepts, List.length_replicate]
    cases n with
    | zero => rfl
    | succ n => rw [dominant?_replicate]

/-- Two thresholds are one for a signal that they both accept or both refuse. -/
theorem normalize_congr {t t' : Threshold}
    (h : states ≠ [] →
      t.accepts (states.count .unknown) states.length = t'.accepts (states.count .unknown) states.length) :
    normalize t states = normalize t' states := by
  cases states with
  | nil => rfl
  | cons s states => simp only [normalize, h (List.cons_ne_nil s states)]

/-- What was kept is kept again, and a constant signal has no other state to become. -/
theorem normalize_normalize (t : Threshold) (states : List State) :
    normalize t (normalize t states) = normalize t states := by
  by_cases haccepts : t.accepts (states.count .unknown) states.length = true
  · rw [normalize_of_accepts haccepts, normalize_of_accepts haccepts]
  · rw [normalize_of_refused haccepts, normalize_replicate]

theorem normalize_normalizes (t : Threshold) (states : List State) :
    Normalizes (t.accepts (states.count .unknown) states.length = true) states (normalize t states) where
  length := by
    by_cases haccepts : t.accepts (states.count .unknown) states.length = true
    · rw [normalize_of_accepts haccepts]
    · rw [normalize_of_refused haccepts, List.length_replicate]
  kept := normalize_of_accepts
  replaced := by
    intro hrefused
    refine ⟨(dominant? states).getD .unknown, ?_, ?_, ?_⟩
    · rw [normalize_of_refused hrefused]
      exact fun u hu => List.eq_of_mem_replicate hu
    · intro hunknown
      cases hdominant : dominant? states with
      | none => rfl
      | some s => exact hunknown s (dominates_of_dominant? hdominant).mem
    · rintro ⟨u, hu, hknown⟩
      obtain ⟨s, hs⟩ := exists_dominant hu hknown
      rw [hs]
      exact dominates_of_dominant? hs

theorem normalizes_nil (accepted : Prop) : Normalizes accepted [] [] where
  length := rfl
  kept _ := rfl
  replaced _ := ⟨.unknown, List.forall_mem_nil _, fun _ => rfl, fun ⟨_, hu, _⟩ => nomatch hu⟩

/-! ## Thresholds -/

/-- The share of undecided states; that of no states is nought. -/
def share (states : List State) : ℚ := states.count .unknown / states.length

def Threshold.ofRat (t : ℚ) : Threshold := .fraction t.num t.den

/-- A fraction is compared exactly. -/
theorem accepts_ofRat (t : ℚ) {states : List State} (h : states ≠ []) :
    (Threshold.ofRat t).accepts (states.count .unknown) states.length = true ↔ share states ≤ t := by
  have htotal : (0 : ℚ) < states.length := Nat.cast_pos.2 (List.length_pos_iff.2 h)
  have hden : (0 : ℚ) < t.den := Nat.cast_pos.2 t.den_pos
  have hcleared : share states ≤ t ↔ (states.count .unknown * t.den : ℚ) ≤ t.num * states.length := by
    rw [share, div_le_iff₀ htotal]
    nth_rewrite 1 [← Rat.num_div_den t]
    rw [div_mul_eq_mul_div, le_div_iff₀ hden]
  rw [hcleared, Threshold.ofRat, Threshold.accepts, decide_eq_true_iff]
  norm_cast

theorem Normalizes.exactly {t : ℚ} {states signal : List State}
    (h : Normalizes ((Threshold.ofRat t).accepts (states.count .unknown) states.length = true) states signal) :
    Normalizes (share states ≤ t) states signal := by
  by_cases hnone : states = []
  · rw [hnone] at h ⊢
    rw [List.eq_nil_of_length_eq_zero h.length]
    exact normalizes_nil _
  · rwa [← accepts_ofRat t hnone]

/-! ## Values -/

/-- Normalizes values taken as states by a threshold of either kind. -/
def normalizeBy (t : Threshold) (values : Value) : Except Error (List State) := do
  return normalize t (← Value.toStates (← values.elements))

/-- The threshold of a number is compared with the rounded share. -/
theorem normalizeValues_number {threshold : Value} {bound : Number} (h : threshold.number? = some bound)
    (values : Value) : normalizeValues values threshold = normalizeBy (.number bound) values := by
  rw [normalizeValues, normalizeBy, h]
  cases values.elements with
  | error e => rfl
  | ok items =>
    rw [ok_bind, ok_bind]
    cases Value.toStates items with
    | error e => rfl
    | ok states => cases states <;> rfl

theorem normalizeBy_states (t : Threshold) (states : List State) :
    normalizeBy t (.ofStates states) = .ok (normalize t states) := by
  show (do return normalize t (← Value.toStates (states.map Value.state))) = _
  rw [Value.toStates_states]
  rfl

theorem normalizeBy_list (t : Threshold) {values : List Value} {states : List State}
    (h : List.Forall₂ Value.StandsFor values states) :
    normalizeBy t (.list values) = .ok (normalize t states) := by
  show (do return normalize t (← Value.toStates values)) = _
  rw [Value.toStates_standing h]
  rfl

/-- Values that have states are normalized to a signal of their length, and the signal to
    itself. -/
theorem normalizeBy_normalizes (t : Threshold) {values : List Value} (h : ∀ v ∈ values, v.hasState = true) :
    ∃ states signal, List.Forall₂ Value.StandsFor values states ∧ signal = normalize t states ∧
      normalizeBy t (.list values) = .ok signal ∧ signal.length = values.length ∧
      Normalizes (t.accepts (states.count .unknown) states.length = true) states signal ∧
      normalizeBy t (.ofStates signal) = .ok signal := by
  obtain ⟨states, -, hall⟩ := Value.exists_states h
  have hnormalizes := normalize_normalizes t states
  refine ⟨states, normalize t states, hall, rfl, normalizeBy_list t hall, ?_, hnormalizes, ?_⟩
  · rw [hnormalizes.length, hall.length_eq]
  · rw [normalizeBy_states, normalize_normalize]

/-- With a number for the threshold, the share is rounded before it is compared. -/
theorem normalizeValues_normalizes {threshold : Value} {bound : Number} (hbound : threshold.number? = some bound)
    {values : List Value} (h : ∀ v ∈ values, v.hasState = true) :
    ∃ states signal, List.Forall₂ Value.StandsFor values states ∧
      normalizeValues (.list values) threshold = .ok signal ∧ signal.length = values.length ∧
      Normalizes ((Number.float (.ofQuotient (states.count .unknown) states.length)).le bound = true) states signal ∧
      normalizeValues (.ofStates signal) threshold = .ok signal := by
  obtain ⟨states, signal, hall, -, hsignal, hlength, hnormalizes, hagain⟩ := normalizeBy_normalizes (.number bound) h
  rw [← normalizeValues_number hbound] at hsignal hagain
  exact ⟨states, signal, hall, hsignal, hlength, hnormalizes, hagain⟩

/-- Whether a threshold is a number which the share of the states, once rounded, compares
    with as the share itself does with a fraction. -/
def ActsAs (threshold : Value) (t : ℚ) (states : List State) : Prop :=
  ∃ bound, threshold.number? = some bound ∧
    ((Number.float (.ofQuotient (states.count .unknown) states.length)).le bound = true ↔ share states ≤ t)

theorem ActsAs.normalizeValues {threshold : Value} {t : ℚ} (h : ActsAs threshold t states) {values : List Value}
    (hall : List.Forall₂ Value.StandsFor values states) :
    Noise.normalizeValues (.list values) threshold = .ok (normalize (.ofRat t) states) ∧
      Noise.normalizeValues (.ofStates (normalize (.ofRat t) states)) threshold =
        .ok (normalize (.ofRat t) states) := by
  obtain ⟨bound, hbound, hexact⟩ := h
  have hsame : normalize (.number bound) states = normalize (.ofRat t) states :=
    normalize_congr fun hsome => Bool.eq_iff_iff.2 (hexact.trans (accepts_ofRat t hsome).symm)
  constructor
  · rw [normalizeValues_number hbound, normalizeBy_list _ hall, hsame]
  · rw [normalizeValues_number hbound, normalizeBy_states, ← hsame, normalize_normalize]

/-- With an exact threshold a signal keeps its states if the share of undecided ones is at
    most the threshold; else it becomes one state throughout, the dominant one if any is
    decided. To normalize it again changes nothing. A number does the same for a threshold
    if rounding the share makes no difference. -/
theorem normalize_noise (t : ℚ) {values : List Value} (h : ∀ v ∈ values, v.hasState = true) :
    ∃ states signal, List.Forall₂ Value.StandsFor values states ∧
      normalizeBy (.ofRat t) (.list values) = .ok signal ∧ signal.length = values.length ∧
      Normalizes (share states ≤ t) states signal ∧ normalizeBy (.ofRat t) (.ofStates signal) = .ok signal ∧
      ∀ threshold, ActsAs threshold t states → normalizeValues (.list values) threshold = .ok signal ∧
        normalizeValues (.ofStates signal) threshold = .ok signal := by
  obtain ⟨states, signal, hall, rfl, hsignal, hlength, hnormalizes, hagain⟩ := normalizeBy_normalizes (.ofRat t) h
  exact ⟨states, _, hall, hsignal, hlength, hnormalizes.exactly, hagain, fun _ hacts => hacts.normalizeValues hall⟩

/-- Of five states three are undecided, and the first of the others is `no`. -/
theorem normalize_noise_tie :
    let values : List Value := [.null, .int 0, .str " Maybe", .trit .positive, .int (-1)]
    (∀ v ∈ values, v.hasState = true) ∧
      normalizeBy (.ofRat (1 / 2)) (.list values) = .ok [.no, .no, .no, .no, .no] ∧
      normalizeValues (.list values) standardThreshold = .ok [.no, .no, .no, .no, .no] := by
  intro values
  have hcoercible : ∀ v ∈ values, v.hasState = true := by
    simp only [values, List.forall_mem_cons]
    exact ⟨rfl, rfl, by decide, rfl, rfl, List.forall_mem_nil _⟩
  have hreplaced : normalizeBy (.ofRat (1 / 2)) (.list values) = .ok [.no, .no, .no, .no, .no] := by
    rw [show Threshold.ofRat (1 / 2) = .fraction 1 2 by decide +kernel]
    rfl
  obtain ⟨states, signal, hall, hsignal, -, -, -, hnumber⟩ := normalize_noise (1 / 2) hcoercible
  obtain rfl : [.unknown, .no, .unknown, .yes, .unknown] = states := Except.ok.inj (Value.toStates_standing hall)
  obtain rfl : [.no, .no, .no, .no, .no] = signal := Except.ok.inj (hreplaced.symm.trans hsignal)
  have hacts : ActsAs standardThreshold (1 / 2) [.unknown, .no, .unknown, .yes, .unknown] :=
    ⟨_, rfl, by decide +kernel⟩
  exact ⟨hcoercible, hreplaced, (hnumber standardThreshold hacts).1⟩

end Verdict.Noise
