/-
  Verdict.Proofs.Keys — when two values are one key, and what a table holds under a key.

  Among the values without parts (`Atom`: nothing, truth values, numbers, texts, states and
  what is known by a number or a text alone) being one key is an equivalence
  (`Atom.same_trans`); numbers are compared by the rational they are worth. A value that is
  one key with an atom is that atom again, so setting an entry changes what is found under
  the keys equal to it and nothing else (`find?_set`). A vector, a tuple and bytes without
  elements show why parts matter: the first equals both of the others, which differ.
-/

import Verdict.Value.Table
import Mathlib.Algebra.Order.Field.Rat
import Mathlib.Algebra.Order.Ring.Unbundled.Basic
import Mathlib.Data.Rat.Cast.Order
import Mathlib.Order.Compare
import Mathlib.Tactic.Ring

namespace Verdict

/-! ## Numbers -/

namespace Binary64

/-- The rational number that a dyadic number is. -/
def Dyadic.worth (x : Dyadic) : ℚ := x.numerator * (2 : ℚ) ^ x.exponent

theorem power_eq (k : Nat) : power k = 2 ^ k := by simp [power, Nat.shiftLeft_eq]

theorem Dyadic.worth_aligned (x : Dyadic) {e : Int} (h : e ≤ x.exponent) :
    ((x.numerator * Int.ofNat (power (x.exponent - e).toNat) : Int) : ℚ) * (2 : ℚ) ^ e = x.worth := by
  obtain ⟨k, hk⟩ := Int.le.dest h
  have hn : (x.exponent - e).toNat = k := by omega
  have h2 : (2 : ℚ) ≠ 0 := by norm_num
  have hp : ((Int.ofNat (2 ^ k) : Int) : ℚ) = 2 ^ k := by simp
  rw [hn, worth, ← hk, zpow_add₀ h2, zpow_natCast, power_eq, Int.cast_mul, hp]
  ring

theorem Dyadic.compare_eq_cmp (x y : Dyadic) : x.compare y = cmp x.worth y.worth := by
  have hx := x.worth_aligned (Int.min_le_left x.exponent y.exponent)
  have hy := y.worth_aligned (Int.min_le_right x.exponent y.exponent)
  have hp : (0 : ℚ) < (2 : ℚ) ^ min x.exponent y.exponent := zpow_pos (by norm_num) _
  have ordered : ∀ a b : Int, (if a < b then Ordering.lt else if a = b then .eq else .gt) = cmp a b := by
    intro a b
    rcases lt_trichotomy a b with hlt | rfl | hgt
    · rw [if_pos hlt, (cmp_eq_lt_iff a b).2 hlt]
    · rw [if_neg (lt_irrefl a), if_pos rfl, cmp_self_eq_eq]
    · rw [if_neg (lt_asymm hgt), if_neg (ne_of_gt hgt), (cmp_eq_gt_iff a b).2 hgt]
  rw [← hx, ← hy, cmp_mul_pos_right hp, Int.cast_strictMono.cmp_map_eq]
  exact ordered _ _

theorem Dyadic.compare_eq_iff (x y : Dyadic) : x.compare y = .eq ↔ x.worth = y.worth := by
  rw [compare_eq_cmp, cmp_eq_eq_iff]

theorem Dyadic.compare_eq_lt_iff (x y : Dyadic) : x.compare y = .lt ↔ x.worth < y.worth := by
  rw [compare_eq_cmp, cmp_eq_lt_iff]

/-- A position, with dyadic numbers that are worth the same made one. -/
def Position.spot : Position → Option (ℚ ⊕ Bool)
  | nowhere => none
  | below => some (.inr false)
  | above => some (.inr true)
  | .at x => some (.inl x.worth)

theorem Position.compare?_eq_iff (p q : Position) :
    p.compare? q = some .eq ↔ ∃ s, p.spot = some s ∧ q.spot = some s := by
  cases p <;> cases q <;> simp [compare?, spot, Dyadic.compare_eq_iff]
  exact eq_comm

end Binary64

namespace Number

theorem eq_iff (x y : Number) :
    x.eq y = true ↔ ∃ s, x.position.spot = some s ∧ y.position.spot = some s := by
  simp only [eq, compare?, beq_iff_eq, Binary64.Position.compare?_eq_iff]

theorem eq_symm {x y : Number} (h : x.eq y = true) : y.eq x = true := by
  obtain ⟨s, hx, hy⟩ := (eq_iff x y).1 h
  exact (eq_iff y x).2 ⟨s, hy, hx⟩

theorem eq_trans {x y z : Number} (h : x.eq y = true) (h' : y.eq z = true) : x.eq z = true := by
  obtain ⟨s, hx, hy⟩ := (eq_iff x y).1 h
  obtain ⟨t, hy', hz⟩ := (eq_iff y z).1 h'
  obtain rfl : s = t := Option.some.inj (hy.symm.trans hy')
  exact (eq_iff x z).2 ⟨s, hx, hz⟩

end Number

/-! ## Atoms -/

/-- What the keys without parts stand for. -/
inductive Atom
  | null
  | text (s : String)
  | torn (t : Torn)
  | number (x : Number)
  | state (s : State)
  | function (id : Nat)
  | stream (id : Nat)
  | stamp (kind : StampKind) (text : String)
  | duration (seconds : Int)

namespace Atom

def same : Atom → Atom → Bool
  | null, null => true
  | text s, text t => s = t
  | torn t, torn u => t = u
  | number x, number y => x.eq y
  | state s, state t => s = t
  | function i, function j => i = j
  | stream i, stream j => i = j
  | stamp k s, stamp l t => k = l && s = t
  | duration m, duration n => m = n
  | _, _ => false

theorem same_symm {a b : Atom} (h : a.same b = true) : b.same a = true := by
  cases a <;> cases b <;> simp_all [same]
  exact Number.eq_symm h

theorem same_trans {a b c : Atom} (h : a.same b = true) (h' : b.same c = true) :
    a.same c = true := by
  cases a <;> cases b <;> simp_all [same]
  cases c <;> simp_all
  exact Number.eq_trans h h'

end Atom

namespace Value

def atom? : Value → Option Atom
  | null => some .null
  | state s => some (.state s)
  | bool b => some (.number (.int (if b then 1 else 0)))
  | int n => some (.number (.int n))
  | float x => some (.number (.float x))
  | trit t => some (.number (.int t.toInt))
  | str s => some (.text s)
  | torn t => some (.torn t)
  | operator o => some (.text o.word)
  | function f => some (.function f.id)
  | stream id _ => some (.stream id)
  | stamp kind text => some (.stamp kind text)
  | duration seconds => some (.duration seconds)
  | _ => none

/-- Whether a value is one of the keys without parts. -/
def isAtom (v : Value) : Bool := v.atom?.isSome

theorem same_number {v : Value} {x : Number} (h : v.number? = some x) (w : Value) :
    v.same w = sameAsNumber x w := by
  cases v <;> simp only [number?, Option.some.injEq, reduceCtorEq] at h <;> subst h <;> rw [Value.same]

theorem same_text {v : Value} {s : String} (h : v.text? = some s) (w : Value) :
    v.same w = decide (w.text? = some s) := by
  cases v <;> simp only [text?, Option.some.injEq, reduceCtorEq] at h <;> subst h <;> rw [Value.same]

theorem sameAsNumber_atom (x : Number) {w : Value} {a : Atom} (hw : w.atom? = some a) :
    sameAsNumber x w = (Atom.number x).same a := by
  cases w <;> simp only [atom?, Option.some.injEq, reduceCtorEq] at hw <;> subst hw <;> rfl

theorem text?_atom (s : String) {w : Value} {a : Atom} (hw : w.atom? = some a) :
    decide (w.text? = some s) = (Atom.text s).same a := by
  cases w <;> simp only [atom?, Option.some.injEq, reduceCtorEq] at hw <;> subst hw <;>
    simp [text?, Atom.same, eq_comm]

/-- Atoms are compared as what they stand for. -/
theorem same_atoms {v w : Value} {a b : Atom} (hv : v.atom? = some b) (hw : w.atom? = some a) :
    v.same w = b.same a := by
  by_cases hnumber : ∃ x, v.number? = some x
  · obtain ⟨x, hx⟩ := hnumber
    have hb : b = .number x := by cases v <;> simp_all [number?, atom?]
    rw [same_number hx, hb, sameAsNumber_atom x hw]
  · by_cases htext : ∃ s, v.text? = some s
    · obtain ⟨s, hs⟩ := htext
      have hb : b = .text s := by cases v <;> simp_all [text?, atom?]
      rw [same_text hs, hb, text?_atom s hw]
    · cases v <;> simp only [atom?, Option.some.injEq, reduceCtorEq] at hv <;> subst hv <;>
        simp only [number?, text?, Option.some.injEq, exists_eq', not_true_eq_false] at hnumber htext <;>
        cases w <;> simp only [atom?, Option.some.injEq, reduceCtorEq] at hw <;> subst hw <;> rfl

theorem same_parts_left {v w : Value} {a : Atom} (hv : v.atom? = none) (hw : w.atom? = some a) :
    v.same w = false := by
  cases v <;> simp only [atom?, reduceCtorEq] at hv <;>
    cases w <;> simp only [atom?, reduceCtorEq] at hw <;> rfl

theorem same_parts_right {v w : Value} {a : Atom} (hv : v.atom? = some a) (hw : w.atom? = none) :
    v.same w = false := by
  cases w <;> simp only [atom?, reduceCtorEq] at hw <;>
    cases v <;> simp only [atom?, reduceCtorEq] at hv <;> rfl

/-- A value is one key with an atom exactly when it is that atom. -/
theorem same_atom (v : Value) {w : Value} {a : Atom} (hw : w.atom? = some a) :
    v.same w = true ↔ ∃ b, v.atom? = some b ∧ b.same a = true := by
  cases hv : v.atom? with
  | none =>
    rw [same_parts_left hv hw]
    exact ⟨fun h => absurd h Bool.false_ne_true, fun ⟨_, hb, _⟩ => nomatch hb⟩
  | some b =>
    rw [same_atoms hv hw]
    exact ⟨fun h => ⟨b, rfl, h⟩, fun ⟨_, hb, h⟩ => Option.some.inj hb ▸ h⟩

theorem atom?_none_of_same {v w : Value} (hw : w.atom? = none) (h : v.same w = true) :
    v.atom? = none := by
  cases hv : v.atom? with
  | none => rfl
  | some b => exact absurd ((same_parts_right hv hw).symm.trans h) Bool.false_ne_true

/-- Two keys that are one key with an atom are one key. -/
theorem same_of_same_atom {v w key : Value} (hk : key.isAtom = true) (hv : v.same key = true)
    (hw : w.same key = true) : v.same w = true := by
  obtain ⟨a, ha⟩ := Option.isSome_iff_exists.1 hk
  obtain ⟨b, hb, hba⟩ := (same_atom v ha).1 hv
  obtain ⟨c, hc, hca⟩ := (same_atom w ha).1 hw
  exact (same_atom v hc).2 ⟨b, hb, Atom.same_trans hba (Atom.same_symm hca)⟩

/-- Two keys that are one key are one key with the same atoms. -/
theorem same_congr {v w key : Value} (hk : key.isAtom = true) (h : v.same w = true) :
    v.same key = w.same key := by
  obtain ⟨a, ha⟩ := Option.isSome_iff_exists.1 hk
  rw [Bool.eq_iff_iff, same_atom v ha, same_atom w ha]
  cases hw : w.atom? with
  | none => simp [atom?_none_of_same hw h]
  | some c =>
    obtain ⟨b, hb, hbc⟩ := (same_atom v hw).1 h
    constructor
    · rintro ⟨_, hv, hba⟩
      obtain rfl := Option.some.inj (hb.symm.trans hv)
      exact ⟨c, rfl, Atom.same_trans (Atom.same_symm hbc) hba⟩
    · rintro ⟨_, hc, hca⟩
      obtain rfl := Option.some.inj hc
      exact ⟨b, hb, Atom.same_trans hbc hca⟩

theorem text?_of_script {v : Value} (h : v.script? = none) : v.text? = none := by
  cases v with
  | str | operator | torn => cases h
  | _ => rfl

theorem same_str (v : Value) (s : String) : v.same (.str s) = true ↔ v.text? = some s := by
  cases v <;> simp [Value.same, sameAsNumber, number?, text?, eq_comm]

theorem same_ofScript (s t : Script) : (ofScript s).same (ofScript t) = true ↔ s = t := by
  cases s <;> cases t <;> simp [ofScript, Value.same, text?, eq_comm]

end Value

/-! ## Tables -/

namespace Table

variable {α : Type}

theorem find?_nil (key : Value) : find? ([] : Table α) key = none := rfl

theorem find?_cons (k : Value) (a : α) (t : Table α) (key : Value) :
    find? ((k, a) :: t) key = if k.same key then some a else find? t key := by
  simp only [find?, List.find?_cons]
  cases k.same key <;> rfl

theorem find?_cons_str (n : String) (a : α) (t : Table α) (name : String) :
    find? ((.str n, a) :: t) (.str name) = if n = name then some a else find? t (.str name) := by
  simp only [find?_cons, Value.same_str, Value.text?, Option.some.injEq]

theorem find?_cons_ofScript (n : Script) (a : α) (t : Table α) (name : Script) :
    find? ((.ofScript n, a) :: t) (.ofScript name) = if n = name then some a else find? t (.ofScript name) := by
  simp only [find?_cons, Value.same_ofScript]

/-- Setting an entry changes what is found under the keys equal to it and nothing else. -/
theorem find?_set (t : Table α) (k : Value) (a : α) {key : Value} (hk : key.isAtom = true) :
    find? (set t k a) key = if k.same key then some a else find? t key := by
  induction t with
  | nil => rw [set, find?_cons]
  | cons e t ih =>
    obtain ⟨k', b⟩ := e
    rw [set, find?_cons]
    by_cases hs : k'.same k = true
    · rw [if_pos hs, find?_cons, Value.same_congr hk hs]
      split <;> rfl
    · rw [if_neg hs, find?_cons, ih]
      by_cases h' : k'.same key = true
      · have hne : ¬ k.same key = true := fun hk' => hs (Value.same_of_same_atom hk h' hk')
        simp only [h', hne, if_true, if_false, Bool.false_eq_true]
      · simp only [h', if_false, Bool.false_eq_true]

/-! ## Tables without two entries under one key -/

/-- No key is equal to a later one. -/
def Distinct (t : Table α) : Prop := t.Pairwise fun e f => e.1.same f.1 = false

theorem mem_set {t : Table α} {k : Value} {a : α} {e : Value × α} (h : e ∈ set t k a) :
    e.1 = k ∨ ∃ f ∈ t, f.1 = e.1 := by
  induction t with
  | nil => exact .inl (by rw [List.mem_singleton.1 h])
  | cons f t ih =>
    rw [set] at h
    split at h
    · rcases List.mem_cons.1 h with rfl | h
      · exact .inr ⟨f, List.mem_cons_self, rfl⟩
      · exact .inr ⟨e, List.mem_cons_of_mem _ h, rfl⟩
    · rcases List.mem_cons.1 h with rfl | h
      · exact .inr ⟨_, List.mem_cons_self, rfl⟩
      · exact (ih h).imp_right fun ⟨g, hg, hk⟩ => ⟨g, List.mem_cons_of_mem _ hg, hk⟩

theorem Distinct.set {t : Table α} (h : Distinct t) (k : Value) (a : α) : Distinct (set t k a) := by
  induction t with
  | nil => exact List.pairwise_singleton _ _
  | cons e t ih =>
    obtain ⟨hhead, htail⟩ := List.pairwise_cons.1 h
    rw [Table.set]
    split
    · exact List.pairwise_cons.2 ⟨hhead, htail⟩
    · next hk =>
      refine List.pairwise_cons.2 ⟨fun f hf => ?_, ih htail⟩
      obtain hf | ⟨g, hg, hf⟩ := mem_set hf
      · rw [hf]; exact Bool.eq_false_iff.2 hk
      · rw [← hf]; exact hhead g hg

theorem find?_append (t u : Table α) (key : Value) :
    find? (t ++ u) key = (find? t key).or (find? u key) := by
  simp only [find?, List.find?_append, Option.map_or]

/-- Under an atom the last entry is the first. -/
theorem Distinct.find?_reverse {t : Table α} (h : Distinct t) {key : Value} (hk : key.isAtom = true) :
    find? t.reverse key = find? t key := by
  induction t with
  | nil => rfl
  | cons e t ih =>
    obtain ⟨k, a⟩ := e
    obtain ⟨hhead, htail⟩ := List.pairwise_cons.1 h
    rw [List.reverse_cons, find?_append, ih htail, find?_cons, find?_cons, find?_nil]
    by_cases hs : k.same key = true
    · have hnone : find? t key = none := by
        simp only [find?, Option.map_eq_none_iff, List.find?_eq_none]
        intro f hf hfk
        have := Value.same_of_same_atom hk hs hfk
        rw [hhead f hf] at this
        cases this
      rw [hnone, if_pos hs, Option.none_or]
    · rw [if_neg hs, if_neg hs, Option.or_none]

/-- The last entry laid on top counts, else what lies below. -/
theorem find?_merge (t others : Table α) {key : Value} (hk : key.isAtom = true) :
    find? (merge t others) key = (find? others.reverse key).or (find? t key) := by
  induction others generalizing t with
  | nil => rfl
  | cons e others ih =>
    obtain ⟨k, a⟩ := e
    have hstep : merge t ((k, a) :: others) = merge (set t k a) others := rfl
    rw [hstep, ih, find?_set t k a hk, List.reverse_cons, find?_append, find?_cons, find?_nil,
      Option.or_assoc]
    split <;> rfl

end Table

end Verdict
