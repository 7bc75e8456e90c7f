/-
  Verdict.Proofs.Leaves — operations on nested data are folds over its leaves.

  A value holds others or is a leaf (`Value.parts?`), and to gather the leaves of some
  values is to take those that hold others apart, left to right (`Gathers`). Coercion goes
  through the leaves in that order and stops at the first without a state
  (`toStates_ends`). An operation with a neutral state that may be bracketed anyhow
  therefore gives one result for all nestings of the same leaves, and what it gives for a
  run of values may stand in their place (`folded_append`, `folded_reduced`). Main
  statement: conjunction and disjunction of any number of values are such folds of the
  binary connectives (`Algebra.variadic_folds`).
-/

import Verdict.Logic
import Verdict.Proofs.Results
import Verdict.Proofs.Votes
import Mathlib.Data.List.Forall2

namespace Verdict

/-! ## Gathering leaves -/

namespace Value

/-- What a value holds, in order; a mapping holds its values. -/
def parts? : Value → Option (List Value)
  | map entries => some (entries.map (·.2))
  | v => v.items?

/-- The values that hold no others, found in some values from left to right. -/
inductive Gathers : List Value → List Value → Prop
  | nil : Gathers [] []
  | leaf {v : Value} {vs ls : List Value} : v.parts? = none → Gathers vs ls → Gathers (v :: vs) (v :: ls)
  | holder {v : Value} {parts vs inner ls : List Value} :
      v.parts? = some parts → Gathers parts inner → Gathers vs ls → Gathers (v :: vs) (inner ++ ls)

section

variable {v : Value} {vs ws ls ms parts : List Value}

theorem leavesOfAll_append (vs ws : List Value) : leavesOfAll (vs ++ ws) = leavesOfAll vs ++ leavesOfAll ws := by
  induction vs with
  | nil => rfl
  | cons v vs ih => rw [List.cons_append, leavesOfAll, leavesOfAll, ih, List.append_assoc]

theorem leavesOfAll_singleton (v : Value) : leavesOfAll [v] = v.leaves := by
  rw [leavesOfAll, leavesOfAll, List.append_nil]

theorem leavesOfEntries_eq (entries : Entries) : leavesOfEntries entries = leavesOfAll (entries.map (·.2)) := by
  induction entries with
  | nil => rfl
  | cons entry entries ih => rw [leavesOfEntries, List.map_cons, leavesOfAll, ih]

theorem leavesOfAll_states (states : List State) : leavesOfAll (states.map state) = states.map state := by
  induction states with
  | nil => rfl
  | cons s states ih => rw [List.map_cons, leavesOfAll, ih]; rfl

theorem leaves_leaf (h : v.parts? = none) : v.leaves = [v] := by
  cases v with
  | list | tuple | set | stream | map | vector => cases h
  | _ => rfl

theorem leaves_holder (h : v.parts? = some parts) : v.leaves = leavesOfAll parts := by
  cases v with
  | list | tuple | set | stream => cases h; rfl
  | map entries => cases h; exact leavesOfEntries_eq entries
  | vector states => cases h; exact (leavesOfAll_states states).symm
  | _ => cases h

theorem Gathers.append (h : Gathers vs ls) (h' : Gathers ws ms) : Gathers (vs ++ ws) (ls ++ ms) := by
  induction h with
  | nil => exact h'
  | leaf hv _ ih => exact .leaf hv ih
  | holder hv hparts _ _ ih =>
    rw [List.append_assoc]
    exact .holder hv hparts ih

theorem Gathers.single (hv : v.parts? = some parts) (h : Gathers parts ls) : Gathers [v] ls := by
  rw [← List.append_nil ls]
  exact .holder hv h .nil

theorem Gathers.eq (h : Gathers vs ls) : leavesOfAll vs = ls := by
  induction h with
  | nil => rfl
  | leaf hv _ ih => rw [leavesOfAll, leaves_leaf hv, ih]; rfl
  | holder hv _ _ ihparts ih => rw [leavesOfAll, leaves_holder hv, ihparts, ih]

theorem gathers_states (states : List State) : Gathers (states.map state) (states.map state) := by
  induction states with
  | nil => exact .nil
  | cons s states ih => exact .leaf rfl ih

end

mutual

theorem gathers_leaves : ∀ v : Value, Gathers [v] v.leaves
  | list items | tuple items | set items | stream _ items => .single rfl (gathers_leavesOfAll items)
  | map entries => .single rfl (gathers_leavesOfEntries entries)
  | vector states => .single rfl (gathers_states states)
  | null | bool _ | int _ | float _ | str _ | torn _ | state _ | trit _ | operator _ | bytes _ | record _ _ | function _
  | stamp _ _ | duration _ => .leaf rfl .nil

theorem gathers_leavesOfAll : ∀ vs : List Value, Gathers vs (leavesOfAll vs)
  | [] => .nil
  | v :: vs => (gathers_leaves v).append (gathers_leavesOfAll vs)

theorem gathers_leavesOfEntries : ∀ entries : Entries, Gathers (entries.map (·.2)) (leavesOfEntries entries)
  | [] => .nil
  | (_, v) :: entries => (gathers_leaves v).append (gathers_leavesOfEntries entries)

end

theorem gathers_iff {vs ls : List Value} : Gathers vs ls ↔ leavesOfAll vs = ls :=
  ⟨Gathers.eq, fun h => h ▸ gathers_leavesOfAll vs⟩

/-! ## Coercing leaves -/

/-- Whether the error is that a value has no state, and tells its text, or its type if it
    has none. -/
structure Names (e : Error) (v : Value) : Prop where
  family : e.family = .unsupportedValue
  details : e.details = if v.script?.isSome then [("value", v)] else [("type", .str v.typeName)]

abbrev StandsFor (v : Value) (s : State) : Prop := v.toState = .ok s

def hasState (v : Value) : Bool := v.toState.isOk

def firstStateless? (vs : List Value) : Option Value := vs.find? (!·.hasState)

theorem toState_names (v : Value) : FailsAs (Names · v) v.toState := by
  cases v with
  | null | bool | int | state | trit => trivial
  | str s =>
    rw [toState]
    cases State.ofText? s with
    | none => exact ⟨rfl, rfl⟩
    | some found => trivial
  | operator o =>
    rw [toState]
    cases State.ofText? o.word with
    | none => exact ⟨rfl, rfl⟩
    | some found => trivial
  | _ => exact ⟨rfl, rfl⟩

/-- By induction on the values: they are coerced in order, up to the first that has no
    state. -/
theorem toStates_ends (vs : List Value) :
    Ends (fun e => ∃ v, firstStateless? vs = some v ∧ Names e v)
      (fun states => firstStateless? vs = none ∧ List.Forall₂ StandsFor vs states)
      (toStates vs) := by
  induction vs with
  | nil => exact ⟨rfl, .nil⟩
  | cons v vs ih =>
    have hnames := toState_names v
    rw [toStates, firstStateless?, List.find?_cons, hasState]
    cases hv : v.toState with
    | error e =>
      rw [hv] at hnames
      exact ⟨v, rfl, hnames⟩
    | ok s => exact ih.bind fun states ⟨hnone, hstates⟩ => ⟨hnone, .cons hv hstates⟩

theorem firstStateless?_eq_none {vs : List Value} : firstStateless? vs = none ↔ ∀ v ∈ vs, v.hasState = true := by
  simp [firstStateless?]

/-- Values that all have states are coerced to them. -/
theorem exists_states {vs : List Value} (h : ∀ v ∈ vs, v.hasState = true) :
    ∃ states, toStates vs = .ok states ∧ List.Forall₂ StandsFor vs states := by
  have hends := toStates_ends vs
  rw [firstStateless?_eq_none.2 h] at hends
  cases hstates : toStates vs with
  | error e =>
    rw [hstates] at hends
    obtain ⟨v, hv, -⟩ := hends
    cases hv
  | ok states =>
    rw [hstates] at hends
    exact ⟨states, rfl, hends.2⟩

theorem toStates_standing {vs : List Value} {states : List State} (h : List.Forall₂ StandsFor vs states) :
    toStates vs = .ok states := by
  induction h with
  | nil => rfl
  | @cons v s vs states hv _ ih =>
    rw [toStates, show v.toState = .ok s from hv, ih]
    rfl

theorem toStates_eq_mapM (vs : List Value) : toStates vs = vs.mapM toState := by
  induction vs with
  | nil => rfl
  | cons v vs ih => rw [toStates, List.mapM_cons, ih]

theorem toStates_append (vs ws : List Value) :
    toStates (vs ++ ws) = do
      let states ← toStates vs
      let others ← toStates ws
      return states ++ others := by
  rw [toStates_eq_mapM, toStates_eq_mapM, toStates_eq_mapM, List.mapM_append]

theorem leafStates_gathers {v : Value} {leaves : List Value} (h : Gathers [v] leaves) :
    v.leafStates = toStates leaves := by
  rw [leafStates, ← leavesOfAll_singleton, h.eq]

theorem toVector_gathers {v : Value} {leaves : List Value} (hv : v ≠ .null) (h : Gathers [v] leaves) :
    v.toVector = toStates leaves := by
  rw [← leafStates_gathers h]
  cases v with
  | null => exact absurd rfl hv
  | _ => rfl

theorem toStates_states (states : List State) : toStates (states.map state) = .ok states :=
  toStates_standing (List.forall₂_map_left_iff.2 (List.forall₂_same.2 fun _ _ => rfl))

theorem toVector_vector (states : List State) : (vector states).toVector = .ok states := toStates_states states

theorem leafStates_append (vs ws : List Value) :
    (tuple (vs ++ ws)).leafStates = do
      let states ← (tuple vs).leafStates
      let others ← (tuple ws).leafStates
      return states ++ others := by
  show toStates (leavesOfAll (vs ++ ws)) = _
  rw [leavesOfAll_append, toStates_append]
  rfl

end Value

/-! ## Folding leaves -/

namespace Algebra

open Value

/-- Some values, and the same with the state that an operation gives for a run of them in
    place of the run, at any depth. -/
inductive Reduced (f : List Value → Except Error State) : List Value → List Value → Prop
  | run {before run after : List Value} {s : State} :
      f run = .ok s → Reduced f (before ++ run ++ after) (before ++ [.state s] ++ after)
  | inside {before after parts parts' : List Value} {v v' : Value} :
      v.parts? = some parts → v'.parts? = some parts' → Reduced f parts parts' →
      Reduced f (before ++ [v] ++ after) (before ++ [v'] ++ after)

section

variable (op : State → State → State) (start : State)

/-- The states at the leaves of some values, folded from the left. -/
def folded (values : List Value) : Except Error State := do
  return (← (tuple values).leafStates).foldl op start

/-- Whether the result is the fold of the states of leaves, or else the error that names
    the first that has none. -/
def Folds (leaves : List Value) (result : Except Error State) : Prop :=
  Ends (fun e => ∃ v, firstStateless? leaves = some v ∧ Names e v)
    (fun s => firstStateless? leaves = none ∧
      ∃ states, List.Forall₂ StandsFor leaves states ∧ s = states.foldl op start)
    result

theorem folds_folded (values : List Value) : Folds op start (leavesOfAll values) (folded op start values) :=
  (toStates_ends (leavesOfAll values)).bind fun states ⟨hnone, hstates⟩ => ⟨hnone, states, hstates, rfl⟩

theorem folded_gathers {values leaves : List Value} (h : Gathers values leaves) :
    folded op start values = (do return (← toStates leaves).foldl op start) := by
  rw [← h.eq]
  rfl

theorem folded_holder {v : Value} {parts : List Value} (h : v.parts? = some parts) :
    folded op start [v] = folded op start parts := by
  rw [folded_gathers op start (.single h (gathers_leavesOfAll parts)), folded_gathers op start (gathers_leavesOfAll parts)]

variable [Std.LawfulIdentity op start]

theorem folded_state (s : State) : folded op start [.state s] = .ok s :=
  congrArg Except.ok (Std.LawfulLeftIdentity.left_id s)

variable [Std.Associative op]

theorem foldl_append_eq (states others : List State) :
    (states ++ others).foldl op start = op (states.foldl op start) (others.foldl op start) := by
  have hneutral : ∀ s, op s start = s := Std.LawfulRightIdentity.right_id
  rw [List.foldl_append, ← @List.foldl_assoc _ op, hneutral]

/-- An operation that may be bracketed anyhow gives for some values what it makes of the
    results for two parts of them. -/
theorem folded_append (values others : List Value) :
    folded op start (values ++ others) = do
      let s ← folded op start values
      let t ← folded op start others
      return op s t := by
  simp only [folded, leafStates_append, bind_assoc, pure_bind, foldl_append_eq op start]

theorem folded_congr {values values' : List Value} (h : folded op start values = folded op start values')
    (before after : List Value) :
    folded op start (before ++ values ++ after) = folded op start (before ++ values' ++ after) := by
  rw [folded_append, folded_append, folded_append op start _ after, folded_append op start before values', h]

/-- By induction on where the run stands: the container that it is in is combined like
    what the container holds. -/
theorem folded_reduced {values values' : List Value} (h : Reduced (folded op start) values values') :
    folded op start values = folded op start values' := by
  induction h with
  | run hrun => exact folded_congr op start (by rw [hrun, folded_state]) _ _
  | inside hv hv' _ ih => exact folded_congr op start (by rw [folded_holder op start hv, folded_holder op start hv', ih]) _ _

end

theorem all_eq_folded : all = folded State.and .yes := by
  funext values
  simp only [all, folded, Vote.all_eq_foldl]

theorem any_eq_folded : any = folded State.or .no := by
  funext values
  simp only [any, folded, Vote.any_eq_foldl]

/-- Conjunction and disjunction of nested values fold the states of their leaves, or stop
    with the error about the first leaf without one. So they depend on the leaves alone,
    however these are nested, and a run of values may be replaced by what they give for
    it. -/
theorem variadic_folds :
    (∀ values : List Value, (∀ leaves, Gathers values leaves ↔ leavesOfAll values = leaves) ∧
      Folds State.and .yes (leavesOfAll values) (all values) ∧
      Folds State.or .no (leavesOfAll values) (any values)) ∧
    (∀ values values' leaves : List Value, Gathers values leaves → Gathers values' leaves →
      all values = all values' ∧ any values = any values') ∧
    ∀ values values' : List Value, (Reduced all values values' → all values = all values') ∧
      (Reduced any values values' → any values = any values') := by
  rw [all_eq_folded, any_eq_folded]
  refine ⟨fun values => ⟨fun _ => gathers_iff, folds_folded _ _ values, folds_folded _ _ values⟩, ?_,
    fun values values' => ⟨folded_reduced _ _, folded_reduced _ _⟩⟩
  intro values values' leaves h h'
  constructor
  · rw [folded_gathers _ _ h, folded_gathers _ _ h']
  · rw [folded_gathers _ _ h, folded_gathers _ _ h']

/-- A mapping, a vector and empty containers hold the same leaves as a plain list, and a
    list deep in a mapping is replaced by its disjunction. -/
theorem variadic_folds_nested :
    let nested : List Value := [.list [.bool true, .tuple []], .map [(.int 7, .str " Maybe"), (.int 5, .vector [.no])]]
    let plain : List Value := [.bool true, .str " Maybe", .state .no]
    let whole : List Value := [.map [(.str "k", .list [.int 0, .list [.trit .zero, .null]])], .bytes []]
    let reduced : List Value := [.map [(.str "k", .list [.int 0, .state .unknown])], .bytes []]
    (Gathers nested plain ∧ Gathers plain plain ∧ all nested = all plain ∧ all plain = .ok .no) ∧
      Reduced any whole reduced ∧ any whole = any reduced ∧ any reduced = .error (.unsupportedType "bytes") := by
  intro nested plain whole reduced
  have hnested : Gathers nested plain := gathers_leavesOfAll nested
  have hplain : Gathers plain plain := gathers_leavesOfAll plain
  have hrun : any [.list [.trit .zero, .null]] = .ok .unknown := rfl
  have hlist : Reduced any [.int 0, .list [.trit .zero, .null]] [.int 0, .state .unknown] :=
    @Reduced.run any [.int 0] [.list [.trit .zero, .null]] [] _ hrun
  have hmap : Reduced any [.list [.int 0, .list [.trit .zero, .null]]] [.list [.int 0, .state .unknown]] :=
    @Reduced.inside any [] [] _ _ _ _ rfl rfl hlist
  have hwhole : Reduced any whole reduced := @Reduced.inside any [] [.bytes []] _ _ _ _ rfl rfl hmap
  exact ⟨⟨hnested, hplain, (variadic_folds.2.1 nested plain plain hnested hplain).1, rfl⟩, hwhole,
    (variadic_folds.2.2 whole reduced).2 hwhole, rfl⟩

end Algebra
end Verdict
