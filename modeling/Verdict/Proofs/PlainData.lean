/-
  Verdict.Proofs.PlainData — plain data and its canonical form.

  Plain data is what a document without floats describes: nothing, truth values, whole
  numbers, texts, lists, and mappings from texts in which each name stands once. Two
  such values of one canonical text have one canonical form (`canonicalText_inj`), and then
  they differ in the order of their mappings only: they are equal where they have no parts,
  and so on element by element and under every name (`Reordered.form`).
-/

import Verdict.Canonical
import Verdict.Proofs.JsonText
import Verdict.Proofs.Keys
import Mathlib.Data.List.Forall2

namespace Verdict

namespace Value

/-! ## Plain data -/

/-- Whether a value is a text, whole or torn. -/
def isScript : Value → Bool
  | str _ | torn _ => true
  | _ => false

mutual

def isPlain : Value → Bool
  | null | bool _ | int _ | str _ | torn _ => true
  | list items => arePlain items
  | map entries => entriesArePlain entries
  | _ => false
termination_by structural v => v

def arePlain : List Value → Bool
  | [] => true
  | v :: vs => isPlain v && arePlain vs
termination_by structural vs => vs

/-- Whether all names are texts, each stands once, and all values are plain. -/
def entriesArePlain : List (Value × Value) → Bool
  | [] => true
  | (k, v) :: rest =>
    isScript k && !Table.contains rest k && isPlain v && entriesArePlain rest
termination_by structural vs => vs

end

theorem entriesArePlain_cons {k v : Value} {rest : Entries} :
    entriesArePlain ((k, v) :: rest) = true ↔
      (∃ name, k = .ofScript name ∧ Table.find? rest (.ofScript name) = none) ∧ v.isPlain = true ∧
        entriesArePlain rest = true := by
  have hfind (key : Value) : Table.contains rest key = false ↔ Table.find? rest key = none := by
    simp [Table.contains, Table.find?]
  have hname : isScript k = true ↔ ∃ name, k = .ofScript name := by
    constructor
    · intro h
      cases k <;> simp only [isScript, Bool.false_eq_true] at h
      · exact ⟨.whole _, rfl⟩
      · exact ⟨.torn _, rfl⟩
    · rintro ⟨name, rfl⟩
      cases name <;> rfl
  simp only [entriesArePlain, Bool.and_eq_true, hname, Bool.not_eq_true', hfind, and_assoc]
  constructor
  · rintro ⟨⟨name, rfl⟩, hfresh, hv, hrest⟩
    exact ⟨⟨name, rfl, hfresh⟩, hv, hrest⟩
  · rintro ⟨⟨name, rfl, hfresh⟩, hv, hrest⟩
    exact ⟨⟨name, rfl⟩, hfresh, hv, hrest⟩

end Value

/-! ## Canonical members -/

namespace Json

theorem membersFloatless_insertMember (name : Script) {v : Json} {ms : List (Script × Json)}
    (hv : v.floatless = true) (hms : membersFloatless ms = true) :
    membersFloatless (insertMember name v ms) = true := by
  induction ms with
  | nil => simp [insertMember, membersFloatless, hv]
  | cons m ms ih =>
    obtain ⟨n, w⟩ := m
    simp only [membersFloatless, Bool.and_eq_true] at hms
    rw [insertMember]
    split
    · simp [membersFloatless, hv, hms]
    · split
      · simp [membersFloatless, hv, hms]
      · simp [membersFloatless, hms.1, ih hms.2]

theorem membersFloatless_sortMembers {ms : List (Script × Json)} (h : membersFloatless ms = true) :
    membersFloatless (sortMembers ms) = true := by
  have fold : ∀ {ms acc : List (Script × Json)}, membersFloatless ms = true →
      membersFloatless acc = true →
      membersFloatless (ms.foldl (fun acc m => insertMember m.1 m.2 acc) acc) = true := by
    intro ms
    induction ms with
    | nil => exact fun _ ha => ha
    | cons m ms ih =>
      intro acc hms ha
      simp only [membersFloatless, Bool.and_eq_true] at hms
      exact ih hms.2 (membersFloatless_insertMember m.1 hms.1 ha)
  exact fold h rfl

theorem lookup_cons_if {α : Type} (name : Script) (a : α) (ms : List (Script × α)) (n : Script) :
    ((name, a) :: ms).lookup n = if n = name then some a else ms.lookup n := by
  by_cases h : n = name
  · simp [h]
  · have hne : (n == name) = false := beq_false_of_ne h
    simp [List.lookup_cons, h, hne]

theorem lookup_insertMember (name : Script) (v : Json) (ms : List (Script × Json)) (n : Script) :
    (insertMember name v ms).lookup n = if n = name then some v else ms.lookup n := by
  induction ms with
  | nil => exact lookup_cons_if name v [] n
  | cons m ms ih =>
    obtain ⟨a, w⟩ := m
    rw [insertMember]
    split
    · exact lookup_cons_if name v _ n
    · split
      · next h => rw [lookup_cons_if, lookup_cons_if, h]; split <;> rfl
      · next h =>
        rw [lookup_cons_if, lookup_cons_if, ih]
        by_cases hn : n = a
        · rw [if_pos hn, if_neg (hn ▸ Ne.symm h), if_pos hn]
        · rw [if_neg hn, if_neg hn]

end Json

namespace Value

mutual

theorem floatless_canonical : ∀ {v : Value}, v.isPlain = true → v.canonical.floatless = true
  | null, _ | bool _, _ | int _, _ | str _, _ | torn _, _ => rfl
  | list items, h => by
    rw [canonical, Json.floatless]
    exact allFloatless_canonical (by rwa [isPlain] at h)
  | map entries, h => by
    rw [canonical, Json.floatless]
    exact Json.membersFloatless_sortMembers (membersFloatless_canonical (by rwa [isPlain] at h))

theorem allFloatless_canonical : ∀ {vs : List Value}, arePlain vs = true →
    Json.allFloatless (canonicalAll vs) = true
  | [], _ => rfl
  | v :: vs, h => by
    simp only [arePlain, Bool.and_eq_true] at h
    simp [canonicalAll, Json.allFloatless, floatless_canonical h.1, allFloatless_canonical h.2]

theorem membersFloatless_canonical : ∀ {entries : Entries}, entriesArePlain entries = true →
    Json.membersFloatless (canonicalEntries entries) = true
  | [], _ => rfl
  | (k, v) :: rest, h => by
    simp only [entriesArePlain, Bool.and_eq_true] at h
    simp [canonicalEntries, Json.membersFloatless, floatless_canonical h.1.2,
      membersFloatless_canonical h.2]

end

/-- Plain values of one canonical text have one canonical form. -/
theorem canonicalText_inj {v w : Value} (hv : v.isPlain = true) (hw : w.isPlain = true)
    (h : v.canonicalText = w.canonicalText) : v.canonical = w.canonical :=
  Json.text_compact_inj (floatless_canonical hv) (floatless_canonical hw) h

/-! ## What the canonical form keeps -/

@[simp] theorem keyText_ofScript (name : Script) : (ofScript name).keyText = name := by
  cases name <;> rfl

/-- Under each name the canonical form of a mapping holds that of the value there. -/
theorem lookup_sortMembers {entries : Entries} (h : entriesArePlain entries = true) (name : Script) :
    (Json.sortMembers (canonicalEntries entries)).lookup name
      = (Table.find? entries (.ofScript name)).map canonical := by
  have fold : ∀ {entries : Entries} {acc : List (Script × Json)}, entriesArePlain entries = true →
      ((canonicalEntries entries).foldl (fun acc m => Json.insertMember m.1 m.2 acc) acc).lookup name
        = ((Table.find? entries (.ofScript name)).map canonical).or (acc.lookup name) := by
    intro entries
    induction entries with
    | nil => exact fun _ => rfl
    | cons e rest ih =>
      intro acc h
      obtain ⟨k, v⟩ := e
      obtain ⟨⟨n, rfl, hfresh⟩, -, hrest⟩ := entriesArePlain_cons.1 h
      rw [canonicalEntries, List.foldl_cons, ih hrest, Json.lookup_insertMember, Table.find?_cons_ofScript,
        keyText_ofScript]
      by_cases hn : n = name
      · rw [if_pos hn, if_pos hn.symm, ← hn, hfresh]
        rfl
      · rw [if_neg hn, if_neg (Ne.symm hn)]
  have hfold := @fold entries [] h
  simpa [Json.sortMembers] using hfold

theorem entries_eq_nil {entries : Entries} (h : entriesArePlain entries = true)
    (hnone : ∀ name, Table.find? entries (.ofScript name) = none) : entries = [] := by
  cases entries with
  | nil => rfl
  | cons e rest =>
    obtain ⟨k, v⟩ := e
    obtain ⟨⟨n, hn, -⟩, -⟩ := entriesArePlain_cons.1 h
    have hfind := hnone n
    rw [hn, Table.find?_cons_ofScript, if_pos rfl] at hfind
    cases hfind

theorem isPlain_find? {entries : Entries} (h : entriesArePlain entries = true) {key v : Value}
    (hv : Table.find? entries key = some v) : v.isPlain = true := by
  induction entries with
  | nil => cases hv
  | cons e rest ih =>
    obtain ⟨k, w⟩ := e
    obtain ⟨-, hw, hrest⟩ := entriesArePlain_cons.1 h
    rw [Table.find?_cons] at hv
    split at hv
    · exact Option.some.inj hv ▸ hw
    · exact ih hrest hv

/-! ## Values that differ in the order of their mappings only -/

/-- Plain values of one canonical form. -/
structure Reordered (v w : Value) : Prop where
  left : v.isPlain = true
  right : w.isPlain = true
  canonical : v.canonical = w.canonical

/-- What two values that differ in the order of their mappings only have in common. -/
inductive Reordered.Form : Value → Value → Prop
  | atom {v : Value} : v.isAtom = true → Form v v
  | list {vs ws : List Value} : List.Forall₂ Reordered vs ws → Form (.list vs) (.list ws)
  | map {es fs : Entries} : entriesArePlain es = true → entriesArePlain fs = true →
      (es = [] ↔ fs = []) →
      (∀ name, Option.Rel Reordered (Table.find? es (.str name)) (Table.find? fs (.str name))) →
      Form (.map es) (.map fs)

theorem reordered_all : ∀ {vs ws : List Value}, arePlain vs = true → arePlain ws = true →
    canonicalAll vs = canonicalAll ws → List.Forall₂ Reordered vs ws
  | [], [], _, _, _ => .nil
  | [], _ :: _, _, _, h => nomatch h
  | _ :: _, [], _, _, h => nomatch h
  | v :: vs, w :: ws, hv, hw, h => by
    simp only [arePlain, Bool.and_eq_true] at hv hw
    obtain ⟨hhead, htail⟩ := List.cons.inj h
    exact .cons ⟨hv.1, hw.1, hhead⟩ (reordered_all hv.2 hw.2 htail)

theorem rel_cases {α : Type} {r : α → α → Prop} {a b : Option α} (h : Option.Rel r a b) :
    (a = none ∧ b = none) ∨ ∃ x y, a = some x ∧ b = some y ∧ r x y := by
  cases h with
  | none => exact .inl ⟨rfl, rfl⟩
  | some h => exact .inr ⟨_, _, rfl, rfl, h⟩

theorem rel_none {α : Type} {r : α → α → Prop} {a b : Option α} (h : Option.Rel r a b) :
    a = none ↔ b = none := by
  cases h <;> simp

theorem reordered_find? {es fs : Entries} (he : entriesArePlain es = true)
    (hf : entriesArePlain fs = true) (h : (Value.map es).canonical = (Value.map fs).canonical)
    (name : Script) :
    Option.Rel Reordered (Table.find? es (.ofScript name)) (Table.find? fs (.ofScript name)) := by
  simp only [canonical, Json.object.injEq] at h
  have hfind := lookup_sortMembers he name
  rw [h, lookup_sortMembers hf name] at hfind
  cases hv : Table.find? es (.ofScript name) with
  | none =>
    rw [hv] at hfind
    rw [Option.map_eq_none_iff.1 hfind]
    exact .none
  | some v =>
    rw [hv] at hfind
    obtain ⟨w, hw, hvw⟩ := Option.map_eq_some_iff.1 hfind
    rw [hw]
    exact .some ⟨isPlain_find? he hv, isPlain_find? hf hw, hvw.symm⟩

/-- One canonical form: equal without parts, element by element in a list, and under each
    name in a mapping. -/
theorem Reordered.form {v w : Value} (h : Reordered v w) : Form v w := by
  obtain ⟨hv, hw, h⟩ := h
  cases v <;> simp only [isPlain, Bool.false_eq_true] at hv <;>
    cases w <;> simp only [isPlain, Bool.false_eq_true] at hw <;>
    simp only [Value.canonical, reduceCtorEq, Json.bool.injEq, Json.int.injEq, Json.str.injEq] at h
  case null.null => exact .atom rfl
  case bool.bool => subst h; exact .atom rfl
  case int.int => subst h; exact .atom rfl
  case str.str => rw [Script.whole.inj h]; exact .atom rfl
  case torn.torn => rw [Script.torn.inj h]; exact .atom rfl
  case list.list vs ws => exact .list (reordered_all hv hw (Json.array.inj h))
  case map.map es fs =>
    have hrel := reordered_find? hv hw (by rw [Value.canonical, Value.canonical]; exact h)
    refine .map hv hw ⟨?_, ?_⟩ fun name => hrel name
    · rintro rfl
      exact entries_eq_nil hw fun name => (rel_none (hrel name)).1 rfl
    · rintro rfl
      exact entries_eq_nil hv fun name => (rel_none (hrel name)).2 rfl

/-- Equal values, or such as differ in the order of their mappings only. -/
def Alike (v w : Value) : Prop := v = w ∨ Reordered v w

/-- What two values that are alike have in common. -/
inductive Alike.Form : Value → Value → Prop
  | same (v : Value) : Form v v
  | list {vs ws : List Value} : List.Forall₂ Alike vs ws → Form (.list vs) (.list ws)
  | map {es fs : Entries} :
      (∀ name, Option.Rel Alike (Table.find? es (.str name)) (Table.find? fs (.str name))) →
      Form (.map es) (.map fs)

theorem Alike.refl (v : Value) : Alike v v := .inl rfl

theorem Alike.form {v w : Value} (h : Alike v w) : Form v w := by
  obtain rfl | h := h
  · exact .same _
  · cases h.form with
    | atom => exact .same _
    | list hall => exact .list (hall.imp fun _ _ => .inr)
    | map _ _ _ hfind =>
      refine .map fun name => ?_
      obtain ⟨he, hf⟩ | ⟨_, _, he, hf, hvw⟩ := rel_cases (hfind name)
      · rw [he, hf]; exact .none
      · rw [he, hf]; exact .some (.inr hvw)

end Value

end Verdict
