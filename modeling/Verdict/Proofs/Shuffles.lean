/-
  Verdict.Proofs.Shuffles — the canonical text tells plain values apart, up to the order of
  the entries of mappings.

  Two values are shuffled when they are equal but for that order, at any depth
  (`Shuffled`). Sorting the members of an object by their names forgets their order and
  nothing else, as long as no name stands twice (`sortMembers_eq_iff`), and the compact
  text of an object is read back, so two plain values have one canonical text exactly when
  they are shuffled (`canonicalText_eq_iff`). What is inside a string never counts: a
  string is told apart from the number, word or list that it spells.
-/

import Verdict.Proofs.PlainData
import Mathlib.Data.List.Perm.Basic
import Mathlib.Data.String.Basic

namespace Verdict

/-! ## Sorted members -/

namespace Json

/-- Whether members stand in the order of their names, each name once. -/
def Sorted (ms : List (Script × Json)) : Prop := ms.Pairwise fun m n => m.1 < n.1

theorem mem_insertMember {name : Script} {v : Json} {ms : List (Script × Json)} {m : Script × Json}
    (h : m ∈ insertMember name v ms) : m = (name, v) ∨ m ∈ ms := by
  induction ms with
  | nil => exact .inl (List.mem_singleton.1 h)
  | cons n ms ih =>
    obtain ⟨a, w⟩ := n
    rw [insertMember] at h
    split at h
    · exact List.mem_cons.1 h
    · split at h
      · exact (List.mem_cons.1 h).imp_right (List.mem_cons_of_mem _)
      · rcases List.mem_cons.1 h with rfl | h
        · exact .inr List.mem_cons_self
        · exact (ih h).imp_right (List.mem_cons_of_mem _)

theorem Sorted.insertMember {ms : List (Script × Json)} (h : Sorted ms) (name : Script) (v : Json) :
    Sorted (insertMember name v ms) := by
  induction ms with
  | nil => exact List.pairwise_singleton _ _
  | cons n ms ih =>
    obtain ⟨a, w⟩ := n
    obtain ⟨hhead, htail⟩ := List.pairwise_cons.1 h
    rw [Json.insertMember]
    split
    · next hlt =>
      refine List.pairwise_cons.2 ⟨fun m hm => ?_, h⟩
      rcases List.mem_cons.1 hm with rfl | hm
      · exact hlt
      · exact Script.lt_trans hlt (hhead m hm)
    · next hge =>
      split
      · next heq =>
        subst heq
        exact List.pairwise_cons.2 ⟨hhead, htail⟩
      · next hne =>
        refine List.pairwise_cons.2 ⟨fun m hm => ?_, ih htail⟩
        rcases mem_insertMember hm with rfl | hm
        · exact (Script.lt_or_lt (Ne.symm hne)).resolve_right hge
        · exact hhead m hm

/-- A member of a new name is put among the others. -/
theorem insertMember_perm {name : Script} (v : Json) {ms : List (Script × Json)} (h : name ∉ ms.map Prod.fst) :
    (insertMember name v ms).Perm ((name, v) :: ms) := by
  induction ms with
  | nil => exact .refl _
  | cons n ms ih =>
    obtain ⟨a, w⟩ := n
    obtain ⟨hne, hrest⟩ := List.ne_and_not_mem_of_not_mem_cons h
    rw [insertMember]
    split
    · exact .refl _
    · exact ((ih hrest).cons _).trans (.swap _ _ _)

theorem sorted_sortMembers (ms : List (Script × Json)) : Sorted (sortMembers ms) := by
  have fold : ∀ acc, Sorted acc → Sorted (ms.foldl (fun acc m => insertMember m.1 m.2 acc) acc) := by
    induction ms with
    | nil => exact fun _ h => h
    | cons m ms ih => exact fun acc h => ih _ (h.insertMember m.1 m.2)
  exact fold [] .nil

theorem sortMembers_perm {ms : List (Script × Json)} (h : (ms.map Prod.fst).Nodup) : (sortMembers ms).Perm ms := by
  have fold : ∀ acc : List (Script × Json), ((ms ++ acc).map Prod.fst).Nodup →
      (ms.foldl (fun acc m => insertMember m.1 m.2 acc) acc).Perm (ms ++ acc) := by
    clear h
    induction ms with
    | nil => exact fun acc _ => .refl acc
    | cons m ms ih =>
      intro acc h
      have hmove : (ms ++ m :: acc).Perm (m :: ms ++ acc) := List.perm_middle
      have hnodup : ((ms ++ m :: acc).map Prod.fst).Nodup := ((hmove.map Prod.fst).nodup_iff).2 h
      have hnew : m.1 ∉ acc.map Prod.fst := by
        rw [List.map_append, List.map_cons] at hnodup
        exact (List.nodup_cons.1 (List.nodup_append.1 hnodup).2.1).1
      have hinsert := (insertMember_perm m.2 hnew).append_left ms
      rw [List.foldl_cons]
      exact ((ih _ (((hinsert.map Prod.fst).nodup_iff).2 hnodup)).trans hinsert).trans hmove
  have hfold := fold [] (by rwa [List.append_nil])
  rwa [List.append_nil] at hfold

/-- Members with different names are known from the sorted ones up to their order. -/
theorem sortMembers_eq_iff {ms ns : List (Script × Json)} (hms : (ms.map Prod.fst).Nodup)
    (hns : (ns.map Prod.fst).Nodup) : sortMembers ms = sortMembers ns ↔ ms.Perm ns := by
  constructor
  · intro h
    have hperm := sortMembers_perm hns
    rw [← h] at hperm
    exact (sortMembers_perm hms).symm.trans hperm
  · intro h
    refine List.Perm.eq_of_pairwise ?_ (sorted_sortMembers ms) (sorted_sortMembers ns)
      (((sortMembers_perm hms).trans h).trans (sortMembers_perm hns).symm)
    exact fun _ _ _ _ hlt hgt => absurd (Script.lt_trans hlt hgt) (Script.lt_irrefl _)

end Json

namespace Value

/-! ## Values with their entries in another order -/

mutual

/-- Equal but for the order of the entries of mappings, at any depth. -/
inductive Shuffled : Value → Value → Prop
  | atom {v : Value} : v.isAtom = true → Shuffled v v
  | list {vs ws : List Value} : AllShuffled vs ws → Shuffled (.list vs) (.list ws)
  | map {es gs fs : Entries} : EntriesShuffled es gs → gs.Perm fs → Shuffled (.map es) (.map fs)

/-- Element by element. -/
inductive AllShuffled : List Value → List Value → Prop
  | nil : AllShuffled [] []
  | cons {v w : Value} {vs ws : List Value} : Shuffled v w → AllShuffled vs ws → AllShuffled (v :: vs) (w :: ws)

/-- The same keys in the same order, and value by value. -/
inductive EntriesShuffled : Entries → Entries → Prop
  | nil : EntriesShuffled [] []
  | cons {k v w : Value} {es fs : Entries} : Shuffled v w → EntriesShuffled es fs →
      EntriesShuffled ((k, v) :: es) ((k, w) :: fs)

end

/-! ## Entries of plain mappings -/

theorem canonicalEntries_eq (entries : Entries) :
    canonicalEntries entries = entries.map fun e => (e.1.keyText, e.2.canonical) := by
  induction entries with
  | nil => rfl
  | cons e rest ih => rw [canonicalEntries, List.map_cons, ih]

/-- Whether the key of an entry is a text and its value plain. -/
def PlainEntry (e : Value × Value) : Prop := (∃ name, e.1 = .ofScript name) ∧ e.2.isPlain = true

theorem plainEntry_of_mem {entries : Entries} (h : entriesArePlain entries = true) : ∀ e ∈ entries, PlainEntry e := by
  induction entries with
  | nil => exact List.forall_mem_nil _
  | cons e rest ih =>
    obtain ⟨k, v⟩ := e
    obtain ⟨⟨name, hname, -⟩, hv, hrest⟩ := entriesArePlain_cons.1 h
    exact List.forall_mem_cons.2 ⟨⟨⟨name, hname⟩, hv⟩, ih hrest⟩

/-- No name stands twice among the members of a plain mapping. -/
theorem nodup_canonicalEntries {entries : Entries} (h : entriesArePlain entries = true) :
    ((canonicalEntries entries).map Prod.fst).Nodup := by
  induction entries with
  | nil => exact List.nodup_nil
  | cons e rest ih =>
    obtain ⟨k, v⟩ := e
    obtain ⟨⟨name, rfl, hfresh⟩, -, hrest⟩ := entriesArePlain_cons.1 h
    refine List.nodup_cons.2 ⟨fun hmem => ?_, ih hrest⟩
    rw [canonicalEntries_eq, List.map_map] at hmem
    obtain ⟨⟨k', v'⟩, he, hkey⟩ := List.mem_map.1 hmem
    obtain ⟨⟨other, rfl⟩, -⟩ := plainEntry_of_mem hrest _ he
    have hname : other = name := by simpa using hkey
    rw [Table.find?, Option.map_eq_none_iff, List.find?_eq_none] at hfresh
    exact hfresh _ he ((same_ofScript other name).2 hname)

/-! ## Shuffled values have one canonical form -/

mutual

theorem Shuffled.canonical_eq : ∀ {v w : Value}, Shuffled v w → v.isPlain = true → w.isPlain = true →
    v.canonical = w.canonical
  | _, _, .atom _, _, _ => rfl
  | _, _, .list h, hv, hw => by
    rw [isPlain] at hv hw
    rw [canonical, canonical, h.canonicalAll_eq hv hw]
  | _, _, @Shuffled.map es gs fs h hperm, hv, hw => by
    rw [isPlain] at hv hw
    have hgs : ∀ e ∈ gs, PlainEntry e := fun e he => plainEntry_of_mem hw e (hperm.subset he)
    have heq : canonicalEntries es = canonicalEntries gs := h.canonicalEntries_eq (plainEntry_of_mem hv) hgs
    have hentries : (canonicalEntries es).Perm (canonicalEntries fs) := by
      rw [heq, canonicalEntries_eq, canonicalEntries_eq]
      exact hperm.map _
    rw [canonical, canonical,
      (Json.sortMembers_eq_iff (nodup_canonicalEntries hv) (nodup_canonicalEntries hw)).2 hentries]

theorem AllShuffled.canonicalAll_eq : ∀ {vs ws : List Value}, AllShuffled vs ws → arePlain vs = true →
    arePlain ws = true → canonicalAll vs = canonicalAll ws
  | _, _, .nil, _, _ => rfl
  | _, _, .cons h hrest, hv, hw => by
    simp only [arePlain, Bool.and_eq_true] at hv hw
    rw [canonicalAll, canonicalAll, h.canonical_eq hv.1 hw.1, hrest.canonicalAll_eq hv.2 hw.2]

theorem EntriesShuffled.canonicalEntries_eq : ∀ {es fs : Entries}, EntriesShuffled es fs →
    (∀ e ∈ es, PlainEntry e) → (∀ e ∈ fs, PlainEntry e) → canonicalEntries es = canonicalEntries fs
  | _, _, .nil, _, _ => rfl
  | _, _, .cons h hrest, he, hf => by
    obtain ⟨hv, he⟩ := List.forall_mem_cons.1 he
    obtain ⟨hw, hf⟩ := List.forall_mem_cons.1 hf
    rw [canonicalEntries, canonicalEntries, h.canonical_eq hv.2 hw.2, hrest.canonicalEntries_eq he hf]

end

/-! ## One canonical form makes values shuffled -/

mutual

/-- By recursion on the first value; what the second one is made of is known from the
    canonical form. -/
theorem shuffled_of_canonical : ∀ {v w : Value}, v.isPlain = true → w.isPlain = true →
    v.canonical = w.canonical → Shuffled v w
  | .null, w, hv, hw, h | .bool _, w, hv, hw, h | .int _, w, hv, hw, h | .str _, w, hv, hw, h
  | .torn _, w, hv, hw, h => by
    cases (Reordered.mk hv hw h).form with
    | atom hatom => exact .atom hatom
  | .list vs, w, hv, hw, h => by
    cases (Reordered.mk hv hw h).form with
    | atom hatom => cases hatom
    | list =>
      rw [isPlain] at hv hw
      exact .list (allShuffled_of_canonical hv hw (Json.array.inj h))
  | .map es, w, hv, hw, h => by
    cases (Reordered.mk hv hw h).form with
    | atom hatom => cases hatom
    | @map _ fs he hf =>
      have hperm := (Json.sortMembers_eq_iff (nodup_canonicalEntries he) (nodup_canonicalEntries hf)).1
        (Json.object.inj h)
      -- the entries of the second mapping, in the order of the first
      have hmembers : List.Forall₂ (fun m (e : Value × Value) => m = (e.1.keyText, e.2.canonical))
          (canonicalEntries fs) fs := by
        rw [canonicalEntries_eq, List.forall₂_map_left_iff]
        exact List.forall₂_same.2 fun _ _ => rfl
      obtain ⟨gs, hgs, hgsfs⟩ := List.perm_comp_forall₂ hperm hmembers
      have heq : canonicalEntries es = canonicalEntries gs := by
        rw [canonicalEntries_eq gs, ← List.forall₂_eq_eq_eq, List.forall₂_map_right_iff]
        exact hgs
      have hplain : ∀ e ∈ gs, PlainEntry e := fun e hmem => plainEntry_of_mem hf e (hgsfs.subset hmem)
      exact .map (entriesShuffled_of_canonical (plainEntry_of_mem he) hplain heq) hgsfs

theorem allShuffled_of_canonical : ∀ {vs ws : List Value}, arePlain vs = true → arePlain ws = true →
    canonicalAll vs = canonicalAll ws → AllShuffled vs ws
  | [], [], _, _, _ => .nil
  | [], _ :: _, _, _, h => nomatch h
  | _ :: _, [], _, _, h => nomatch h
  | v :: vs, w :: ws, hv, hw, h => by
    simp only [arePlain, Bool.and_eq_true] at hv hw
    obtain ⟨hhead, htail⟩ := List.cons.inj h
    exact .cons (shuffled_of_canonical hv.1 hw.1 hhead) (allShuffled_of_canonical hv.2 hw.2 htail)

theorem entriesShuffled_of_canonical : ∀ {es fs : Entries}, (∀ e ∈ es, PlainEntry e) → (∀ e ∈ fs, PlainEntry e) →
    canonicalEntries es = canonicalEntries fs → EntriesShuffled es fs
  | [], [], _, _, _ => .nil
  | [], _ :: _, _, _, h => nomatch h
  | _ :: _, [], _, _, h => nomatch h
  | (k, v) :: es, (k', w) :: fs, he, hf, h => by
    obtain ⟨⟨⟨name, hname⟩, hv⟩, hes⟩ := List.forall_mem_cons.1 he
    obtain ⟨⟨⟨name', hname'⟩, hw⟩, hfs⟩ := List.forall_mem_cons.1 hf
    obtain ⟨hhead, htail⟩ := List.cons.inj h
    obtain ⟨hkey, hvalue⟩ := Prod.mk.inj hhead
    obtain rfl : k = .ofScript name := hname
    obtain rfl : k' = .ofScript name' := hname'
    obtain rfl : name = name' := by simpa using hkey
    exact .cons (shuffled_of_canonical hv hw hvalue) (entriesShuffled_of_canonical hes hfs htail)

end

/-- Two plain values have one canonical text exactly when they are equal but for the order
    of the entries of mappings. -/
theorem canonicalText_eq_iff {v w : Value} (hv : v.isPlain = true) (hw : w.isPlain = true) :
    v.canonicalText = w.canonicalText ↔ Shuffled v w := by
  constructor
  · intro h
    exact shuffled_of_canonical hv hw (canonicalText_inj hv hw h)
  · intro h
    rw [canonicalText, canonicalText, h.canonical_eq hv hw]

/-- Two mappings, one in the other, with their entries the other way round; a truth value
    and a string in the place of the number 1. -/
theorem canonicalText_eq_iff_nested :
    let items : Value := .list [.int 1, .null]
    let v : Value := .map [(.str "b", items), (.str "a", .map [(.str "x", .bool true), (.str "y", .str "1,")])]
    let w : Value := .map [(.str "a", .map [(.str "y", .str "1,"), (.str "x", .bool true)]), (.str "b", items)]
    let ones : Value := .list [.int 1, .int 1]
    v.canonicalText = w.canonicalText ∧ (Value.list [.bool true, .int 1]).canonicalText ≠ ones.canonicalText ∧
      (Value.list [.int 1, .str "1"]).canonicalText ≠ ones.canonicalText := by
  intro items v w ones
  refine ⟨(canonicalText_eq_iff rfl rfl).2 ?_, fun h => ?_, fun h => ?_⟩
  · have hitems : Shuffled items items := .list (.cons (.atom rfl) (.cons (.atom rfl) .nil))
    have hinner : EntriesShuffled [(.str "x", .bool true), (.str "y", .str "1,")]
        [(.str "x", .bool true), (.str "y", .str "1,")] := .cons (.atom rfl) (.cons (.atom rfl) .nil)
    exact .map (.cons hitems (.cons (.map hinner (.swap _ _ [])) .nil)) (.swap _ _ [])
  · have hones : Shuffled (.list [.bool true, .int 1]) (.list [.int 1, .int 1]) := (canonicalText_eq_iff rfl rfl).1 h
    cases hones with
    | list hall => cases hall with | cons hfirst _ => cases hfirst
  · have hones : Shuffled (.list [.int 1, .str "1"]) (.list [.int 1, .int 1]) := (canonicalText_eq_iff rfl rfl).1 h
    cases hones with
    | list hall => cases hall with | cons _ hrest => cases hrest with | cons hsecond _ => cases hsecond

end Value

end Verdict
