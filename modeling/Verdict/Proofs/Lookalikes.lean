/-
  Verdict.Proofs.Lookalikes — what the text of a key tells about the state of a value.

  Of two values that have a state, one canonical text makes one state, but for two digits:
  the digits 0 and -1 are written like the whole numbers 0 and -1, which have other states
  (`Lookalike`). A context shows the value at a place to the key unless a later entry around
  it goes by the same name (`Place.IsHidden`); so two contexts that differ in one value of
  another state have one key exactly when the place is hidden or the values are lookalikes
  (`keys_tell_states`).
-/

import Verdict.Proofs.Memo
import Verdict.Proofs.Shuffles

namespace Verdict

namespace Json

/-! ## Members under their names -/

/-- Under each name the sorted members hold the last one of that name. -/
theorem lookup_sorted (ms : List (Script × Json)) (name : Script) :
    (sortMembers ms).lookup name = ms.reverse.lookup name := by
  have fold : ∀ acc : List (Script × Json), (ms.foldl (fun acc m => insertMember m.1 m.2 acc) acc).lookup name =
      (ms.reverse.lookup name).or (acc.lookup name) := by
    induction ms with
    | nil => exact fun _ => rfl
    | cons m ms ih =>
      intro acc
      rw [List.foldl_cons, ih, lookup_insertMember, List.reverse_cons, List.lookup_append, lookup_cons_if]
      by_cases h : name = m.1
      · simp [h]
      · simp [h]
  have hfold := fold []
  rwa [List.lookup_nil, Option.or_none] at hfold

theorem mem_of_lookup {ms : List (Script × Json)} {name : Script} {j : Json} (h : ms.lookup name = some j) :
    (name, j) ∈ ms := by
  obtain ⟨front, back, rfl, -⟩ := List.lookup_eq_some_iff.1 h
  exact List.mem_append_right _ List.mem_cons_self

theorem Sorted.lookup_of_mem {ms : List (Script × Json)} (h : Sorted ms) {name : Script} {j : Json}
    (hmem : (name, j) ∈ ms) : ms.lookup name = some j := by
  induction ms with
  | nil => cases hmem
  | cons m ms ih =>
    obtain ⟨hhead, htail⟩ := List.pairwise_cons.1 h
    rw [lookup_cons_if]
    rcases List.mem_cons.1 hmem with rfl | hmem
    · rw [if_pos rfl]
    · rw [if_neg (Script.ne_of_lt (hhead _ hmem)).symm, ih htail hmem]

/-- Sorted members are known from what stands under each name. -/
theorem Sorted.ext {ms ns : List (Script × Json)} (hms : Sorted ms) (hns : Sorted ns)
    (h : ∀ name, ms.lookup name = ns.lookup name) : ms = ns := by
  have hmem (m : Script × Json) : m ∈ ms ↔ m ∈ ns :=
    ⟨fun hm => mem_of_lookup ((h m.1).symm.trans (hms.lookup_of_mem hm)),
      fun hm => mem_of_lookup ((h m.1).trans (hns.lookup_of_mem hm))⟩
  have hnodup {ls : List (Script × Json)} (hls : Sorted ls) : ls.Nodup :=
    List.Pairwise.imp (fun hlt heq => Script.ne_of_lt hlt (congrArg Prod.fst heq)) hls
  refine List.Perm.eq_of_pairwise ?_ hms hns ((List.perm_ext_iff_of_nodup (hnodup hms) (hnodup hns)).2 hmem)
  exact fun _ _ _ _ hlt hgt => absurd (Script.lt_trans hlt hgt) (Script.lt_irrefl _)

section

variable {before after : List (Script × Json)} {name : Script}

theorem lookup_around (j : Json) (n : Script) :
    (before ++ (name, j) :: after).lookup n =
      (before.lookup n).or (if n = name then some j else after.lookup n) := by
  rw [List.lookup_append, lookup_cons_if]

/-- A member that a later one of its name replaces leaves no trace. -/
theorem sortMembers_hidden (h : name ∈ after.map Prod.fst) (j k : Json) :
    sortMembers (before ++ (name, j) :: after) = sortMembers (before ++ (name, k) :: after) := by
  refine (sorted_sortMembers _).ext (sorted_sortMembers _) fun n => ?_
  simp only [lookup_sorted, List.reverse_append, List.reverse_cons, List.append_assoc, List.singleton_append,
    lookup_around]
  by_cases hn : n = name
  · -- the later member is the one that counts
    obtain ⟨m, hm, hname⟩ := List.mem_map.1 h
    have hsome : (after.reverse.lookup n).isSome :=
      List.lookup_isSome_iff.2 ⟨m, List.mem_reverse.2 hm, by rw [hn, hname, beq_self_eq_true]⟩
    obtain ⟨found, hfound⟩ := Option.isSome_iff_exists.1 hsome
    rw [hfound, Option.some_or, Option.some_or]
  · rw [if_neg hn, if_neg hn]

/-- Any other member has its place among the sorted ones, whatever it holds. -/
theorem sortMembers_shown (before : List (Script × Json)) (h : name ∉ after.map Prod.fst) :
    ∃ front back, ∀ j, sortMembers (before ++ (name, j) :: after) = front ++ (name, j) :: back := by
  have hafter : after.reverse.lookup name = none := by
    refine List.lookup_eq_none_iff.2 fun m hm => bne_iff_ne.2 ?_
    rintro rfl
    exact h (List.mem_map.2 ⟨m, List.mem_reverse.1 hm, rfl⟩)
  have hlookup (j : Json) (n : Script) : (sortMembers (before ++ (name, j) :: after)).lookup n =
      if n = name then some j else (after.reverse.lookup n).or (before.reverse.lookup n) := by
    simp only [lookup_sorted, List.reverse_append, List.reverse_cons, List.append_assoc, List.singleton_append,
      lookup_around]
    by_cases hn : n = name
    · rw [hn, hafter, if_pos rfl, if_pos rfl, Option.none_or]
    · rw [if_neg hn, if_neg hn]
  obtain ⟨front, back, hsplit, hfront⟩ := List.lookup_eq_some_iff.1 ((hlookup .null name).trans (if_pos rfl))
  have hfront : front.lookup name = none := List.lookup_eq_none_iff.2 hfront
  refine ⟨front, back, fun j => (sorted_sortMembers _).ext ?_ fun n => ?_⟩
  · have hnull := sorted_sortMembers (before ++ (name, .null) :: after)
    rw [hsplit, Sorted, ← List.pairwise_map (f := Prod.fst) (R := (· < ·)), List.map_append, List.map_cons] at hnull
    rwa [Sorted, ← List.pairwise_map (f := Prod.fst) (R := (· < ·)), List.map_append, List.map_cons]
  · have hnull := hlookup .null n
    rw [hsplit, lookup_around] at hnull
    rw [hlookup, lookup_around]
    by_cases hn : n = name
    · rw [hn, hfront, if_pos rfl, if_pos rfl, Option.none_or]
    · rw [if_neg hn, if_neg hn] at hnull
      rw [if_neg hn, if_neg hn, hnull]

end

/-! ## Members in the text -/

/-- What a member holds is one piece of the text of the members. -/
theorem membersChars_around (depth : Nat) (front back : List (Script × Json)) (name : Script) :
    ∃ before after, ∀ j, membersChars depth (front ++ (name, j) :: back) =
      before ++ (chars (depth + 1) j ++ after) := by
  induction front with
  | nil =>
    refine ⟨',' :: '"' :: name.points.flatMap pointChars ++ ['"', ':'], membersChars depth back, fun j => ?_⟩
    rw [List.nil_append, membersChars_cons, memberChars_append]
    simp only [List.append_assoc, List.cons_append, List.nil_append]
  | cons m front ih =>
    obtain ⟨before, after, h⟩ := ih
    refine ⟨',' :: memberChars depth m.1 m.2 ++ before, after, fun j => ?_⟩
    rw [List.cons_append, membersChars_cons, h]
    simp only [List.append_assoc, List.cons_append]

theorem chars_object_around (depth : Nat) (front back : List (Script × Json)) (name : Script) :
    ∃ before after, ∀ j, chars depth (.object (front ++ (name, j) :: back)) =
      before ++ (chars (depth + 1) j ++ after) := by
  cases front with
  | nil =>
    refine ⟨'\x7b' :: '"' :: name.points.flatMap pointChars ++ ['"', ':'], membersChars depth back, fun j => ?_⟩
    rw [List.nil_append, chars_object_cons, memberChars_append]
    simp only [List.append_assoc, List.cons_append, List.nil_append]
  | cons m front =>
    obtain ⟨before, after, h⟩ := membersChars_around depth front back name
    refine ⟨'\x7b' :: memberChars depth m.1 m.2 ++ before, after, fun j => ?_⟩
    rw [List.cons_append, chars_object_cons, h]
    simp only [List.append_assoc, List.cons_append]

/-- What a member holds that no later one replaces is one piece of the text. -/
theorem chars_shown (before : List (Script × Json)) {after : List (Script × Json)} {name : Script}
    (h : name ∉ after.map Prod.fst) (depth : Nat) : ∃ front back, ∀ j,
      chars depth (.object (sortMembers (before ++ (name, j) :: after))) =
        front ++ (chars (depth + 1) j ++ back) := by
  obtain ⟨earlier, later, hsorted⟩ := sortMembers_shown before h
  obtain ⟨front, back, hchars⟩ := chars_object_around depth earlier later name
  exact ⟨front, back, fun j => by rw [hsorted, hchars]⟩

/-- The state of a value that is written like this, as far as the text tells. -/
def told : Json → Option State
  | null => some .unknown
  | bool b => some (.ofBool b)
  | int n => some (.ofInt n)
  | str (.whole s) => State.ofText? s
  | _ => none

end Json

namespace Value

/-! ## Values with a state -/

/-- A digit and the whole number that it is written as, which has another state. -/
inductive Lookalike : Value → Value → Prop
  | zero : Lookalike (.trit .zero) (.int 0)
  | negative : Lookalike (.trit .negative) (.int (-1))

variable {v w : Value} {s t : State}

theorem floatless_of_toState (h : v.toState = .ok s) : v.canonical.floatless = true := by
  cases v <;> first | rfl | cases h

/-- The canonical form tells the state of everything but two digits. -/
theorem told_canonical (h : v.toState = .ok s) :
    v.canonical.told = some s ∨ v = .trit .zero ∨ v = .trit .negative := by
  cases v with
  | null | bool | int => cases h; exact .inl rfl
  | state s => cases h; exact .inl (by cases s <;> decide)
  | trit t =>
    cases h
    cases t with
    | positive => exact .inl rfl
    | zero => exact .inr (.inl rfl)
    | negative => exact .inr (.inr rfl)
  | str text =>
    rw [toState] at h
    cases htext : State.ofText? text with
    | none => rw [htext] at h; cases h
    | some found => rw [htext] at h; cases h; exact .inl htext
  | operator o =>
    rw [toState] at h
    cases htext : State.ofText? o.word with
    | none => rw [htext] at h; cases h
    | some found => rw [htext] at h; cases h; exact .inl htext
  | _ => cases h

theorem of_canonical_int {n : Int} (h : v.canonical = .int n) : v = .int n ∨ ∃ d : Trit, v = .trit d ∧ d.toInt = n := by
  cases v with
  | int m => exact .inl (congrArg Value.int (Json.int.inj h))
  | trit d => exact .inr ⟨d, rfl, Json.int.inj h⟩
  | record kind fields => cases kind <;> cases h
  | _ => cases h

/-- What is written like a digit and has another state is a whole number. -/
theorem lookalike_of_digit {d : Trit} (hd : d = .zero ∨ d = .negative) (hv : v.toState = .ok s)
    (hne : s ≠ .ofTrit d) (h : v.canonical = (Value.trit d).canonical) : Lookalike (.trit d) v := by
  rcases of_canonical_int h with rfl | ⟨d', rfl, hworth⟩
  · rcases hd with rfl | rfl
    · exact .zero
    · exact .negative
  · have hsame : d' = d := by rw [← Trit.ofInt_toInt d', hworth, Trit.ofInt_toInt]
    cases hv
    exact absurd (congrArg State.ofTrit hsame) hne

theorem Lookalike.differ (h : Lookalike v w) (hv : v.toState = .ok s) (hw : w.toState = .ok t) :
    v.canonical = w.canonical ∧ s ≠ t := by
  cases h <;> cases hv <;> cases hw <;> exact ⟨rfl, by decide⟩

/-- Values of one canonical form have one state, lookalikes apart. -/
theorem lookalike_iff (hv : v.toState = .ok s) (hw : w.toState = .ok t) :
    v.canonical = w.canonical ∧ s ≠ t ↔ Lookalike v w ∨ Lookalike w v := by
  constructor
  · rintro ⟨h, hne⟩
    rcases told_canonical hv with htold | hv'
    · rcases told_canonical hw with htold' | hw'
      · rw [h, htold'] at htold
        exact absurd (Option.some.inj htold).symm hne
      · obtain ⟨d, hd, rfl⟩ : ∃ d : Trit, (d = .zero ∨ d = .negative) ∧ w = .trit d := by
          rcases hw' with rfl | rfl
          · exact ⟨_, .inl rfl, rfl⟩
          · exact ⟨_, .inr rfl, rfl⟩
        cases hw
        exact .inr (lookalike_of_digit hd hv hne h)
    · obtain ⟨d, hd, rfl⟩ : ∃ d : Trit, (d = .zero ∨ d = .negative) ∧ v = .trit d := by
        rcases hv' with rfl | rfl
        · exact ⟨_, .inl rfl, rfl⟩
        · exact ⟨_, .inr rfl, rfl⟩
      cases hv
      exact .inl (lookalike_of_digit hd hw hne.symm h.symm)
  · rintro (h | h)
    · exact h.differ hv hw
    · obtain ⟨heq, hne⟩ := h.differ hw hv
      exact ⟨heq.symm, hne.symm⟩

/-! ## Places in a context -/

/-- A place to which a path can lead: the value itself, or a place in an entry of a mapping
    or in a field of an object. -/
inductive Place
  | here
  | entry (before : Entries) (key : Value) (inner : Place) (after : Entries)
  | field (before : List (String × Value)) (name : String) (inner : Place) (after : List (String × Value))

namespace Place

/-- The value with another one at the place. -/
def fill : Place → Value → Value
  | here, v => v
  | entry before key inner after, v => .map (before ++ (key, inner.fill v) :: after)
  | field before name inner after, v => .record .object (before ++ (name, inner.fill v) :: after)

/-- Whether an entry or field around the place is followed by one of the same name. -/
def IsHidden : Place → Prop
  | here => False
  | entry _ key inner after => key.keyText ∈ after.map (fun e => e.1.keyText) ∨ inner.IsHidden
  | field _ name inner after => name ∈ after.map Prod.fst ∨ inner.IsHidden

end Place

theorem canonicalFields_eq (fields : List (String × Value)) :
    canonicalFields fields = fields.map fun f => (.whole f.1, f.2.canonical) := by
  induction fields with
  | nil => rfl
  | cons f rest ih => rw [canonicalFields, List.map_cons, ih]

theorem canonical_entry (before : Entries) (key v : Value) (after : Entries) :
    (Value.map (before ++ (key, v) :: after)).canonical =
      .object (Json.sortMembers (canonicalEntries before ++ (key.keyText, v.canonical) :: canonicalEntries after)) := by
  rw [canonical]
  simp only [canonicalEntries_eq, List.map_append, List.map_cons]

theorem canonical_field (before : List (String × Value)) (name : String) (v : Value)
    (after : List (String × Value)) :
    (Value.record .object (before ++ (name, v) :: after)).canonical =
      .object (Json.sortMembers
        (((Script.whole "__type__", Json.str RecordKind.object.typeName) :: canonicalFields before) ++
          (Script.whole name, v.canonical) :: canonicalFields after)) := by
  rw [canonical, Json.tagged]
  simp only [canonicalFields_eq, List.map_append, List.map_cons, List.cons_append]

/-- The names of fields are whole, and written as they are. -/
theorem mem_canonicalFields {name : String} {fields : List (String × Value)} :
    .whole name ∈ (canonicalFields fields).map Prod.fst ↔ name ∈ fields.map Prod.fst := by
  simp [canonicalFields_eq]

namespace Place

theorem canonical_fill {place : Place} {v w : Value} (h : place.IsHidden ∨ v.canonical = w.canonical) :
    (place.fill v).canonical = (place.fill w).canonical := by
  induction place with
  | here => exact h.resolve_left id
  | entry before key inner after ih =>
    simp only [fill, canonical_entry]
    by_cases hname : key.keyText ∈ after.map fun e => e.1.keyText
    · rw [Json.sortMembers_hidden (by rwa [canonicalEntries_eq, List.map_map])]
    · rw [ih (h.imp_left fun h => h.resolve_left hname)]
  | field before name inner after ih =>
    simp only [fill, canonical_field]
    by_cases hname : name ∈ after.map Prod.fst
    · rw [Json.sortMembers_hidden (mem_canonicalFields.2 hname)]
    · rw [ih (h.imp_left fun h => h.resolve_left hname)]

/-- What stands at a place that nothing hides is one piece of the text. -/
theorem chars_fill {place : Place} (h : ¬place.IsHidden) (depth : Nat) :
    ∃ inner front back, ∀ v, Json.chars depth (place.fill v).canonical =
      front ++ (Json.chars inner v.canonical ++ back) := by
  induction place generalizing depth with
  | here => exact ⟨depth, [], [], fun v => by rw [fill, List.nil_append, List.append_nil]⟩
  | entry before key inner after ih =>
    obtain ⟨hname, hinner⟩ := not_or.1 h
    have hnames : key.keyText ∉ (canonicalEntries after).map Prod.fst := by
      rwa [canonicalEntries_eq, List.map_map]
    obtain ⟨front, back, hmember⟩ := Json.chars_shown (canonicalEntries before) hnames depth
    obtain ⟨deeper, front', back', hfill⟩ := ih hinner (depth + 1)
    refine ⟨deeper, front ++ front', back' ++ back, fun v => ?_⟩
    rw [fill, canonical_entry, hmember, hfill]
    simp only [List.append_assoc]
  | field before name inner after ih =>
    obtain ⟨hname, hinner⟩ := not_or.1 h
    have hnames : .whole name ∉ (canonicalFields after).map Prod.fst := fun hmem =>
      hname (mem_canonicalFields.1 hmem)
    obtain ⟨front, back, hmember⟩ := Json.chars_shown
      (("__type__", .str RecordKind.object.typeName) :: canonicalFields before) hnames depth
    obtain ⟨deeper, front', back', hfill⟩ := ih hinner (depth + 1)
    refine ⟨deeper, front ++ front', back' ++ back, fun v => ?_⟩
    rw [fill, canonical_field, hmember, hfill]
    simp only [List.append_assoc]

/-- Values that differ at one place have one text only if the place is hidden or the values
    there are written alike. -/
theorem canonicalText_fill {place : Place} {v w : Value} (hv : v.canonical.floatless = true)
    (hw : w.canonical.floatless = true) :
    (place.fill v).canonicalText = (place.fill w).canonicalText ↔ place.IsHidden ∨ v.canonical = w.canonical := by
  constructor
  · intro h
    refine or_iff_not_imp_left.2 fun hshown => ?_
    obtain ⟨inner, front, back, hchars⟩ := place.chars_fill hshown 1
    have htext : Json.chars 1 (place.fill v).canonical = Json.chars 1 (place.fill w).canonical :=
      congrArg Text.spell (Script.ofPoints_inj h)
    rw [hchars, hchars, List.append_cancel_left_eq, List.append_cancel_right_eq] at htext
    have hends : Json.Ends [] := nofun
    exact (Json.chars_inj hv hw hends hends (by rw [htext])).1
  · intro h
    rw [canonicalText, canonicalText, canonical_fill h]

end Place

end Value

namespace Blueprint

open Value (Lookalike Place)

/-- The text of a key is one with the context at a place of its own. -/
theorem keyText_fill (b : Blueprint) (place : Place) {v w : Value} (hv : v.canonical.floatless = true)
    (hw : w.canonical.floatless = true) :
    b.keyText (place.fill v) = b.keyText (place.fill w) ↔ place.IsHidden ∨ v.canonical = w.canonical := by
  let outer : Place := .entry [(.str "blueprint", b.source.getD b.toValue)] (.str "context") place []
  have houter : outer.IsHidden ↔ place.IsHidden := or_iff_right List.not_mem_nil
  rw [← houter]
  exact outer.canonicalText_fill hv hw

/-- Values that have a state are written alike with another state only if they are
    lookalikes. Contexts that differ in one such value have one key then, or if the place of
    the value is hidden, and else they have not. -/
theorem keys_tell_states {v w : Value} {s t : State} (hv : v.toState = .ok s) (hw : w.toState = .ok t) :
    (v.canonicalText = w.canonicalText ∧ s ≠ t ↔ Lookalike v w ∨ Lookalike w v) ∧
    ∀ (b : Blueprint) (place : Place), s ≠ t →
      (b.key (place.fill v) = b.key (place.fill w) → b.keyText (place.fill v) = b.keyText (place.fill w)) →
      (b.key (place.fill v) = b.key (place.fill w) ↔ place.IsHidden ∨ Lookalike v w ∨ Lookalike w v) := by
  have hfloatless := Value.floatless_of_toState hv
  have hfloatless' := Value.floatless_of_toState hw
  have htext : v.canonicalText = w.canonicalText ↔ v.canonical = w.canonical :=
    ⟨Json.text_compact_inj hfloatless hfloatless', fun h => by rw [Value.canonicalText, h, Value.canonicalText]⟩
  refine ⟨by rw [htext, Value.lookalike_iff hv hw], fun b place hne hsha => ?_⟩
  have hkey : b.key (place.fill v) = b.key (place.fill w) ↔ b.keyText (place.fill v) = b.keyText (place.fill w) :=
    ⟨hsha, key_congr⟩
  rw [hkey, keyText_fill b place hfloatless hfloatless', ← Value.lookalike_iff hv hw, and_iff_left hne]

/-- A word and a number are told apart. A digit in the place of its number is not, deep in a
    context, and neither are any values in an entry whose name another key spells. -/
theorem keys_tell_states_nested :
    let b : Blueprint := ⟨[], [], .null, .null, none⟩
    let nested : Place :=
      .entry [] (.str "user") (.field [("name", .str "u")] "consent" .here []) [(.str "n", .int 1)]
    let spelled : Place := .entry [] (.str "<bool>True") .here [(.bool true, .null)]
    (Value.str " Yes").canonicalText ≠ (Value.int (-7)).canonicalText ∧
      (∃ key, b.key (nested.fill (.trit .zero)) = .ok key ∧ b.key (nested.fill (.int 0)) = .ok key) ∧
      ∃ key, b.key (spelled.fill (.str " Yes")) = .ok key ∧ b.key (spelled.fill (.int (-7))) = .ok key := by
  intro b nested spelled
  have hyes : (Value.str " Yes").toState = .ok .yes := rfl
  have hno : (Value.int (-7)).toState = .ok .no := rfl
  have hzero : (Value.trit .zero).toState = .ok .unknown := rfl
  have hnone : (Value.int 0).toState = .ok .no := rfl
  have hhidden : spelled.IsHidden := .inl (by decide)
  obtain ⟨htext, hspelled⟩ := keys_tell_states hyes hno
  obtain ⟨-, hnested⟩ := keys_tell_states hzero hnone
  refine ⟨fun h => ?_, ?_, ?_⟩
  · rcases htext.1 ⟨h, by decide⟩ with h | h <;> cases h
  · obtain ⟨key, hkey⟩ := b.key_of_whole (nested.fill (.int 0)) rfl rfl
    have hsame := (hnested b nested (by decide) fun _ => (b.keyText_fill nested rfl rfl).2 (.inr rfl)).2
      (.inr (.inl .zero))
    exact ⟨key, hsame.trans hkey, hkey⟩
  · obtain ⟨key, hkey⟩ := b.key_of_whole (spelled.fill (.int (-7))) rfl rfl
    have hsame := (hspelled b spelled (by decide) fun _ => (b.keyText_fill spelled rfl rfl).2 (.inl hhidden)).2
      (.inl hhidden)
    exact ⟨key, hsame.trans hkey, hkey⟩

/-- The digit -1 and the number -1 are written alike but are other states, so a blueprint has
    one key in two contexts in which its results differ. -/
theorem lookalikes_share_key :
    let env : Setting := ⟨.standard, .none⟩
    let gate : Value := .map [(.str "operands", .list [.str "x"])]
    let data : Value := .map [
      (.str "inputs", .map [(.str "x", .str "x")]), (.str "gates", .map [(.str "g", gate)])]
    let place : Place := .entry [] (.str "x") .here []
    let digit : Value := .trit .negative
    let number : Value := .int (-1)
    (digit.canonicalText = number.canonicalText ∧ digit.toState = .ok .no ∧ number.toState = .ok .unknown) ∧
      ∃ b key r r', (ofMapping data).result = .ok b ∧
        b.key (place.fill digit) = .ok key ∧ b.key (place.fill number) = .ok key ∧
        (env.evaluate b (place.fill digit)).result = .ok r ∧ (env.evaluate b (place.fill number)).result = .ok r' ∧
        r.result = .no ∧ r'.result = .unknown := by
  intro env gate data place digit number
  let b : Blueprint := {
    inputs := [("x", .context "x")]
    gates := [⟨.str "g", .and, [.reference "x" false], [], .null, .null, none⟩]
    output := .null, name := .null, source := some data }
  have hread : (ofMapping data).result = .ok b := rfl
  obtain ⟨key, hkey⟩ := b.key_of_whole (place.fill number) rfl rfl
  have hsame : b.key (place.fill digit) = b.key (place.fill number) :=
    key_congr ((b.keyText_fill place rfl rfl).2 (.inr rfl))
  exact ⟨⟨rfl, rfl, rfl⟩, b, key, _, _, hread, hsame.trans hkey, hkey, rfl, rfl, rfl, rfl⟩

end Blueprint

end Verdict
