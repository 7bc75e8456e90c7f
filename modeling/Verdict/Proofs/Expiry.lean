/-
  Verdict.Proofs.Expiry — a cache is a map whose entries expire.

  What a cache answers is told by its history alone: under a clock that never goes back,
  the report under a key is the one put last since the cache was cleared, as long as its
  expiry lies ahead (`answers_eq_told`). That entries are dropped when they are asked for,
  that a sweep drops others, and that most sweeps are left out cannot be seen. The
  invariant is `Recalls`: every entry is the latest of its key, and a latest entry that is
  gone has expired.
-/

import Verdict.Cache
import Mathlib.Data.Int.Order.Basic
import Mathlib.Order.Lattice

namespace Verdict.Cache

/-! ## Uses -/

/-- What a cache is used for. -/
inductive Use (τ ρ : Type)
  | put (key : String) (report : ρ) (ttl : τ)
  | get (key : String)
  | clear

section

variable {τ ρ : Type} [LE τ] [DecidableLE τ] [LT τ] [DecidableLT τ] [Add τ]

/-- The cache after a use at a time, and the answer if something was asked for. -/
def use (c : Cache τ ρ) (now : τ) : Use τ ρ → Cache τ ρ × List (Option ρ)
  | .put key report ttl => (c.put now ttl key report, [])
  | .get key =>
    let asked := c.get now key
    (asked.2, [asked.1])
  | .clear => (c.clear, [])

/-- The answers to the uses of a cache, each at its time. -/
def answers : Cache τ ρ → List (τ × Use τ ρ) → List (Option ρ)
  | _, [] => []
  | c, (now, u) :: rest => (c.use now u).2 ++ answers (c.use now u).1 rest

/-! ## What the history tells -/

/-- The entry put last under a key since the cache was cleared. The past has its latest
    use first. -/
def latest? (key : String) : List (τ × Use τ ρ) → Option (CacheEntry τ ρ)
  | [] => none
  | (_, .clear) :: _ => none
  | (_, .get _) :: past => latest? key past
  | (time, .put k report ttl) :: past =>
    if k = key then some ⟨report, time + ttl⟩ else latest? key past

/-- The report that a key stands for at a time. -/
def standing? (past : List (τ × Use τ ρ)) (now : τ) (key : String) : Option ρ :=
  match latest? key past with
  | some entry => if now < entry.expiresAt then some entry.report else none
  | none => none

/-- The answers that uses after a past must get. -/
def told : (past : List (τ × Use τ ρ)) → List (τ × Use τ ρ) → List (Option ρ)
  | _, [] => []
  | past, (now, .get key) :: rest => standing? past now key :: told ((now, .get key) :: past) rest
  | past, (now, u) :: rest => told ((now, u) :: past) rest

end

/-! ## Entries -/

section

variable {τ ρ : Type} {c : Cache τ ρ} {key : String} {e : String × CacheEntry τ ρ}

theorem mem_erase : e ∈ (c.erase key).entries ↔ e ∈ c.entries ∧ e.1 ≠ key := by
  simp [erase]

theorem mem_of_lookup {entries : List (String × CacheEntry τ ρ)} {entry : CacheEntry τ ρ}
    (h : entries.lookup key = some entry) : (key, entry) ∈ entries := by
  obtain ⟨before, after, hsplit, -⟩ := List.lookup_eq_some_iff.1 h
  simp [hsplit]

theorem ne_of_lookup {entries : List (String × CacheEntry τ ρ)} (h : entries.lookup key = none) (he : e ∈ entries) :
    e.1 ≠ key := by
  have hne := List.lookup_eq_none_iff.1 h e he
  exact Ne.symm (bne_iff_ne.1 hne)

theorem mem_of_find? {entry : CacheEntry τ ρ} (h : c.find? key = some entry) :
    (key, entry) ∈ c.entries :=
  mem_of_lookup h

theorem not_mem_of_find? (h : c.find? key = none) (entry : CacheEntry τ ρ) :
    (key, entry) ∉ c.entries :=
  fun hmem => ne_of_lookup h hmem rfl

theorem mem_place {entries : List (String × CacheEntry τ ρ)} {entry : CacheEntry τ ρ} :
    e ∈ place entries key entry ↔ e = (key, entry) ∨ e ∈ entries ∧ e.1 ≠ key := by
  unfold place
  cases hfind : entries.lookup key with
  | none =>
    -- no entry has the key, so all of them stay
    simp only [Option.isSome_none, Bool.false_eq_true, if_false, List.mem_append, List.mem_singleton]
    constructor
    · rintro (hmem | rfl)
      · exact Or.inr ⟨hmem, ne_of_lookup hfind hmem⟩
      · exact Or.inl rfl
    · rintro (rfl | ⟨hmem, -⟩)
      · exact Or.inr rfl
      · exact Or.inl hmem
  | some old =>
    simp only [Option.isSome_some, if_true, List.mem_map]
    constructor
    · rintro ⟨e', hmem, rfl⟩
      by_cases hkey : e'.1 = key
      · exact Or.inl (if_pos hkey)
      · rw [if_neg hkey]
        exact Or.inr ⟨hmem, hkey⟩
    · rintro (rfl | ⟨hmem, hkey⟩)
      · exact ⟨(key, old), mem_of_lookup hfind, if_pos rfl⟩
      · exact ⟨e, hmem, if_neg hkey⟩

/-- A look leaves the cache as it is, or without the key. -/
theorem get_eq_or_erase [LE τ] [DecidableLE τ] (c : Cache τ ρ) (now : τ) (key : String) :
    (c.get now key).2 = c ∨ (c.get now key).2 = c.erase key := by
  unfold get
  split
  · exact .inl rfl
  · split
    · exact .inr rfl
    · exact .inl rfl

variable [LE τ] [DecidableLE τ] [LT τ] [DecidableLT τ] {now : τ}

theorem mem_sweep : e ∈ (c.sweep now).entries ↔ e ∈ c.entries ∧ ¬e.2.expiresAt ≤ now := by
  simp [sweep]

/-- A put keeps its report, and of the other keys at least what has not expired. -/
theorem mem_put_iff [Add τ] {ttl : τ} {report : ρ} :
    e ∈ (c.put now ttl key report).entries ↔
      e = (key, ⟨report, now + ttl⟩) ∨
        (e ∈ c.entries ∧ (c.isDue now = true → ¬e.2.expiresAt ≤ now)) ∧ e.1 ≠ key := by
  unfold put
  by_cases hdue : c.isDue now = true
  · simp [hdue, mem_place, mem_sweep]
  · simp [hdue, mem_place]

end

/-! ## The invariant -/

variable {τ ρ : Type} [LinearOrder τ] [Add τ]

/-- A cache holds the latest entries of its past, except for some that have expired. -/
structure Recalls (c : Cache τ ρ) (past : List (τ × Use τ ρ)) (now : τ) : Prop where
  latest : ∀ key entry, (key, entry) ∈ c.entries → latest? key past = some entry
  gone : ∀ key entry, latest? key past = some entry → (key, entry) ∈ c.entries ∨ entry.expiresAt ≤ now

variable {c : Cache τ ρ} {past : List (τ × Use τ ρ)} {now later : τ}

theorem recalls_empty (now : τ) : Recalls (empty : Cache τ ρ) [] now where
  latest := by intro key entry h; cases h
  gone := by intro key entry h; cases h

theorem Recalls.wait (h : Recalls c past now) (hle : now ≤ later) : Recalls c past later where
  latest := h.latest
  gone := by
    intro key entry hlatest
    rcases h.gone key entry hlatest with hmem | hexpired
    · exact Or.inl hmem
    · exact Or.inr (le_trans hexpired hle)

theorem recalls_clear (c : Cache τ ρ) (past : List (τ × Use τ ρ)) (now : τ) :
    Recalls c.clear ((now, .clear) :: past) now where
  latest := by intro key entry h; cases h
  gone := by intro key entry h; cases h

theorem Recalls.put (h : Recalls c past now) (key : String) (report : ρ) (ttl : τ) :
    Recalls (c.put now ttl key report) ((now, .put key report ttl) :: past) now where
  latest := by
    intro k entry hmem
    rcases mem_put_iff.1 hmem with heq | ⟨⟨hold, -⟩, hne⟩
    · cases heq
      simp [latest?]
    · have hne : key ≠ k := fun heq => hne heq.symm
      simp only [latest?, if_neg hne]
      exact h.latest k entry hold
  gone := by
    intro k entry hlatest
    simp only [latest?] at hlatest
    split at hlatest
    · next heq =>
      cases hlatest
      exact Or.inl (mem_put_iff.2 (Or.inl (by rw [heq])))
    · next hne =>
      -- an entry of another key survives unless it has expired
      by_cases hexpired : entry.expiresAt ≤ now
      · exact Or.inr hexpired
      · rcases h.gone k entry hlatest with hmem | hle
        · exact Or.inl (mem_put_iff.2 (Or.inr ⟨⟨hmem, fun _ => hexpired⟩, fun heq => hne heq.symm⟩))
        · exact absurd hle hexpired

theorem Recalls.get (h : Recalls c past now) (key : String) :
    Recalls (c.get now key).2 ((now, .get key) :: past) now := by
  have hsame : ∀ k, latest? k ((now, .get key) :: past) = latest? k past := fun _ => rfl
  unfold Cache.get
  cases hfind : c.find? key with
  | none => exact ⟨h.latest, h.gone⟩
  | some entry =>
    by_cases hexpired : entry.expiresAt ≤ now
    · simp only [if_pos hexpired]
      refine ⟨fun k other hmem => h.latest k other (mem_erase.1 hmem).1, fun k other hlatest => ?_⟩
      rw [hsame] at hlatest
      rcases h.gone k other hlatest with hmem | hle
      · by_cases hk : k = key
        · -- the entry that goes is the latest of its key
          subst hk
          have hentry := h.latest k entry (mem_of_find? hfind)
          rw [hentry] at hlatest
          cases hlatest
          exact Or.inr hexpired
        · exact Or.inl (mem_erase.2 ⟨hmem, hk⟩)
      · exact Or.inr hle
    · simp only [if_neg hexpired]
      exact ⟨h.latest, h.gone⟩

/-- What a cache answers is what its past tells. -/
theorem Recalls.answer (h : Recalls c past now) (key : String) :
    (c.get now key).1 = standing? past now key := by
  unfold Cache.get standing?
  cases hfind : c.find? key with
  | some entry =>
    rw [h.latest key entry (mem_of_find? hfind)]
    by_cases hexpired : entry.expiresAt ≤ now
    · simp only [if_pos hexpired, if_neg (not_lt.2 hexpired)]
    · simp only [if_neg hexpired, if_pos (not_le.1 hexpired)]
  | none =>
    cases hlatest : latest? key past with
    | none => rfl
    | some entry =>
      rcases h.gone key entry hlatest with hmem | hexpired
      · exact absurd hmem (not_mem_of_find? hfind entry)
      · simp only [if_neg (not_lt.2 hexpired)]

/-! ## Runs -/

theorem Recalls.use (h : Recalls c past now) (u : Use τ ρ) :
    Recalls (c.use now u).1 ((now, u) :: past) now := by
  cases u with
  | put key report ttl => exact h.put key report ttl
  | get key => exact h.get key
  | clear => exact recalls_clear c past now

theorem Recalls.answers {uses : List (τ × Use τ ρ)} (h : Recalls c past now)
    (hclock : (now :: uses.map Prod.fst).Pairwise (· ≤ ·)) : c.answers uses = told past uses := by
  induction uses generalizing c past now with
  | nil => rfl
  | cons step rest ih =>
    obtain ⟨time, u⟩ := step
    obtain ⟨hfirst, hrest⟩ := List.pairwise_cons.1 hclock
    have htime : Recalls c past time := h.wait (hfirst time List.mem_cons_self)
    have hafter := ih (htime.use u) hrest
    cases u with
    | put key report ttl => exact hafter
    | clear => exact hafter
    | get key =>
      show (c.get time key).1 :: Cache.answers (c.get time key).2 rest = _
      rw [htime.answer key]
      exact congrArg _ hafter

/-- A cache that starts empty answers what its history tells, whatever is put in, asked for
    and cleared, as long as the clock does not go back. -/
theorem answers_eq_told {uses : List (τ × Use τ ρ)} (hclock : (uses.map Prod.fst).Pairwise (· ≤ ·)) :
    (empty : Cache τ ρ).answers uses = told [] uses := by
  cases uses with
  | nil => rfl
  | cons step rest =>
    have hfrom : (step.1 :: (step :: rest).map Prod.fst).Pairwise (· ≤ ·) := by
      refine List.pairwise_cons.2 ⟨fun time htime => ?_, hclock⟩
      rcases List.mem_cons.1 htime with heq | hrest
      · exact le_of_eq heq.symm
      · exact (List.pairwise_cons.1 hclock).1 time hrest
    exact (recalls_empty step.1).answers hfrom

/-- The second put shortens the life of `a`, the put under `b` sweeps it, and a lifetime of
    nothing is over at once. -/
theorem answers_eq_told_swept :
    let uses : List (Int × Use Int String) := [
      (0, .put "a" "first" 10), (1, .put "a" "second" 2), (2, .get "a"), (3, .get "a"),
      (4, .put "b" "third" 0), (4, .get "b"), (5, .put "a" "fourth" (-1)), (5, .get "a"),
      (6, .put "c" "fifth" 9), (6, .clear), (7, .get "c"), (8, .put "c" "sixth" 1), (8, .get "c")]
    (uses.map Prod.fst).Pairwise (· ≤ ·) ∧
      (empty : Cache Int String).answers uses =
        [some "second", none, none, none, none, some "sixth"] := by
  intro uses
  have hclock : (uses.map Prod.fst).Pairwise (· ≤ ·) := by decide
  refine ⟨hclock, ?_⟩
  exact (answers_eq_told hclock).trans (by decide)

end Verdict.Cache
