/-
  Verdict.Proofs.Sweeps — what has expired does not stay.

  A put sweeps only if the earliest known expiry has come, and that expiry is lowered when
  something is put in but not raised when something goes. Whatever the clock does it stays
  a lower bound of the expiries that are kept, so that a put leaves nothing behind that has
  expired, and a look nothing under its key (`expired_entries_go`). NaN is the exception:
  it bounds nothing and nothing bounds it, and once a sweep has made it the bound no put
  sweeps until the cache is cleared (`expired_entry_stays`). The invariant is `IsGuarded`:
  the bound is NaN or lies at or before each expiry that is not.
-/

import Verdict.Number.Basic
import Verdict.Proofs.Expiry
import Verdict.Proofs.Keys
import Mathlib.Order.WithBot

namespace Verdict

/-! ## The extended line -/

namespace Binary64

/-- The point of the extended line where a position lies. -/
def Position.point : Position → Option (WithBot (WithTop ℚ))
  | nowhere => none
  | below => some ⊥
  | above => some ⊤
  | .at x => some ((x.worth : WithTop ℚ) : WithBot (WithTop ℚ))

theorem coe_coe_lt_top (r : ℚ) : ((r : WithTop ℚ) : WithBot (WithTop ℚ)) < ⊤ :=
  WithBot.coe_lt_coe.2 (WithTop.coe_lt_top r)

theorem Position.compare?_eq_lt_iff {p q : Position} :
    p.compare? q = some .lt ↔ ∃ s t, p.point = some s ∧ q.point = some t ∧ s < t := by
  cases p <;> cases q <;> simp [compare?, point, Dyadic.compare_eq_lt_iff, coe_coe_lt_top]

theorem Position.compare?_eq_eq_iff {p q : Position} :
    p.compare? q = some .eq ↔ ∃ s, p.point = some s ∧ q.point = some s := by
  cases p <;> cases q <;>
    simp [compare?, point, Dyadic.compare_eq_iff, (coe_coe_lt_top _).ne, (coe_coe_lt_top _).ne']
  exact eq_comm

end Binary64

namespace Number

/-- The point of the extended line where a number lies; NaN lies nowhere. -/
def point (x : Number) : Option (WithBot (WithTop ℚ)) := x.position.point

theorem point_eq_none_iff {x : Number} : x.point = none ↔ x = .float .nan := by
  rcases x with n | _ | ⟨_ | _⟩ | _ <;> simp [point, position, Binary64.position, Binary64.Position.point]

theorem lt_iff {x y : Number} : x < y ↔ ∃ s t, x.point = some s ∧ y.point = some t ∧ s < t := by
  show (x.compare? y == some .lt) = true ↔ _
  rw [beq_iff_eq]
  exact Binary64.Position.compare?_eq_lt_iff

theorem le_iff {x y : Number} : x ≤ y ↔ ∃ s t, x.point = some s ∧ y.point = some t ∧ s ≤ t := by
  have heq : x.compare? y = some .eq ↔ ∃ s, x.point = some s ∧ y.point = some s :=
    Binary64.Position.compare?_eq_eq_iff
  have hor : x ≤ y ↔ x < y ∨ x.compare? y = some .eq := by
    show (x.lt y || x.compare? y == some .eq) = true ↔ _
    rw [Bool.or_eq_true, beq_iff_eq]
    rfl
  rw [hor, lt_iff, heq]
  constructor
  · rintro (⟨s, t, hs, ht, hlt⟩ | ⟨s, hs, ht⟩)
    · exact ⟨s, t, hs, ht, hlt.le⟩
    · exact ⟨s, s, hs, ht, le_rfl⟩
  · rintro ⟨s, t, hs, ht, hle⟩
    rcases hle.lt_or_eq with hlt | rfl
    · exact .inl ⟨s, t, hs, ht, hlt⟩
    · exact .inr ⟨s, hs, ht⟩

theorem le_trans {x y z : Number} (h : x ≤ y) (h' : y ≤ z) : x ≤ z := by
  obtain ⟨s, t, hx, hy, hst⟩ := le_iff.1 h
  obtain ⟨t', u, hy', hz, htu⟩ := le_iff.1 h'
  obtain rfl : t = t' := Option.some.inj (hy.symm.trans hy')
  exact le_iff.2 ⟨s, u, hx, hz, hst.trans htu⟩

theorem le_of_lt {x y : Number} (h : x < y) : x ≤ y := by
  obtain ⟨s, t, hx, hy, hst⟩ := lt_iff.1 h
  exact le_iff.2 ⟨s, t, hx, hy, hst.le⟩

/-- What compares is a number. -/
theorem ne_nan_of_le {x y : Number} (h : x ≤ y) : x ≠ .float .nan ∧ y ≠ .float .nan := by
  obtain ⟨s, t, hx, hy, -⟩ := le_iff.1 h
  refine ⟨fun hnan => ?_, fun hnan => ?_⟩
  · rw [point_eq_none_iff.2 hnan] at hx
    cases hx
  · rw [point_eq_none_iff.2 hnan] at hy
    cases hy

/-- Two numbers compare unless one is NaN. -/
theorem le_or_lt {x y : Number} (hx : x ≠ .float .nan) (hy : y ≠ .float .nan) : x ≤ y ∨ y < x := by
  obtain ⟨s, hs⟩ := Option.ne_none_iff_exists'.1 (mt point_eq_none_iff.1 hx)
  obtain ⟨t, ht⟩ := Option.ne_none_iff_exists'.1 (mt point_eq_none_iff.1 hy)
  rcases le_or_gt s t with hle | hlt
  · exact .inl (le_iff.2 ⟨s, t, hs, ht, hle⟩)
  · exact .inr (lt_iff.2 ⟨t, s, ht, hs, hlt⟩)

theorem le_self {x : Number} (h : x ≠ .float .nan) : x ≤ x := (le_or_lt h h).elim id le_of_lt

end Number

namespace Cache

/-! ## Reached caches -/

section

variable {τ ρ : Type} {past : List (τ × Use τ ρ)} {now : τ} {key : String} {entry : CacheEntry τ ρ}

/-- The expiries of what was put in since the cache was cleared. The past has its latest
    use first. -/
def expiries [Add τ] : List (τ × Use τ ρ) → List τ
  | [] => []
  | (_, .clear) :: _ => []
  | (_, .get _) :: past => expiries past
  | (now, .put _ _ ttl) :: past => (now + ttl) :: expiries past

theorem mem_expiries_of_latest? [Add τ] (h : latest? key past = some entry) :
    entry.expiresAt ∈ expiries past := by
  induction past with
  | nil => cases h
  | cons step past ih =>
    obtain ⟨now, u⟩ := step
    cases u with
    | put k report ttl =>
      simp only [latest?] at h
      split at h
      · cases h
        exact List.mem_cons_self
      · exact List.mem_cons_of_mem _ (ih h)
    | get k => exact ih h
    | clear => cases h

variable [LT τ] [DecidableLT τ]

theorem earlier_choice (s t : τ) : earlier s t = s ∨ earlier s t = t := by
  unfold earlier
  split
  · exact .inr rfl
  · exact .inl rfl

theorem exists_of_foldl_earlier (entries : List (String × CacheEntry τ ρ)) (t : τ) :
    entries.foldl (fun t e => earlier t e.2.expiresAt) t = t ∨
      ∃ e ∈ entries, e.2.expiresAt = entries.foldl (fun t e => earlier t e.2.expiresAt) t := by
  induction entries generalizing t with
  | nil => exact .inl rfl
  | cons e rest ih =>
    rcases ih (earlier t e.2.expiresAt) with hfirst | ⟨e', hmem, heq⟩
    · rcases earlier_choice t e.2.expiresAt with hsame | hnew
      · exact .inl (hfirst.trans hsame)
      · exact .inr ⟨e, List.mem_cons_self, (hfirst.trans hnew).symm⟩
    · exact .inr ⟨e', List.mem_cons_of_mem _ hmem, heq⟩

theorem exists_of_earliestOf {entries : List (String × CacheEntry τ ρ)} {t : τ} (h : earliestOf entries = some t) :
    ∃ e ∈ entries, e.2.expiresAt = t := by
  cases entries with
  | nil => cases h
  | cons first rest =>
    cases h
    rcases exists_of_foldl_earlier rest first.2.expiresAt with hfirst | ⟨e, hmem, heq⟩
    · exact ⟨first, List.mem_cons_self, hfirst.symm⟩
    · exact ⟨e, List.mem_cons_of_mem _ hmem, heq⟩

variable [LE τ] [DecidableLE τ]

theorem lowerBound_choice {bound : Option τ} {expiry t : τ} (h : lowerBound bound expiry = some t) :
    bound = some t ∨ expiry = t := by
  cases bound with
  | none =>
    simp only [lowerBound] at h
    split at h
    · exact .inr (Option.some.inj h)
    · cases h
  | some s =>
    rcases earlier_choice s expiry with hold | hnew
    · exact .inl (hold ▸ h)
    · exact .inr (Option.some.inj (hnew ▸ h))

variable [Add τ]

/-- The cache that a past leaves. -/
def ofPast : List (τ × Use τ ρ) → Cache τ ρ
  | [] => empty
  | (now, u) :: past => ((ofPast past).use now u).1

/-- What is kept under a key is what was put there last. -/
theorem latest?_of_mem (h : (key, entry) ∈ (ofPast past).entries) : latest? key past = some entry := by
  induction past with
  | nil => cases h
  | cons step past ih =>
    obtain ⟨now, u⟩ := step
    cases u with
    | put k report ttl =>
      rcases mem_put_iff.1 h with heq | ⟨⟨hold, -⟩, hne⟩
      · cases heq
        exact if_pos rfl
      · exact (if_neg (Ne.symm hne)).trans (ih hold)
    | get k =>
      have hmem : (key, entry) ∈ ((ofPast past).get now k).2.entries := h
      rcases get_eq_or_erase (ofPast past) now k with hsame | herased
      · rw [hsame] at hmem
        exact ih hmem
      · rw [herased] at hmem
        exact ih (mem_erase.1 hmem).1
    | clear => cases h

/-- The bound is one of the expiries. -/
theorem mem_expiries_of_earliest {t : τ} (h : (ofPast past).earliest = some t) : t ∈ expiries past := by
  induction past generalizing t with
  | nil => cases h
  | cons step past ih =>
    obtain ⟨now, u⟩ := step
    cases u with
    | put k report ttl =>
      rcases lowerBound_choice h with hold | rfl
      · refine List.mem_cons_of_mem _ ?_
        split at hold
        · obtain ⟨e, hmem, rfl⟩ := exists_of_earliestOf hold
          have hkept : e ∈ ((ofPast past).sweep now).entries := hmem
          exact mem_expiries_of_latest? (latest?_of_mem (mem_sweep.1 hkept).1)
        · exact ih hold
      · exact List.mem_cons_self
    | get k =>
      have hbound : ((ofPast past).get now k).2.earliest = some t := h
      rcases get_eq_or_erase (ofPast past) now k with hsame | herased
      · rw [hsame] at hbound
        exact ih hbound
      · rw [herased] at hbound
        exact ih hbound
    | clear => cases h

/-- A look leaves nothing under its key that has expired. -/
theorem get_drops_expired {e : String × CacheEntry τ ρ} (he : e ∈ ((ofPast past).get now key).2.entries)
    (hkey : e.1 = key) : ¬e.2.expiresAt ≤ now := by
  subst hkey
  unfold get at he
  cases hfind : (ofPast past).find? e.1 with
  | none =>
    simp only [hfind] at he
    exact absurd he (not_mem_of_find? hfind e.2)
  | some found =>
    simp only [hfind] at he
    split at he
    · exact absurd rfl (mem_erase.1 he).2
    · next hlive =>
      -- one key has one entry, the one that was found
      have hsame : some e.2 = some found := (latest?_of_mem he).symm.trans (latest?_of_mem (mem_of_find? hfind))
      rwa [Option.some.inj hsame]

end

/-! ## The bound -/

variable {ρ : Type} {c : Cache Number ρ} {bound : Option Number} {s t now : Number}

/-- The earliest known expiry is a lower bound of the expiries. -/
def IsBounded (c : Cache Number ρ) : Prop := ∀ e ∈ c.entries, ∃ bound ∈ c.earliest, bound ≤ e.2.expiresAt

instance (c : Cache Number ρ) : Decidable c.IsBounded :=
  inferInstanceAs (Decidable (∀ e ∈ c.entries, ∃ bound ∈ c.earliest, bound ≤ e.2.expiresAt))

/-- A bound that is NaN, or lies at or before an expiry that is not. -/
def Guards (bound : Option Number) (expiry : Number) : Prop :=
  expiry ≠ .float .nan → ∃ t ∈ bound, t ≠ .float .nan → t ≤ expiry

theorem earlier_le_left (h : earlier s t ≠ .float .nan) : earlier s t ≤ s := by
  unfold earlier at h ⊢
  split
  · next hlt => exact Number.le_of_lt hlt
  · next hlt =>
    rw [if_neg hlt] at h
    exact Number.le_self h

theorem earlier_le_right (h : earlier s t ≠ .float .nan) (ht : t ≠ .float .nan) : earlier s t ≤ t := by
  unfold earlier at h ⊢
  split
  · exact Number.le_self ht
  · next hlt =>
    rw [if_neg hlt] at h
    exact (Number.le_or_lt h ht).resolve_right hlt

theorem foldl_earlier_le {entries : List (String × CacheEntry Number ρ)}
    (h : entries.foldl (fun t e => earlier t e.2.expiresAt) t ≠ .float .nan) :
    entries.foldl (fun t e => earlier t e.2.expiresAt) t ≤ t ∧
      ∀ e ∈ entries, e.2.expiresAt ≠ .float .nan →
        entries.foldl (fun t e => earlier t e.2.expiresAt) t ≤ e.2.expiresAt := by
  induction entries generalizing t with
  | nil => exact ⟨Number.le_self h, nofun⟩
  | cons first rest ih =>
    obtain ⟨hle, hrest⟩ := ih h
    have hne : earlier t first.2.expiresAt ≠ .float .nan := (Number.ne_nan_of_le hle).2
    refine ⟨Number.le_trans hle (earlier_le_left hne), List.forall_mem_cons.2 ⟨fun hfirst => ?_, hrest⟩⟩
    exact Number.le_trans hle (earlier_le_right hne hfirst)

theorem guards_earliestOf {entries : List (String × CacheEntry Number ρ)} {e : String × CacheEntry Number ρ}
    (he : e ∈ entries) : Guards (earliestOf entries) e.2.expiresAt := by
  intro hne
  cases entries with
  | nil => cases he
  | cons first rest =>
    refine ⟨_, rfl, fun hbound => ?_⟩
    obtain ⟨hfirst, hrest⟩ := foldl_earlier_le hbound
    rcases List.mem_cons.1 he with rfl | he
    · exact hfirst
    · exact hrest e he hne

theorem guards_lowerBound (bound : Option Number) (t : Number) : Guards (lowerBound bound t) t := by
  intro hne
  cases bound with
  | none => exact ⟨t, if_pos (Number.le_self hne), fun _ => Number.le_self hne⟩
  | some s => exact ⟨earlier s t, rfl, fun hbound => earlier_le_right hbound hne⟩

theorem Guards.lowerBound (h : Guards bound t) (expiry : Number) : Guards (lowerBound bound expiry) t := by
  intro hne
  obtain ⟨s, rfl, hle⟩ := h hne
  refine ⟨earlier s expiry, rfl, fun hbound => ?_⟩
  have hleft : earlier s expiry ≤ s := earlier_le_left hbound
  exact Number.le_trans hleft (hle (Number.ne_nan_of_le hleft).2)

/-! ## Steps and runs -/

/-- The earliest known expiry guards the expiries. -/
def IsGuarded (c : Cache Number ρ) : Prop := ∀ e ∈ c.entries, Guards c.earliest e.2.expiresAt

theorem isGuarded_sweep (c : Cache Number ρ) (now : Number) : (c.sweep now).IsGuarded :=
  fun _ he => guards_earliestOf he

theorem IsGuarded.put (h : c.IsGuarded) (now ttl : Number) (key : String) (report : ρ) :
    (c.put now ttl key report).IsGuarded := by
  have hswept : (if c.isDue now then c.sweep now else c).IsGuarded := by
    split
    · exact isGuarded_sweep c now
    · exact h
  intro e he
  rcases mem_place.1 he with rfl | ⟨hold, -⟩
  · exact guards_lowerBound _ _
  · exact (hswept e hold).lowerBound _

theorem IsGuarded.erase (h : c.IsGuarded) (key : String) : (c.erase key).IsGuarded :=
  fun e he => h e (mem_erase.1 he).1

theorem IsGuarded.get (h : c.IsGuarded) (now : Number) (key : String) : (c.get now key).2.IsGuarded := by
  rcases get_eq_or_erase c now key with hsame | herased
  · rw [hsame]
    exact h
  · rw [herased]
    exact h.erase key

theorem isGuarded_ofPast (past : List (Number × Use Number ρ)) : (ofPast past).IsGuarded := by
  induction past with
  | nil => nofun
  | cons step past ih =>
    obtain ⟨now, u⟩ := step
    cases u with
    | put key report ttl => exact ih.put now ttl key report
    | get key => exact ih.get now key
    | clear => nofun

/-- A put leaves nothing else that has expired, unless the bound is NaN. -/
theorem IsGuarded.put_drops_expired (h : c.IsGuarded) (hbound : c.earliest ≠ some (.float .nan)) {ttl : Number}
    {key : String} {report : ρ} {e : String × CacheEntry Number ρ}
    (he : e ∈ (c.put now ttl key report).entries) (hother : e ≠ (key, ⟨report, now + ttl⟩)) :
    ¬e.2.expiresAt ≤ now := by
  intro hexpired
  obtain ⟨⟨hold, hswept⟩, -⟩ := (mem_put_iff.1 he).resolve_left hother
  obtain ⟨t, hearliest, hle⟩ := h e hold (Number.ne_nan_of_le hexpired).1
  have hnan : t ≠ .float .nan := fun heq => hbound (heq ▸ hearliest)
  -- the bound comes before the entry's expiry, so the put sweeps
  have hdue : c.isDue now = true := by
    simp only [isDue, Option.mem_def.1 hearliest, Option.any_some, decide_eq_true_eq]
    exact Number.le_trans (hle hnan) hexpired
  exact hswept hdue hexpired

/-- A put whose expiry is NaN breaks the bound. -/
theorem not_isBounded_put {ttl : Number} (hnan : now + ttl = .float .nan) (key : String) (report : ρ) :
    ¬(c.put now ttl key report).IsBounded := by
  intro hbounded
  obtain ⟨t, -, hle⟩ := hbounded (key, ⟨report, now + ttl⟩) (mem_put_iff.2 (.inl rfl))
  exact (Number.ne_nan_of_le hle).2 hnan

/-- Whatever was put in, asked for and cleared, at whatever times: as long as none of the
    expiries since the cache was cleared is NaN, the earliest known expiry is a lower bound
    of those that are kept, and everything that a put leaves beside its own entry expires
    later; a put whose expiry is NaN breaks the bound at once. Even then a put leaves nothing
    else that has expired, unless NaN has become the bound; and a look leaves nothing under
    its key that has expired, ever. -/
theorem expired_entries_go (past : List (Number × Use Number ρ)) :
    ((∀ t ∈ expiries past, t ≠ .float .nan) →
      (ofPast past).IsBounded ∧
        ∀ now ttl key report, now ≠ .float .nan → ∀ e ∈ ((ofPast past).put now ttl key report).entries,
          e ≠ (key, ⟨report, now + ttl⟩) → now < e.2.expiresAt) ∧
      (∀ now ttl key report, now + ttl = .float .nan → ¬((ofPast past).put now ttl key report).IsBounded) ∧
      ((ofPast past).earliest ≠ some (.float .nan) →
        ∀ now ttl key report, ∀ e ∈ ((ofPast past).put now ttl key report).entries,
          e ≠ (key, ⟨report, now + ttl⟩) → ¬e.2.expiresAt ≤ now) ∧
      ∀ now key, ∀ e ∈ ((ofPast past).get now key).2.entries, e.1 = key → ¬e.2.expiresAt ≤ now := by
  have hguarded : (ofPast past).IsGuarded := isGuarded_ofPast past
  refine ⟨fun htimes => ?_, fun now ttl key report hnan => not_isBounded_put hnan key report,
    fun hbound now ttl key report e he hother => hguarded.put_drops_expired hbound he hother,
    fun now key e he hkey => get_drops_expired he hkey⟩
  have hbound : (ofPast past).earliest ≠ some (.float .nan) := fun heq => htimes _ (mem_expiries_of_earliest heq) rfl
  have hkept : ∀ e ∈ (ofPast past).entries, e.2.expiresAt ≠ .float .nan := fun e he =>
    htimes _ (mem_expiries_of_latest? (latest?_of_mem he))
  refine ⟨fun e he => ?_, fun now ttl key report hnow e he hother => ?_⟩
  · obtain ⟨t, hearliest, hle⟩ := hguarded e he (hkept e he)
    exact ⟨t, hearliest, hle fun heq => hbound (heq ▸ hearliest)⟩
  · have hold : e ∈ (ofPast past).entries := ((mem_put_iff.1 he).resolve_left hother).1.1
    exact (Number.le_or_lt (hkept e hold) hnow).resolve_left (hguarded.put_drops_expired hbound he hother)

/-- The clock goes back to 2 after a sweep at 4; what was put in expired by then goes at 5. -/
theorem expired_entries_go_rewound :
    let past : List (Number × Use Number String) := [
      (.int 3, .get "b"), (.int 5, .put "c" "fourth" (.int 4)), (.int 2, .put "a" "third" (.int 10)),
      (.int 4, .put "b" "second" (.int (-1))), (.int 0, .put "a" "first" (.int 3))]
    (∀ t ∈ expiries past, t ≠ .float .nan) ∧ (ofPast past).IsBounded ∧
      (ofPast past).entries = [("a", ⟨"third", .int 12⟩), ("c", ⟨"fourth", .int 9⟩)] ∧
      ∀ e ∈ ((ofPast past).put (.int 10) (.int 1) "d" "fifth").entries,
        e ≠ ("d", ⟨"fifth", .int 11⟩) → Number.int 10 < e.2.expiresAt := by
  intro past
  have htimes : ∀ t ∈ expiries past, t ≠ .float .nan := by decide
  obtain ⟨hbounded, hput⟩ := (expired_entries_go past).1 htimes
  exact ⟨htimes, hbounded, by decide, hput (.int 10) (.int 1) "d" "fifth" (by decide)⟩

/-- The sweep at 1 leaves `n`, whose expiry is NaN and becomes the bound, so that at 6 the
    entry of `b` is still there. -/
theorem expired_entry_stays :
    let past : List (Number × Use Number String) := [
      (.int 1, .put "b" "third" (.int 1)), (.int 0, .put "n" "second" (.float .nan)),
      (.int 0, .put "a" "first" (.int 1))]
    (ofPast past).earliest = some (.float .nan) ∧ ¬(ofPast past).IsBounded ∧
      ("b", ⟨"third", .int 2⟩) ∈ ((ofPast past).put (.int 6) (.int 1) "c" "fourth").entries ∧
      Number.int 2 ≤ .int 6 := by
  decide

end Cache

end Verdict
