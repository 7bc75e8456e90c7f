/-
  Verdict.Proofs.Hits — which evaluations are served from the cache, and what others tell.

  Over a whole run of an engine that starts with an empty cache, under a clock that never
  goes back: an evaluation gives back an earlier report exactly when it is memoized and the
  latest memoized evaluation under its key that ran afresh to its end kept a report that
  still lasts. Such an evaluation has nothing to do with inputs, functions and observers;
  every other one that returns tells each observer once, in their order, before its report
  is kept; and one that is not memoized has nothing to do with the cache (`turns_match`).
  The invariant is that the cache recalls what the turns kept (`Remembers`).
-/

import Verdict.Proofs.Calls

namespace Verdict.Engine

variable {τ ω : Type}

/-! ## Runs -/

/-- What can be done with an engine. Functions may answer differently from one evaluation
    to the next: `equip` says what they do from then on. -/
inductive Command (τ ω : Type)
  | evaluate (call : Call τ)
  | configure (enabled : Bool) (ttl : Option τ)
  | observe (observer : Observer ω)
  | equip (setting : Blueprint.Setting)

/-- When the clock is read. -/
def Command.times : Command τ ω → List τ
  | .evaluate call => [call.present.asked, call.present.kept]
  | _ => []

section

variable [LE τ] [DecidableLE τ] [LT τ] [DecidableLT τ] [Add τ]

/-- The calls among the commands, each with the engine as it is then. -/
def turns : Engine τ ω → List (Command τ ω) → List (Turn τ ω)
  | _, [] => []
  | e, .evaluate call :: rest => ⟨e, call⟩ :: turns (e.answer call).1 rest
  | e, .configure enabled ttl :: rest => turns (e.memoize enabled ttl) rest
  | e, .observe observer :: rest => turns (e.observe observer) rest
  | e, .equip setting :: rest => turns { e with setting } rest

namespace Turn

variable (t : Turn τ ω)

/-- What the call keeps under a key: a report that it made itself, if it is memoized. -/
def kept? (key : String) : Option (CacheEntry τ Served) :=
  match t.outcome.result with
  | .ok served =>
    if t.key? = some key ∧ served.run = t.engine.runs then
      some ⟨served, t.call.present.kept + t.engine.ttl⟩
    else none
  | .error _ => none

/-- Whether the call gives back a report of an earlier evaluation. -/
def Reuses (served : Served) : Prop := t.outcome.result = .ok served ∧ served.run < t.engine.runs

end Turn

/-- The latest entry that the turns kept under a key. -/
def latest? (past : List (Turn τ ω)) (key : String) : Option (CacheEntry τ Served) :=
  past.reverse.findSome? fun t => t.kept? key

/-! ## What turns keep -/

namespace Turn

variable {t : Turn τ ω} {served : Served} {key : String}

theorem kept?_of_error {err : Error} (h : t.outcome.result = .error err) : t.kept? key = none := by
  rw [kept?, h]

theorem kept?_of_ok (h : t.outcome.result = .ok served) : t.kept? key =
    if t.key? = some key ∧ served.run = t.engine.runs then some ⟨served, t.call.present.kept + t.engine.ttl⟩
    else none := by
  rw [kept?, h]

/-- What a call tells of is not of an earlier evaluation. -/
theorem Tells.not_reuses {notice : Notice} {cache : Cache τ Served} (h : t.Tells notice cache served) :
    ¬t.Reuses served := by
  rintro ⟨-, hlt⟩
  rw [h.made] at hlt
  exact absurd hlt (Nat.lt_irrefl _)

end Turn

/-- A later turn keeps its report in place of earlier ones. -/
theorem latest?_concat (past : List (Turn τ ω)) (t : Turn τ ω) (key : String) :
    latest? (past ++ [t]) key = (t.kept? key).or (latest? past key) := by
  simp only [latest?, List.reverse_append, List.reverse_singleton, List.singleton_append, List.findSome?_cons]
  cases t.kept? key <;> rfl

end

/-! ## The invariant -/

variable [LinearOrder τ] [Add τ]

/-- The cache recalls what the turns kept, and all of it is of evaluations that ran to their
    end. -/
structure Remembers (e : Engine τ ω) (past : List (Turn τ ω)) (now : τ) : Prop where
  recalls : ∃ uses, e.cache.Recalls uses now ∧ ∀ key, Cache.latest? key uses = latest? past key
  ended : ∀ kept ∈ e.cache.entries, kept.2.report.run < e.runs

variable {e : Engine τ ω} {past : List (Turn τ ω)} {now later : τ} {t : Turn τ ω}

theorem remembers_empty (h : e.cache = .empty) (now : τ) : Remembers e [] now where
  recalls := ⟨[], h ▸ Cache.recalls_empty now, fun _ => rfl⟩
  ended := by
    rw [h]
    nofun

theorem Remembers.wait (h : Remembers e past now) (hle : now ≤ later) : Remembers e past later where
  recalls := by
    obtain ⟨uses, hrecalls, hlatest⟩ := h.recalls
    exact ⟨uses, hrecalls.wait hle, hlatest⟩
  ended := h.ended

/-- What is found is the latest entry that was kept, as long as it lasts. -/
theorem Remembers.get_eq_some (h : Remembers e past now) {key : String} {served : Served} :
    (e.cache.get now key).1 = some served ↔
      ∃ entry, latest? past key = some entry ∧ now < entry.expiresAt ∧ entry.report = served := by
  obtain ⟨uses, hrecalls, hlatest⟩ := h.recalls
  rw [hrecalls.answer key, Cache.standing?, hlatest]
  cases latest? past key with
  | none => simp
  | some entry => simp

/-- What is found was made by an earlier evaluation. -/
theorem Remembers.run_lt (h : Remembers e past now) {key : String} {served : Served}
    (hget : (e.cache.get now key).1 = some served) : served.run < e.runs := by
  obtain ⟨entry, hmem, rfl⟩ := Cache.mem_of_get hget
  exact h.ended _ hmem

/-- Looking for a report in vain loses nothing that still lasts. -/
theorem Remembers.look {cache : Cache τ Served} (h : Remembers t.engine past now)
    (hlooked : ∀ key, t.key? = some key → t.engine.cache.get now key = (none, cache))
    (hunlooked : t.key? = none → t.engine.cache = cache) : Remembers { t.engine with cache } past now := by
  cases hkey : t.key? with
  | none =>
    rw [← hunlooked hkey]
    exact h
  | some key =>
    have hget : (t.engine.cache.get now key).2 = cache := by rw [hlooked key hkey]
    obtain ⟨uses, hrecalls, hlatest⟩ := h.recalls
    subst hget
    exact ⟨⟨(now, .get key) :: uses, hrecalls.get key, hlatest⟩,
      fun kept hkept => h.ended kept (Cache.get_subset _ _ _ hkept)⟩

/-- Only the cache and the number of runs matter. -/
theorem Remembers.congr {e' : Engine τ ω} (h : Remembers e past now) (hcache : e'.cache = e.cache)
    (hruns : e.runs ≤ e'.runs) : Remembers e' past now where
  recalls := hcache ▸ h.recalls
  ended := fun kept hkept => Nat.lt_of_lt_of_le (h.ended kept (hcache ▸ hkept)) hruns

theorem Remembers.unkept (h : Remembers e past now) (hkept : ∀ key, t.kept? key = none) :
    Remembers e (past ++ [t]) now where
  recalls := by
    obtain ⟨uses, hrecalls, hlatest⟩ := h.recalls
    refine ⟨uses, hrecalls, fun key => ?_⟩
    rw [hlatest, latest?_concat, hkept, Option.none_or]
  ended := h.ended

/-- A report that is told of is the latest under its key from then on, if there is one. -/
theorem Remembers.tell {notice : Notice} {cache : Cache τ Served} {served : Served}
    (h : Remembers { t.engine with cache } past t.call.present.kept) (hserved : t.outcome.result = .ok served)
    (hruns : t.after.runs = t.engine.runs + 1) (htells : t.Tells notice cache served) :
    Remembers t.after (past ++ [t]) t.call.present.kept := by
  have hrun : served.run = t.engine.runs := congrArg Served.run htells.made
  have hle : t.engine.runs ≤ t.after.runs := hruns ▸ Nat.le_succ _
  cases hkey : t.key? with
  | none =>
    refine (h.congr (htells.unlooked hkey).2 hle).unkept fun key => ?_
    rw [Turn.kept?_of_ok hserved, hkey, if_neg fun heq => nomatch heq.1]
  | some key =>
    obtain ⟨-, -, hcache⟩ := htells.looked key hkey
    obtain ⟨uses, hrecalls, hlatest⟩ := h.recalls
    refine ⟨⟨(t.call.present.kept, .put key served t.engine.ttl) :: uses, ?_, fun k => ?_⟩,
      fun kept hkept => ?_⟩
    · rw [hcache]
      exact hrecalls.put key served t.engine.ttl
    · rw [latest?_concat, Turn.kept?_of_ok hserved, hkey, ← hlatest k, Cache.latest?]
      by_cases hk : key = k
      · simp [hk, hrun]
      · simp [hk]
    · rw [hcache] at hkept
      rcases Cache.mem_put hkept with ⟨-, hreport⟩ | hold
      · rw [hreport, hrun, hruns]
        exact Nat.lt_succ_self _
      · exact Nat.lt_of_lt_of_le (h.ended kept hold) hle

/-- After a call the engine remembers what it kept, too. -/
theorem Remembers.turn (h : Remembers t.engine past t.call.present.asked)
    (hclock : t.call.present.asked ≤ t.call.present.kept) :
    Remembers t.after (past ++ [t]) t.call.present.kept := by
  have hgoes := t.goes
  generalize hresult : t.outcome.result = result at hgoes
  cases hgoes with
  | finds served key _ hget haloof =>
    have hlt : served.run < t.engine.runs := h.run_lt (congrArg (·.1) hget)
    rw [haloof.answer_eq.1]
    refine (h.unkept fun key => ?_).wait hclock
    rw [Turn.kept?_of_ok hresult, if_neg fun heq => Nat.ne_of_lt hlt heq.2]
  | fails err cache hcache hruns hlooked hunlooked =>
    have hlook : Remembers { t.engine with cache } past t.call.present.asked := h.look hlooked hunlooked
    exact ((hlook.congr hcache (Nat.le_of_eq hruns.symm)).unkept fun _ => Turn.kept?_of_error hresult).wait hclock
  | tells notice cache served hruns htells =>
    have hlook : Remembers { t.engine with cache } past t.call.present.asked :=
      h.look (fun key hkey => (htells.looked key hkey).1) fun hkey => (htells.unlooked hkey).1
    exact (hlook.wait hclock).tell hresult hruns htells

/-! ## Runs -/

/-- Whenever the clock is read in a run, the engine remembers the turns so far. -/
theorem remembers_of_turns {done later : List (Turn τ ω)} {commands : List (Command τ ω)}
    (h : ∀ now ∈ commands.flatMap Command.times, Remembers e done now)
    (hclock : (commands.flatMap Command.times).Pairwise (· ≤ ·)) (hturns : e.turns commands = past ++ t :: later) :
    Remembers t.engine (done ++ past) t.call.present.asked := by
  induction commands generalizing e done past with
  | nil => cases past <;> cases hturns
  | cons command rest ih =>
    -- only an evaluation touches what is remembered
    have hsame (e' : Engine τ ω) (hcache : e'.cache = e.cache) (hruns : e'.runs = e.runs) :
        ∀ now ∈ rest.flatMap Command.times, Remembers e' done now := fun now hnow =>
      (h now (List.mem_append_right _ hnow)).congr hcache (Nat.le_of_eq hruns.symm)
    cases command with
    | configure enabled ttl => exact ih (hsame (e.memoize enabled ttl) rfl rfl) hclock hturns
    | observe observer => exact ih (hsame (e.observe observer) rfl rfl) hclock hturns
    | equip setting => exact ih (hsame { e with setting } rfl rfl) hclock hturns
    | evaluate call =>
      have hasked : Remembers e done call.present.asked := h _ List.mem_cons_self
      obtain ⟨hfirst, hclock⟩ := List.pairwise_cons.1 hclock
      obtain ⟨hkept, hclock⟩ := List.pairwise_cons.1 hclock
      rw [turns] at hturns
      cases past with
      | nil =>
        cases hturns
        rw [List.append_nil]
        exact hasked
      | cons first past =>
        obtain ⟨rfl, hrest⟩ := List.cons.inj hturns
        have hturn : Remembers (e.answer call).1 (done ++ [⟨e, call⟩]) call.present.kept :=
          Remembers.turn (t := ⟨e, call⟩) hasked (hfirst _ List.mem_cons_self)
        have hlater := ih (fun now hnow => hturn.wait (hkept now hnow)) hclock hrest
        rwa [List.append_assoc] at hlater

/-- A call gives back a report exactly if the cache holds one for it. -/
theorem Remembers.reuses_iff (h : Remembers t.engine past t.call.present.asked) {served : Served} :
    t.Reuses served ↔
      ∃ key, t.key? = some key ∧ (t.engine.cache.get t.call.present.asked key).1 = some served := by
  constructor
  · intro hreuses
    have hgoes : Goes t (.ok served) := hreuses.1 ▸ t.goes
    cases hgoes with
    | finds _ key hkey hget => exact ⟨key, hkey, congrArg (·.1) hget⟩
    | tells _ _ _ _ htells => exact absurd hreuses htells.not_reuses
  · rintro ⟨key, hkey, hsome⟩
    refine ⟨?_, h.run_lt hsome⟩
    have hgoes := t.goes
    generalize t.outcome.result = result at hgoes ⊢
    cases hgoes with
    | finds found _ hkey' hget =>
      cases hkey.symm.trans hkey'
      rw [hget] at hsome
      exact congrArg _ (Option.some.inj hsome)
    | fails _ _ _ _ hlooked =>
      rw [hlooked key hkey] at hsome
      cases hsome
    | tells _ _ _ _ htells =>
      rw [(htells.looked key hkey).1] at hsome
      cases hsome

/-- While nothing is kept, a call makes its report and tells every observer. -/
theorem Turn.makes_of_empty {t : Turn τ ω} (hempty : t.engine.cache = .empty) {b : Blueprint} {report : Report}
    (hread : (Blueprint.ofValue t.call.source).result = .ok b)
    (hkey : t.isMemoized = true → ∃ key, b.key (contextOf t.call.context) = .ok key)
    (hreport : (t.engine.setting.evaluate b (contextOf t.call.context)).result = .ok report)
    (htold : (notify ⟨report, contextOf t.call.context, b, t.engine.cache.size⟩ 0 t.engine.observers
      t.engine.memory).2.result = .ok ()) :
    t.outcome.result = .ok ⟨t.engine.runs, report⟩ ∧
      t.after.memory = (tellAll ⟨report, contextOf t.call.context, b, t.engine.cache.size⟩ 0 t.engine.observers
        t.engine.memory).1 := by
  have hmade := made_of_report hread hkey hreport
  cases hmissed : t.engine.missed? t.call.present t.call.source t.call.context t.call.memoize with
  | none =>
    obtain ⟨_, _, _, -, -, -, hmem, -⟩ := evaluate_of_kept hmissed
    rw [hempty] at hmem
    cases hmem
  | some cache =>
    obtain rfl : cache = t.engine.cache := by
      obtain hsame | ⟨-, _, _, _, -, -, hfind, -⟩ := lapsed_of_missed hmissed
      · exact hsame
      · rw [hempty] at hfind
        cases hfind
    obtain ⟨swept, -, hpublish⟩ :=
      publish_of_told t.call.present.kept (t.engine.freshKey t.call.context t.call.memoize b) htold
    rw [outcome, after, answer, evaluate_of_missed hmissed, Outcome.carry_of_ok hmade]
    exact ⟨congrArg (·.2.result) hpublish, congrArg (·.1.memory) hpublish⟩

/-- In a run that starts with an empty cache, under a clock that does not go back, a call
    gives back an earlier report exactly when the latest one that was kept under its key
    still lasts, and then it does nothing else; every other call that returns a report tells
    of it; and a call that is not memoized has nothing to do with the cache. -/
theorem turns_match {e : Engine τ ω} (hempty : e.cache = .empty) {commands : List (Command τ ω)}
    (hclock : (commands.flatMap Command.times).Pairwise (· ≤ ·)) {past later : List (Turn τ ω)} {t : Turn τ ω}
    (hturns : e.turns commands = past ++ t :: later) :
    (∀ served, t.Reuses served ↔ ∃ key entry, t.key? = some key ∧ latest? past key = some entry ∧
        t.call.present.asked < entry.expiresAt ∧ entry.report = served) ∧
      (∀ served, t.Reuses served → t.IsAloof served) ∧
      (∀ served, t.outcome.result = .ok served → ¬t.Reuses served → ∃ notice cache, t.Tells notice cache served) ∧
      (t.isMemoized = false → t.IgnoresCache) := by
  have hstart : ∀ now ∈ commands.flatMap Command.times, Remembers e [] now := fun now _ =>
    remembers_empty hempty now
  have hremembers : Remembers t.engine past t.call.present.asked := remembers_of_turns hstart hclock hturns
  refine ⟨fun served => ?_, fun served hreuses => ?_, fun served hserved hfresh => ?_, Turn.ignoresCache⟩
  · rw [hremembers.reuses_iff]
    simp only [hremembers.get_eq_some, exists_and_left]
  · have hgoes : Goes t (.ok served) := hreuses.1 ▸ t.goes
    cases hgoes with
    | finds _ _ _ _ haloof => exact haloof
    | tells _ _ _ _ htells => exact absurd hreuses htells.not_reuses
  · have hgoes : Goes t (.ok served) := hserved ▸ t.goes
    cases hgoes with
    | finds _ _ _ hget => exact absurd ⟨hserved, hremembers.run_lt (congrArg (·.1) hget)⟩ hfresh
    | tells notice cache _ _ htells => exact ⟨notice, cache, htells⟩

/-- The first call is not given a context and tells two observers. The second asks for the
    cache when the engine does not, and for a shorter lifetime than the report was kept for. -/
theorem turns_match_shortened :
    let b : Blueprint := {
      inputs := [], gates := [⟨.str "g", .or, [.literal .yes], [], .null, .null, none⟩]
      output := .null, name := .null, source := none }
    let report : Report :=
      ⟨.yes, [⟨.str "g", .yes, "OR", [⟨"true", .yes⟩], .null⟩], "+", [(.str "total_gates", .int 1), (.str "blueprint", .null)]⟩
    let note (n : Nat) : Observer (List Nat) := fun _ memory => (memory ++ [n], pure ())
    let e : Engine Int (List Nat) :=
      { Engine.fresh ⟨.standard, .none⟩ true 60 [] with observers := [note 1, note 2] }
    let first : Turn Int (List Nat) := ⟨e, ⟨⟨0, 1⟩, b.toValue, .null, none⟩⟩
    let second : Turn Int (List Nat) :=
      ⟨first.after.memoize false (some 3), ⟨⟨4, 4⟩, b.toValue, .map [], some true⟩⟩
    e.turns [.evaluate first.call, .configure false (some 3), .evaluate second.call] = [first, second] ∧
      second.outcome.result = .ok ⟨0, report⟩ ∧ second.after.memory = [1, 2] := by
  intro b report note e first second
  let commands : List (Command Int (List Nat)) :=
    [.evaluate first.call, .configure false (some 3), .evaluate second.call]
  have hclock : (commands.flatMap Command.times).Pairwise (· ≤ ·) := by decide
  have hturns : e.turns commands = [first] ++ second :: [] := rfl
  have hread : (Blueprint.ofValue b.toValue).result = .ok b := rfl
  obtain ⟨key, hkey⟩ := b.key_of_whole (.map []) rfl rfl
  obtain ⟨hserved, hmemory⟩ : first.outcome.result = .ok ⟨0, report⟩ ∧ first.after.memory = [1, 2] :=
    Turn.makes_of_empty rfl hread (fun _ => ⟨key, hkey⟩) rfl rfl
  have hfirst : first.key? = some key := Turn.key?_of_key hread rfl hkey
  have hsecond : second.key? = some key := Turn.key?_of_key hread rfl hkey
  have hlatest : latest? [first] key = some ⟨⟨0, report⟩, 61⟩ := by
    have hkept : first.kept? key = some ⟨⟨0, report⟩, 61⟩ := by
      rw [Turn.kept?_of_ok hserved, if_pos ⟨hfirst, rfl⟩]
      rfl
    have hall := latest?_concat [] first key
    rw [hkept] at hall
    exact hall
  obtain ⟨hreuses, haloof, -, -⟩ := turns_match rfl hclock hturns
  have hsame : second.Reuses ⟨0, report⟩ := (hreuses _).2 ⟨_, _, hsecond, hlatest, by decide, rfl⟩
  have hafter : second.after = second.engine := (haloof _ hsame).answer_eq.1
  refine ⟨hturns, hsame.1, ?_⟩
  rw [hafter]
  simp only [second, memoize]
  exact hmemory

end Verdict.Engine
