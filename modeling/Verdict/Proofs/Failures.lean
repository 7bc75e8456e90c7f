/-
  Verdict.Proofs.Failures — an evaluation that fails leaves the engine as it was.

  An evaluation that finds no report in the cache makes one (`made`) and tells the
  observers of it in their order, up to the first that fails (`StopsAt`). If there is no
  report to tell of, nobody is told anything; if an observer fails, exactly those up to it
  were told, each once. In both cases the engine keeps nothing, and its cache is the one
  from before, less the entry that was looked for if that had expired
  (`evaluate_failure`). No other evaluation fails.
-/

import Verdict.Proofs.Memo

namespace Verdict.Engine

variable {τ ω : Type}

/-! ## Telling observers -/

/-- What observers that are told one after the other remember, and the events of telling
    them, from a place of the list on. -/
def tellAll (notice : Notice) : (place : Nat) → List (Observer ω) → ω → ω × List Event
  | _, [], memory => (memory, [])
  | place, observer :: rest, memory =>
    let told := observer notice memory
    let later := tellAll notice (place + 1) rest told.1
    (later.1, .notified place :: (told.2.events ++ later.2))

/-- Of the observers those up to the first that fails, each told after the one before. -/
inductive StopsAt (notice : Notice) (err : Error) : List (Observer ω) → ω → List (Observer ω) → Prop
  | here {observer : Observer ω} {rest : List (Observer ω)} {memory : ω} :
      (observer notice memory).2.result = .error err →
      StopsAt notice err (observer :: rest) memory [observer]
  | later {observer : Observer ω} {rest told : List (Observer ω)} {memory : ω} :
      (observer notice memory).2.result = .ok () →
      StopsAt notice err rest (observer notice memory).1 told →
      StopsAt notice err (observer :: rest) memory (observer :: told)

section

variable {notice : Notice} {err : Error} {observers told : List (Observer ω)} {memory : ω}

/-- They are the first of the observers, in their order. -/
theorem StopsAt.first (h : StopsAt notice err observers memory told) : told <+: observers := by
  induction h with
  | here hfails => exact List.prefix_cons_inj _ |>.2 List.nil_prefix
  | later hreturns _ ih => exact List.prefix_cons_inj _ |>.2 ih

/-- Telling one observer and then the others. -/
theorem notify_cons (place : Nat) (observer : Observer ω) (rest : List (Observer ω)) :
    notify notice place (observer :: rest) memory =
      match (observer notice memory).2.result with
      | .ok _ =>
        let later := notify notice (place + 1) rest (observer notice memory).1
        (later.1, ⟨.notified place :: ((observer notice memory).2.events ++ later.2.events), later.2.result⟩)
      | .error err =>
        ((observer notice memory).1, ⟨.notified place :: (observer notice memory).2.events, .error err⟩) := by
  cases hresult : (observer notice memory).2.result with
  | ok _ => simp [notify, Outcome.carry, Outcome.emit, hresult]
  | error err => simp [notify, Outcome.carry, Outcome.emit, hresult]

theorem StopsAt.notify (h : StopsAt notice err observers memory told) (place : Nat) :
    notify notice place observers memory =
      ((tellAll notice place told memory).1, ⟨(tellAll notice place told memory).2, .error err⟩) := by
  induction h generalizing place with
  | here hfails => simp [notify_cons, hfails, tellAll]
  | later hreturns _ ih => simp [notify_cons, hreturns, ih, tellAll]

theorem stopsAt_of_notify {place : Nat} (h : (notify notice place observers memory).2.result = .error err) :
    ∃ told, StopsAt notice err observers memory told := by
  induction observers generalizing place memory with
  | nil => cases h
  | cons observer rest ih =>
    rw [notify_cons] at h
    cases hresult : (observer notice memory).2.result with
    | error err' =>
      simp only [hresult, Except.error.injEq] at h
      exact ⟨[observer], .here (h ▸ hresult)⟩
    | ok _ =>
      simp only [hresult] at h
      obtain ⟨told, htold⟩ := ih h
      exact ⟨observer :: told, .later hresult htold⟩

end

/-! ## What a fresh evaluation does first -/

/-- Reads the blueprint and makes its report, without observers and without a cache; only
    a key is needed to look there, and that nothing was found is logged. -/
def made (e : Engine τ ω) (source context : Value) (memoize : Option Bool) : Outcome (Blueprint × Report) := do
  let b ← Blueprint.ofValue source
  if memoize.getD e.memoizes then
    let _ ← b.key (contextOf context)
    logCache "miss" b
  let report ← e.setting.evaluate b (contextOf context)
  return (b, report)

/-- A blueprint with a report, and with a key if one is needed, makes that report. -/
theorem made_of_report {e : Engine τ ω} {source context : Value} {memoize : Option Bool} {b : Blueprint}
    {report : Report} (hread : (Blueprint.ofValue source).result = .ok b)
    (hkey : memoize.getD e.memoizes = true → ∃ key, b.key (contextOf context) = .ok key)
    (hreport : (e.setting.evaluate b (contextOf context)).result = .ok report) :
    (e.made source context memoize).result = .ok (b, report) := by
  unfold made
  refine Outcome.result_bind_eq_ok.2 ⟨b, hread, ?_⟩
  split
  · next hmemo =>
    obtain ⟨key, hkey⟩ := hkey hmemo
    refine Outcome.result_bind_eq_ok.2 ⟨key, hkey, ?_⟩
    exact Outcome.result_bind_eq_ok.2 ⟨(), rfl, Outcome.result_bind_eq_ok.2 ⟨report, hreport, rfl⟩⟩
  · exact Outcome.result_bind_eq_ok.2 ⟨report, hreport, rfl⟩

/-- The key under which a fresh report is kept. -/
def freshKey (e : Engine τ ω) (context : Value) (memoize : Option Bool) (b : Blueprint) : Option String :=
  if memoize.getD e.memoizes then (b.key (contextOf context)).toOption else none

theorem freshKey_some {e : Engine τ ω} {context : Value} {memoize : Option Bool} {b : Blueprint} {key : String}
    (h : e.freshKey context memoize b = some key) :
    memoize.getD e.memoizes = true ∧ b.key (contextOf context) = .ok key := by
  unfold freshKey at h
  split at h
  · next hmemo =>
    cases hkey : b.key (contextOf context) with
    | error err =>
      rw [hkey] at h
      cases h
    | ok own =>
      rw [hkey] at h
      cases h
      exact ⟨hmemo, rfl⟩
  · cases h

variable [LE τ] [DecidableLE τ]

/-- The cache after the look for a report, unless one was found. Without a key there is
    nothing to look for. -/
def missed? (e : Engine τ ω) (present : Present τ) (source context : Value) (memoize : Option Bool) :
    Option (Cache τ Served) :=
  match (Blueprint.ofValue source).result with
  | .error _ => some e.cache
  | .ok b =>
    if memoize.getD e.memoizes then
      match b.key (contextOf context) with
      | .error _ => some e.cache
      | .ok key =>
        match e.cache.get present.asked key with
        | (none, cache) => some cache
        | (some _, _) => none
    else some e.cache

/-- Whether the cache is the one from before, or lacks only what had expired under the key
    that was looked for. -/
def Lapsed (e : Engine τ ω) (present : Present τ) (source context : Value) (memoize : Option Bool)
    (cache : Cache τ Served) : Prop :=
  cache = e.cache ∨
    memoize.getD e.memoizes = true ∧ ∃ b key entry, (Blueprint.ofValue source).result = .ok b ∧
      b.key (contextOf context) = .ok key ∧ e.cache.find? key = some entry ∧
      entry.expiresAt ≤ present.asked ∧ cache = e.cache.erase key

variable {e : Engine τ ω} {present : Present τ} {source context : Value} {memoize : Option Bool}
  {cache : Cache τ Served}

/-- How a look for a report finds none: there is no blueprint, the call is not looked up, it
    has no key, or nothing is kept under the key. -/
inductive Misses (e : Engine τ ω) (present : Present τ) (source context : Value) (memoize : Option Bool) :
    Cache τ Served → Prop
  | unread {err : Error} : (Blueprint.ofValue source).result = .error err →
      Misses e present source context memoize e.cache
  | unlooked {b : Blueprint} : (Blueprint.ofValue source).result = .ok b → ¬memoize.getD e.memoizes = true →
      Misses e present source context memoize e.cache
  | keyless {b : Blueprint} {err : Error} : (Blueprint.ofValue source).result = .ok b →
      memoize.getD e.memoizes = true → b.key (contextOf context) = .error err →
      Misses e present source context memoize e.cache
  | absent {b : Blueprint} {key : String} {cache : Cache τ Served} : (Blueprint.ofValue source).result = .ok b →
      memoize.getD e.memoizes = true → b.key (contextOf context) = .ok key →
      e.cache.get present.asked key = (none, cache) → Misses e present source context memoize cache

theorem misses_of_missed (h : e.missed? present source context memoize = some cache) :
    e.Misses present source context memoize cache := by
  unfold missed? at h
  split at h
  · next hread => exact Option.some.inj h ▸ .unread hread
  · next b hread =>
    split at h
    · next hmemo =>
      split at h
      · next hkey => exact Option.some.inj h ▸ .keyless hread hmemo hkey
      · next key hkey =>
        split at h
        · next hget => exact Option.some.inj h ▸ .absent hread hmemo hkey hget
        · cases h
    · next hmemo => exact Option.some.inj h ▸ .unlooked hread hmemo

/-- A look that finds a report finds it under the key of the call. -/
theorem found_of_missed (h : e.missed? present source context memoize = none) :
    ∃ b key served cache, (Blueprint.ofValue source).result = .ok b ∧ memoize.getD e.memoizes = true ∧
      b.key (contextOf context) = .ok key ∧ e.cache.get present.asked key = (some served, cache) := by
  unfold missed? at h
  split at h
  · cases h
  · next b hread =>
    split at h
    · next hmemo =>
      split at h
      · cases h
      · next key hkey =>
        split at h
        · cases h
        · next served cache hget => exact ⟨b, key, served, cache, hread, hmemo, hkey, hget⟩
    · cases h

theorem lapsed_of_missed (h : e.missed? present source context memoize = some cache) :
    e.Lapsed present source context memoize cache := by
  cases misses_of_missed h with
  | unread | unlooked | keyless => exact .inl rfl
  | absent hread hmemo hkey hget =>
    unfold Cache.get at hget
    split at hget
    · cases hget
      exact .inl rfl
    · next entry hfind =>
      split at hget
      · next hexpired =>
        cases hget
        exact .inr ⟨hmemo, _, _, entry, hread, hkey, hfind, hexpired, rfl⟩
      · cases hget

theorem missed_of_expired {b : Blueprint} {key : String} {entry : CacheEntry τ Served}
    (hread : (Blueprint.ofValue source).result = .ok b) (hmemo : memoize.getD e.memoizes = true)
    (hkey : b.key (contextOf context) = .ok key) (hfind : e.cache.find? key = some entry)
    (hexpired : entry.expiresAt ≤ present.asked) :
    e.missed? present source context memoize = some (e.cache.erase key) := by
  simp only [missed?, hread, if_pos hmemo, hkey, Cache.get, hfind, if_pos hexpired]

/-! ## Failing evaluations -/

variable [LT τ] [DecidableLT τ] [Add τ]

/-- An evaluation that finds no report makes one and tells of it, with the cache that the
    look left. -/
theorem evaluate_of_missed (h : e.missed? present source context memoize = some cache) :
    e.evaluate present source context memoize =
      (e.made source context memoize).carry { e with cache } fun p =>
        publish { e with cache } present.kept p.1 (contextOf context) (e.freshKey context memoize p.1) p.2 := by
  cases misses_of_missed h with
  | unread hread =>
    simp only [evaluate, made, Outcome.carry_bind, Outcome.carry_of_error hread]
  | unlooked hread hmemo =>
    simp only [evaluate, made, Outcome.carry_bind, Outcome.carry_of_ok hread, run, if_neg hmemo, runAfresh, freshKey,
      Outcome.carry_pure]
  | keyless hread hmemo hkey =>
    simp only [evaluate, made, Outcome.carry_bind, Outcome.carry_of_ok hread, run, if_pos hmemo, runMemoized, hkey]
    rw [Outcome.carry_of_error rfl]
    rfl
  | absent hread hmemo hkey hget =>
    simp only [evaluate, made, Outcome.carry_bind, Outcome.carry_of_ok hread, run, if_pos hmemo, runMemoized, hkey,
      runUnder, hget, runAfresh, freshKey, Outcome.carry_pure]
    rfl

theorem publish_stops {now : τ} {b : Blueprint} {key : Option String} {report : Report} {err : Error}
    {told : List (Observer ω)}
    (h : StopsAt ⟨report, context, b, e.cache.size⟩ err e.observers e.memory told) :
    e.publish now b context key report =
      let left := tellAll ⟨report, context, b, e.cache.size⟩ 0 told e.memory
      ({ e with memory := left.1 }, ⟨left.2, .error err⟩) := by
  simp only [publish, h.notify]
  exact Outcome.carry_of_error rfl _ _

/-- Keeping a report never fails. -/
theorem keep_returns (now : τ) (key : Option String) (served : Served) :
    (e.keep now key served).2.result = .ok served := by
  cases key with
  | none => rfl
  | some key =>
    simp only [keep, Outcome.result_bind, reportSweep_ok, ok_bind, Outcome.result_pure]

theorem stopsAt_of_publish {now : τ} {b : Blueprint} {key : Option String} {report : Report} {err : Error}
    (h : (e.publish now b context key report).2.result = .error err) :
    ∃ told, StopsAt ⟨report, context, b, e.cache.size⟩ err e.observers e.memory told := by
  unfold publish at h
  cases hresult : (notify ⟨report, context, b, e.cache.size⟩ 0 e.observers e.memory).2.result with
  | ok _ =>
    simp only [Outcome.carry_of_ok hresult, keep_returns] at h
    cases h
  | error err' =>
    simp only [Outcome.carry_of_error hresult] at h
    cases h
    exact stopsAt_of_notify hresult

/-- An evaluation that finds a report returns what was kept under its key. -/
theorem evaluate_of_kept (h : e.missed? present source context memoize = none) :
    ∃ b key entry, (Blueprint.ofValue source).result = .ok b ∧ memoize.getD e.memoizes = true ∧
      b.key (contextOf context) = .ok key ∧ (key, entry) ∈ e.cache.entries ∧
      (e.evaluate present source context memoize).2.result = .ok entry.report := by
  obtain ⟨b, key, served, cache, hread, hmemo, hkey, hget⟩ := found_of_missed h
  have hfound : (e.cache.get present.asked key).1 = some served := by rw [hget]
  obtain ⟨entry, hkept, rfl⟩ := Cache.mem_of_get hfound
  refine ⟨b, key, entry, hread, hmemo, hkey, hkept, ?_⟩
  simp only [evaluate, Outcome.carry_of_ok hread, run, if_pos hmemo, runMemoized, hkey, runUnder, hget]
  rfl

theorem evaluate_of_found (h : e.missed? present source context memoize = none) :
    ∃ served, (e.evaluate present source context memoize).2.result = .ok served := by
  obtain ⟨_, _, entry, _, _, _, _, hserved⟩ := evaluate_of_kept h
  exact ⟨entry.report, hserved⟩

/-- A report that is made anew is the answer, unless an observer refuses it. -/
theorem evaluate_of_report (hmissed : e.missed? present source context memoize = some cache) {b : Blueprint}
    {report : Report} (hread : (Blueprint.ofValue source).result = .ok b)
    (hkey : memoize.getD e.memoizes = true → ∃ key, b.key (contextOf context) = .ok key)
    (hreport : (e.setting.evaluate b (contextOf context)).result = .ok report)
    (hobservers : ∀ err, ¬Rejects e.observers report err) :
    ∃ served, (e.evaluate present source context memoize).2.result = .ok served ∧ served.report = report := by
  rw [evaluate_of_missed hmissed, (Outcome.carry_ok (made_of_report hread hkey hreport) _ _).2]
  unfold publish
  cases htold : (notify ⟨report, contextOf context, b, cache.size⟩ 0 e.observers e.memory).2.result with
  | error err => exact absurd (notify_error htold) (hobservers err)
  | ok => exact ⟨⟨e.runs, report⟩, by rw [(Outcome.carry_ok htold _ _).2, keep_returns], rfl⟩

/-- A fresh evaluation of a blueprint fails as the blueprint does, or as an observer does. -/
theorem runAfresh_error {b : Blueprint} {err : Error} {now : τ} {key : Option String}
    (h : (e.runAfresh now b context key).2.result = .error err) :
    (e.setting.evaluate b context).result = .error err ∨ ∃ report, Rejects e.observers report err := by
  unfold runAfresh at h
  cases hmade : (e.setting.evaluate b context).result with
  | error err' =>
    rw [Outcome.carry_of_error hmade] at h
    cases h
    exact .inl rfl
  | ok report =>
    rw [Outcome.carry_of_ok hmade] at h
    obtain ⟨told, hstops⟩ := stopsAt_of_publish h
    have hfails : (notify ⟨report, context, b, e.cache.size⟩ 0 e.observers e.memory).2.result = .error err := by
      rw [hstops.notify]
    exact .inr ⟨report, notify_error hfails⟩

theorem run_error {b : Blueprint} {err : Error} (h : (e.run present b context memoize).2.result = .error err) :
    (memoize.getD e.memoizes = true ∧ b.key context = .error err) ∨
      (e.setting.evaluate b context).result = .error err ∨ ∃ report, Rejects e.observers report err := by
  unfold run at h
  split at h
  · next hmemo =>
    unfold runMemoized at h
    split at h
    · next key hkey =>
      refine .inr ?_
      rcases hget : e.cache.get present.asked key with ⟨found, cache⟩
      simp only [runUnder, hget] at h
      cases found with
      | some served => cases h
      | none =>
        have hlogged : (logCache "miss" b).result = .ok () := rfl
        rw [Outcome.carry_of_ok hlogged] at h
        let asked : Engine τ ω := { e with cache }
        have hfails : (asked.setting.evaluate b context).result = .error err ∨
            ∃ report, Rejects asked.observers report err := runAfresh_error h
        exact hfails
    · next err' hkey =>
      cases h
      exact .inl ⟨hmemo, hkey⟩
  · exact .inr (runAfresh_error h)

/-- An evaluation of a mapping is one of the blueprint that it is read as. -/
theorem evaluate_of_read {b : Blueprint} (hread : (Blueprint.ofValue source).result = .ok b) :
    (e.evaluate present source context memoize).2.result =
      (e.run present b (contextOf context) memoize).2.result :=
  (Outcome.carry_ok hread _ _).2

/-- An evaluation that fails does so because the blueprint cannot be read, or the call has no
    key, or in evaluating the blueprint, or in an observer. -/
theorem evaluate_error {err : Error} (h : (e.evaluate present source context memoize).2.result = .error err) :
    (Blueprint.ofValue source).result = .error err ∨
      (∃ b, (Blueprint.ofValue source).result = .ok b ∧
        (memoize.getD e.memoizes = true ∧ b.key (contextOf context) = .error err ∨
          (e.setting.evaluate b (contextOf context)).result = .error err)) ∨
      ∃ report, Rejects e.observers report err := by
  cases hread : (Blueprint.ofValue source).result with
  | error err' =>
    unfold evaluate at h
    rw [(Outcome.carry_error hread _ _).2] at h
    cases h
    exact .inl rfl
  | ok b =>
    rw [evaluate_of_read hread] at h
    obtain hkey | hfails | hrejects := run_error h
    · exact .inr (.inl ⟨b, rfl, .inl hkey⟩)
    · exact .inr (.inl ⟨b, rfl, .inr hfails⟩)
    · exact .inr (.inr hrejects)

/-- What an evaluation that fails leaves behind, and when one does. -/
theorem evaluate_failure (e : Engine τ ω) (present : Present τ) (source context : Value)
    (memoize : Option Bool) :
    let made := e.made source context memoize
    (∀ cache, e.missed? present source context memoize = some cache →
      e.Lapsed present source context memoize cache ∧
      (∀ err, made.result = .error err →
        e.evaluate present source context memoize = ({ e with cache }, ⟨made.events, .error err⟩)) ∧
      ∀ b report err told, made.result = .ok (b, report) →
        StopsAt ⟨report, contextOf context, b, cache.size⟩ err e.observers e.memory told →
        let left := tellAll ⟨report, contextOf context, b, cache.size⟩ 0 told e.memory
        told <+: e.observers ∧
          e.evaluate present source context memoize =
            ({ e with cache, memory := left.1 }, ⟨made.events ++ left.2, .error err⟩)) ∧
    ∀ err, (e.evaluate present source context memoize).2.result = .error err →
      ∃ cache, e.missed? present source context memoize = some cache ∧
        (made.result = .error err ∨
          ∃ b report told, made.result = .ok (b, report) ∧
            StopsAt ⟨report, contextOf context, b, cache.size⟩ err e.observers e.memory told) := by
  intro made
  refine ⟨fun cache hmissed => ⟨lapsed_of_missed hmissed, ?_, ?_⟩, ?_⟩
  · intro err hmade
    rw [evaluate_of_missed hmissed]
    exact Outcome.carry_of_error hmade _ _
  · intro b report err told hmade hstops left
    refine ⟨hstops.first, ?_⟩
    rw [evaluate_of_missed hmissed, Outcome.carry_of_ok hmade]
    simp only [publish_stops (e := { e with cache }) hstops]
    rfl
  · intro err hfails
    cases hmissed : e.missed? present source context memoize with
    | none =>
      obtain ⟨served, hserved⟩ := evaluate_of_found hmissed
      rw [hserved] at hfails
      cases hfails
    | some cache =>
      refine ⟨cache, rfl, ?_⟩
      rw [evaluate_of_missed hmissed] at hfails
      cases hmade : made.result with
      | error err' =>
        rw [Outcome.carry_of_error hmade] at hfails
        cases hfails
        exact Or.inl rfl
      | ok p =>
        obtain ⟨b, report⟩ := p
        rw [Outcome.carry_of_ok hmade] at hfails
        obtain ⟨told, htold⟩ := stopsAt_of_publish (e := { e with cache }) hfails
        exact Or.inr ⟨b, report, told, rfl, htold⟩

/-- The report that was kept has just expired, and of three observers of the new one the
    second fails: the third is not told, and nothing is kept. -/
theorem evaluate_failure_second_observer :
    let b : Blueprint := {
      inputs := [], gates := [⟨.str "g", .or, [.literal .yes], [], .null, .null, none⟩]
      output := .null, name := .null, source := none }
    let report : Report :=
      ⟨.yes, [⟨.str "g", .yes, "OR", [⟨"true", .yes⟩], .null⟩], "+", [(.str "total_gates", .int 1), (.str "blueprint", .null)]⟩
    let note (n : Nat) : Observer (List Nat) := fun _ memory => (memory ++ [n], pure ())
    let refuse (n : Nat) : Observer (List Nat) := fun _ memory =>
      (memory ++ [n], throw (.hostFailure "sink unavailable"))
    ∃ key, b.key (.map []) = .ok key ∧
      let e : Engine Int (List Nat) := {
        setting := ⟨.standard, .none⟩, observers := [note 1, refuse 2, note 3], memoizes := true, ttl := 60
        cache := ⟨[(key, ⟨⟨0, report⟩, 5⟩)], some 5⟩, runs := 1, memory := [] }
      let out := e.evaluate ⟨5, 6⟩ b.toValue .null none
      out.2.result = .error (.hostFailure "sink unavailable") ∧ out.1.memory = [1, 2] ∧
        out.1.cache = ⟨[], some 5⟩ := by
  intro b report note refuse
  obtain ⟨key, hkey⟩ := b.key_of_whole (.map []) rfl rfl
  refine ⟨key, hkey, ?_⟩
  intro e out
  let cache : Cache Int Served := e.cache.erase key
  have hread : (Blueprint.ofValue b.toValue).result = .ok b := rfl
  have hfind : e.cache.find? key = some ⟨⟨0, report⟩, 5⟩ := List.lookup_cons_self
  have hmissed : e.missed? ⟨5, 6⟩ b.toValue .null none = some cache :=
    missed_of_expired hread rfl hkey hfind (Int.le_refl 5)
  have hmade : (e.made b.toValue .null none).result = .ok (b, report) :=
    made_of_report hread (fun _ => ⟨key, hkey⟩) rfl
  have hstops : StopsAt ⟨report, contextOf .null, b, cache.size⟩ (.hostFailure "sink unavailable")
      e.observers e.memory [note 1, refuse 2] := .later rfl (.here rfl)
  have hout := (((evaluate_failure e ⟨5, 6⟩ b.toValue .null none).1 cache hmissed).2.2 b report _ _ hmade hstops).2
  refine ⟨congrArg (·.2.result) hout, congrArg (·.1.memory) hout, ?_⟩
  have hempty : cache = ⟨[], some 5⟩ := by simp [cache, e, Cache.erase]
  exact (congrArg (·.1.cache) hout).trans hempty

end Verdict.Engine
