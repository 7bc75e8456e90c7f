/-
  Verdict.Proofs.Calls — the ways in which one evaluation can go.

  An evaluation that is asked for finds its report in the cache, or fails, or makes a report
  and tells of it (`Goes`, `Turn.goes`). Where a report is found, inputs, functions and
  observers have no part in it (`IsAloof`). A report that is made is told to each observer
  once, in their order, while nothing is kept under its key, and is kept only then
  (`Tells`). An evaluation that is not memoized goes the same way with every cache
  (`Turn.ignoresCache`).
-/

import Verdict.Proofs.Failures

namespace Verdict

/-! ## Quiet outcomes -/

/-- Whether all that happens is messages to the log. -/
def OnlyLogged (events : List Event) : Prop := ∀ event ∈ events, ∃ record, event = .logged record

theorem OnlyLogged.append {first later : List Event} (hfirst : OnlyLogged first) (hlater : OnlyLogged later) :
    OnlyLogged (first ++ later) := fun event hevent =>
  (List.mem_append.1 hevent).elim (hfirst event) (hlater event)

namespace Outcome

variable {α β : Type}

def IsQuiet (x : Outcome α) : Prop := OnlyLogged x.events

theorem quiet_pure (a : α) : (pure a : Outcome α).IsQuiet := nofun

theorem quiet_lift (x : Except Error α) : (liftM x : Outcome α).IsQuiet := nofun

theorem quiet_log (logger : String) (level : Level) (message : String) : (log logger level message).IsQuiet := by
  intro event hevent
  exact ⟨_, List.mem_singleton.1 hevent⟩

theorem IsQuiet.bind {x : Outcome α} {f : α → Outcome β} (hx : x.IsQuiet) (hf : ∀ a, (f a).IsQuiet) :
    (x >>= f).IsQuiet := by
  rw [bind_def]
  unfold Outcome.bind
  split
  · next a _ => exact OnlyLogged.append hx (hf a)
  · exact hx

end Outcome

open Outcome

/-- Reading an operator at most warns of its name. -/
theorem Operator.quiet_read (v : Value) : (Operator.read v).IsQuiet := by
  unfold Operator.read
  split
  · exact quiet_pure _
  · exact quiet_pure _
  · split
    · exact quiet_pure _
    · exact (quiet_log _ _ _).bind fun _ => quiet_pure _

theorem Gate.quiet_ofDefinition (name definition : Value) : (Gate.ofDefinition name definition).IsQuiet := by
  unfold Gate.ofDefinition
  refine (quiet_lift _).bind fun _ => (quiet_lift _).bind fun _ => (Operator.quiet_read _).bind fun _ => ?_
  refine (quiet_lift _).bind fun _ => (quiet_lift _).bind fun _ => (quiet_lift _).bind fun _ => quiet_pure _

theorem Gate.quiet_ofDefinitions (items : List (Value × Value)) : (Gate.ofDefinitions items).IsQuiet := by
  induction items with
  | nil => exact quiet_pure _
  | cons item items ih =>
    exact (Gate.quiet_ofDefinition _ _).bind fun _ => ih.bind fun _ => quiet_pure _

theorem Blueprint.quiet_ofValue (v : Value) : (Blueprint.ofValue v).IsQuiet := by
  unfold Blueprint.ofValue
  split
  · exact quiet_pure _
  · unfold Blueprint.ofMapping
    refine (quiet_lift _).bind fun _ => (quiet_lift _).bind fun _ => (quiet_lift _).bind fun _ => ?_
    refine (quiet_lift _).bind fun _ => (quiet_lift _).bind fun _ => (quiet_lift _).bind fun _ => ?_
    exact (Gate.quiet_ofDefinitions _).bind fun _ => (quiet_lift _).bind fun _ => quiet_pure _

/-! ## A look into the cache -/

namespace Cache

variable {τ ρ : Type} [LE τ] [DecidableLE τ] {c c' : Cache τ ρ} {now : τ} {key : String}

/-- Finding a report changes nothing. -/
theorem get_some {report : ρ} (h : c.get now key = (some report, c')) : c' = c := by
  unfold get at h
  split at h
  · cases h
  · split at h
    · cases h
    · cases h
      rfl

/-- Where no report is found there is none, not even an expired one. -/
theorem find?_of_get_none (h : c.get now key = (none, c')) : c'.find? key = none := by
  unfold get at h
  split at h
  · next hfind =>
    cases h
    exact hfind
  · split at h
    · cases h
      refine List.lookup_eq_none_iff.2 fun e he => ?_
      exact bne_iff_ne.2 (Ne.symm (mem_erase.1 he).2)
    · cases h

end Cache

namespace Engine

variable {τ ω : Type}

/-! ## Calls -/

/-- An evaluation that an engine is asked for. -/
structure Call (τ : Type) where
  present : Present τ
  source : Value
  context : Value
  memoize : Option Bool

/-- A call, and the engine that it is made to. -/
structure Turn (τ ω : Type) where
  engine : Engine τ ω
  call : Call τ

section

variable [LE τ] [DecidableLE τ] [LT τ] [DecidableLT τ] [Add τ]

def answer (e : Engine τ ω) (call : Call τ) : Engine τ ω × Outcome Served :=
  e.evaluate call.present call.source call.context call.memoize

namespace Turn

variable (t : Turn τ ω)

/-- The engine after the call. -/
def after : Engine τ ω := (t.engine.answer t.call).1

def outcome : Outcome Served := (t.engine.answer t.call).2

def isMemoized : Bool := t.call.memoize.getD t.engine.memoizes

/-- The key under which a memoized call looks for its report. -/
def key? : Option String :=
  if t.isMemoized then
    match (Blueprint.ofValue t.call.source).result with
    | .ok b => (b.key (contextOf t.call.context)).toOption
    | .error _ => none
  else none

/-- Whether the call reads its blueprint, says that a report was found and changes nothing,
    whatever inputs, functions and observers would do. -/
def IsAloof (served : Served) : Prop :=
  ∃ b events, (Blueprint.ofValue t.call.source).result = .ok b ∧
    events = (Blueprint.ofValue t.call.source).events ++ (logCache "hit" b).events ∧
    OnlyLogged events ∧ ∀ setting observers,
      { t.engine with setting, observers }.answer t.call =
        ({ t.engine with setting, observers }, ⟨events, .ok served⟩)

/-- Whether the call made its report, gave each observer notice of it once, in their order,
    while the cache held nothing under its key, and only then kept it there. -/
structure Tells (notice : Notice) (cache : Cache τ Served) (served : Served) : Prop where
  read : (Blueprint.ofValue t.call.source).result = .ok notice.blueprint
  context : notice.context = contextOf t.call.context
  report : (t.engine.setting.evaluate notice.blueprint notice.context).result = .ok notice.report
  made : served = ⟨t.engine.runs, notice.report⟩
  memory : t.after.memory =
    t.engine.observers.foldl (fun memory observer => (observer notice memory).1) t.engine.memory
  events : ∃ swept, OnlyLogged swept ∧
    t.outcome.events = (t.engine.made t.call.source t.call.context t.call.memoize).events ++
      (tellAll notice 0 t.engine.observers t.engine.memory).2 ++ swept
  size : notice.kept = cache.size
  looked : ∀ key, t.key? = some key →
    t.engine.cache.get t.call.present.asked key = (none, cache) ∧ cache.find? key = none ∧
      t.after.cache = cache.put t.call.present.kept t.engine.ttl key served
  unlooked : t.key? = none → t.engine.cache = cache ∧ t.after.cache = cache

/-- Whether the call leaves the cache alone and goes the same way with any other one, as
    long as its size makes no difference to an observer. -/
def IgnoresCache : Prop :=
  t.after.cache = t.engine.cache ∧ ∀ cache : Cache τ Served,
    (∀ observer ∈ t.engine.observers, ∀ (notice : Notice) memory,
      observer { notice with kept := cache.size } memory =
        observer { notice with kept := t.engine.cache.size } memory) →
    { t.engine with cache }.answer t.call = ({ t.after with cache }, t.outcome)

end Turn

/-! ## One call -/

section

variable {notice : Notice} {observers : List (Observer ω)} {memory : ω}

/-- Each observer is told once, and finds what those before it remember. -/
theorem tellAll_memory (place : Nat) :
    (tellAll notice place observers memory).1 =
      observers.foldl (fun memory observer => (observer notice memory).1) memory := by
  induction observers generalizing place memory with
  | nil => rfl
  | cons observer rest ih => exact ih (place + 1)

theorem notify_all {place : Nat} (h : (notify notice place observers memory).2.result = .ok ()) :
    notify notice place observers memory =
      ((tellAll notice place observers memory).1, ⟨(tellAll notice place observers memory).2, .ok ()⟩) := by
  induction observers generalizing place memory with
  | nil => rfl
  | cons observer rest ih =>
    rw [notify_cons] at h ⊢
    cases hresult : (observer notice memory).2.result with
    | error err =>
      simp only [hresult] at h
      cases h
    | ok _ =>
      simp only [hresult] at h ⊢
      rw [ih h, tellAll]

end

theorem quiet_reportSweep (count : Nat) : (reportSweep count).IsQuiet := by
  unfold reportSweep
  split
  · exact quiet_pure _
  · exact quiet_log _ _ _

end

/-- What is made is the report of the blueprint that was read. -/
theorem of_made {e : Engine τ ω} {source context : Value} {memoize : Option Bool} {b : Blueprint}
    {report : Report} (h : (e.made source context memoize).result = .ok (b, report)) :
    (Blueprint.ofValue source).result = .ok b ∧
      (e.setting.evaluate b (contextOf context)).result = .ok report := by
  unfold made at h
  obtain ⟨b', hread, h⟩ := Outcome.result_bind_eq_ok.1 h
  have hmade : (do let report ← e.setting.evaluate b' (contextOf context); return (b', report) : Outcome _).result
      = .ok (b, report) := by
    split at h
    · obtain ⟨_, -, h⟩ := Outcome.result_bind_eq_ok.1 h
      obtain ⟨_, -, h⟩ := Outcome.result_bind_eq_ok.1 h
      exact h
    · exact h
  obtain ⟨report', hreport, hpair⟩ := Outcome.result_bind_eq_ok.1 hmade
  cases hpair
  exact ⟨hread, hreport⟩

namespace Turn

variable {t : Turn τ ω} {cache : Cache τ Served}

theorem key?_of_read {b : Blueprint} (h : (Blueprint.ofValue t.call.source).result = .ok b) :
    t.key? = t.engine.freshKey t.call.context t.call.memoize b := by
  simp only [key?, isMemoized, freshKey, h]

theorem key?_of_key {b : Blueprint} {key : String} (hread : (Blueprint.ofValue t.call.source).result = .ok b)
    (hmemo : t.isMemoized = true) (hkey : b.key (contextOf t.call.context) = .ok key) : t.key? = some key := by
  rw [key?, if_pos hmemo, hread]
  exact congrArg Except.toOption hkey

theorem key?_of_unmemoized (h : t.isMemoized = false) : t.key? = none := by
  rw [key?, h]
  rfl

variable [LE τ] [DecidableLE τ]

/-- What the look for a report found where it found none. -/
theorem looked_of_missed
    (h : t.engine.missed? t.call.present t.call.source t.call.context t.call.memoize = some cache) :
    (∀ key, t.key? = some key → t.engine.cache.get t.call.present.asked key = (none, cache)) ∧
      (t.key? = none → t.engine.cache = cache) := by
  unfold key? isMemoized
  cases misses_of_missed h with
  | unread hread => simp [hread]
  | unlooked hread hmemo => simp [hmemo]
  | keyless hread hmemo hkey => simp [hread, hmemo, hkey, Except.toOption]
  | absent hread hmemo hkey hget => simp [hread, hmemo, hkey, hget, Except.toOption]

end Turn

section

variable [LE τ] [DecidableLE τ] [LT τ] [DecidableLT τ] [Add τ]

/-- How a call can go: it finds a report, it fails, or it makes a report and tells of it. -/
inductive Goes (t : Turn τ ω) : Except Error Served → Prop
  | finds (served : Served) (key : String) : t.key? = some key →
      t.engine.cache.get t.call.present.asked key = (some served, t.engine.cache) → t.IsAloof served →
      Goes t (.ok served)
  | fails (err : Error) (cache : Cache τ Served) : t.after.cache = cache → t.after.runs = t.engine.runs →
      (∀ key, t.key? = some key → t.engine.cache.get t.call.present.asked key = (none, cache)) →
      (t.key? = none → t.engine.cache = cache) → Goes t (.error err)
  | tells (notice : Notice) (cache : Cache τ Served) (served : Served) : t.after.runs = t.engine.runs + 1 →
      t.Tells notice cache served → Goes t (.ok served)

/-- Keeping a report changes the cache, if there is a key, and may tell the log of a sweep. -/
theorem keep_eq (e : Engine τ ω) (now : τ) (key : Option String) (served : Served) :
    ∃ swept, OnlyLogged swept ∧
      e.keep now key served =
        ({ e with cache := key.elim e.cache fun key => e.cache.put now e.ttl key served },
          ⟨swept, .ok served⟩) := by
  have hresult : (e.keep now key served).2.result = .ok served := keep_returns now key served
  have hquiet : (e.keep now key served).2.IsQuiet := by
    cases key with
    | none => exact quiet_pure _
    | some key => exact (quiet_reportSweep _).bind fun _ => quiet_pure _
  refine ⟨(e.keep now key served).2.events, hquiet, ?_⟩
  rw [← hresult]
  cases key <;> rfl

/-- A report that no observer refuses is told to all of them and then kept. -/
theorem publish_of_told {e : Engine τ ω} (now : τ) {b : Blueprint} {context : Value} (key : Option String)
    {report : Report}
    (h : (notify ⟨report, context, b, e.cache.size⟩ 0 e.observers e.memory).2.result = .ok ()) :
    let told := tellAll ⟨report, context, b, e.cache.size⟩ 0 e.observers e.memory
    let served : Served := ⟨e.runs, report⟩
    ∃ swept, OnlyLogged swept ∧
      e.publish now b context key report =
        ({ e with
            memory := told.1, runs := e.runs + 1
            cache := key.elim e.cache fun key => e.cache.put now e.ttl key served },
          ⟨told.2 ++ swept, .ok served⟩) := by
  intro told served
  obtain ⟨swept, hquiet, hkeep⟩ := keep_eq { e with memory := told.1, runs := e.runs + 1 } now key served
  refine ⟨swept, hquiet, ?_⟩
  rw [publish, Outcome.carry_of_ok h, notify_all h, hkeep]

namespace Turn

variable {t : Turn τ ω} {cache : Cache τ Served}

theorem IsAloof.answer_eq {served : Served} (h : t.IsAloof served) :
    t.after = t.engine ∧ t.outcome.result = .ok served := by
  obtain ⟨_, events, -, -, -, hanswer⟩ := h
  have hown : t.engine.answer t.call = (t.engine, ⟨events, .ok served⟩) :=
    hanswer t.engine.setting t.engine.observers
  exact ⟨congrArg (·.1) hown, congrArg (·.2.result) hown⟩

/-- A report that is found is given back, whatever else the engine could do. -/
theorem goes_of_found
    (h : t.engine.missed? t.call.present t.call.source t.call.context t.call.memoize = none) :
    Goes t t.outcome.result := by
  obtain ⟨b, key, served, cache, hread, hmemo, hfresh, hget⟩ := found_of_missed h
  obtain rfl := Cache.get_some hget
  have haloof : t.IsAloof served := by
    refine ⟨b, _, hread, rfl, (Blueprint.quiet_ofValue _).append (quiet_log _ _ _), fun setting observers => ?_⟩
    simp only [answer, evaluate, Outcome.carry_of_ok hread, run, if_pos hmemo, runMemoized, hfresh, runUnder, hget]
    rfl
  rw [haloof.answer_eq.2]
  exact .finds served _ (key?_of_key hread hmemo hfresh) hget haloof

/-- A call fails with what the look left in the cache. -/
theorem goes_of_error {left : Engine τ ω} {events : List Event} {err : Error}
    (hanswer : t.engine.answer t.call = (left, ⟨events, .error err⟩)) (hcache : left.cache = cache)
    (hruns : left.runs = t.engine.runs)
    (hlooked : ∀ key, t.key? = some key → t.engine.cache.get t.call.present.asked key = (none, cache))
    (hunlooked : t.key? = none → t.engine.cache = cache) : Goes t t.outcome.result := by
  have hafter : t.after = left := congrArg (·.1) hanswer
  rw [outcome, hanswer]
  exact .fails err cache (hafter ▸ hcache) (hafter ▸ hruns) hlooked hunlooked

/-- Every call goes in one of these ways. -/
theorem goes (t : Turn τ ω) : Goes t t.outcome.result := by
  cases hmissed : t.engine.missed? t.call.present t.call.source t.call.context t.call.memoize with
  | none => exact goes_of_found hmissed
  | some cache =>
    obtain ⟨hlooked, hunlooked⟩ := looked_of_missed hmissed
    have hanswer : t.engine.answer t.call = _ := evaluate_of_missed hmissed
    cases hmade : (t.engine.made t.call.source t.call.context t.call.memoize).result with
    | error err =>
      rw [Outcome.carry_of_error hmade] at hanswer
      exact goes_of_error hanswer rfl rfl hlooked hunlooked
    | ok p =>
      obtain ⟨b, report⟩ := p
      obtain ⟨hread, hreport⟩ := of_made hmade
      rw [Outcome.carry_of_ok hmade, ← key?_of_read hread] at hanswer
      let notice : Notice := ⟨report, contextOf t.call.context, b, cache.size⟩
      cases htold : (notify notice 0 t.engine.observers t.engine.memory).2.result with
      | error err =>
        rw [publish, Outcome.carry_of_error htold] at hanswer
        exact goes_of_error hanswer rfl rfl hlooked hunlooked
      | ok _ =>
        obtain ⟨swept, hquiet, hpublish⟩ := publish_of_told (e := { t.engine with cache }) _ _ htold
        rw [hpublish] at hanswer
        have hserved : t.outcome.result = .ok ⟨t.engine.runs, report⟩ := by rw [outcome, hanswer]
        rw [hserved]
        refine .tells notice cache ⟨t.engine.runs, report⟩ ?_
          ⟨hread, rfl, hreport, rfl, ?_, ⟨swept, hquiet, ?_⟩, rfl, fun key hkey => ?_, fun hkey => ?_⟩
        · rw [after, hanswer]
        · rw [after, hanswer]
          exact tellAll_memory 0
        · rw [outcome, hanswer]
          exact (List.append_assoc _ _ _).symm
        · have hget := hlooked key hkey
          refine ⟨hget, Cache.find?_of_get_none hget, ?_⟩
          rw [after, hanswer, hkey]
          rfl
        · refine ⟨hunlooked hkey, ?_⟩
          rw [after, hanswer, hkey]
          rfl

end Turn

/-! ## Calls that are not memoized -/

/-- Observers that take two notices for the same go the same way. -/
theorem notify_congr {notice notice' : Notice} {observers : List (Observer ω)}
    (h : ∀ observer ∈ observers, ∀ memory, observer notice memory = observer notice' memory) (place : Nat)
    (memory : ω) : notify notice place observers memory = notify notice' place observers memory := by
  induction observers generalizing place memory with
  | nil => rfl
  | cons observer rest ih =>
    obtain ⟨hfirst, hrest⟩ := List.forall_mem_cons.1 h
    simp only [notify_cons, hfirst, ih hrest]

namespace Turn

variable {t : Turn τ ω}

theorem ignoresCache (h : t.isMemoized = false) : t.IgnoresCache := by
  have hkey := key?_of_unmemoized h
  have hgoes := t.goes
  refine ⟨?_, fun cache hsame => ?_⟩
  · generalize t.outcome.result = result at hgoes
    cases hgoes with
    | finds _ _ hsome => cases hkey.symm.trans hsome
    | fails _ cache hafter _ _ hunlooked => exact hafter.trans (hunlooked hkey).symm
    | tells _ cache _ _ htells => exact (htells.unlooked hkey).2.trans (htells.unlooked hkey).1.symm
  · have hmemo : ¬t.call.memoize.getD t.engine.memoizes = true := Bool.eq_false_iff.1 h
    unfold after outcome
    simp only [answer, evaluate, run, if_neg hmemo, runAfresh]
    cases hread : (Blueprint.ofValue t.call.source).result with
    | error err => simp only [Outcome.carry_of_error hread]
    | ok b =>
      simp only [Outcome.carry_of_ok hread]
      cases hmade : (t.engine.setting.evaluate b (contextOf t.call.context)).result with
      | error err => simp only [Outcome.carry_of_error hmade]
      | ok report =>
        have hnotify : notify ⟨report, contextOf t.call.context, b, cache.size⟩ 0 t.engine.observers
            t.engine.memory = notify ⟨report, contextOf t.call.context, b, t.engine.cache.size⟩ 0
              t.engine.observers t.engine.memory :=
          notify_congr (fun observer ho => hsame observer ho ⟨report, contextOf t.call.context, b, 0⟩) 0 _
        simp only [Outcome.carry_of_ok hmade, publish, hnotify]
        cases htold : (notify ⟨report, contextOf t.call.context, b, t.engine.cache.size⟩ 0 t.engine.observers
            t.engine.memory).2.result with
        | error err => simp only [Outcome.carry_of_error htold]
        | ok _ => simp only [Outcome.carry_of_ok htold, keep]

end Turn

end

end Engine

end Verdict
