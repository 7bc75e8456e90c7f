/-
  Verdict.Engine — evaluating blueprints over and over, with a memory.

  An engine can keep its reports and serve them again for the same blueprint and context,
  as long as they last. A report that was not served from the cache is told to every
  observer in turn before it is kept; if one of them fails, nothing is kept. Evaluations
  that fail tell nobody and keep nothing. A call whose text is torn has no key, and an
  engine that memoizes fails on it. The time is given from outside, once for the look into
  the cache and once for keeping the report.
-/

import Verdict.Blueprint.Evaluation
import Verdict.Cache
import Verdict.Canonical

namespace Verdict

/-- What tells calls apart: what a blueprint was read from, or else the blueprint itself,
    together with the context. -/
def Blueprint.call (b : Blueprint) (context : Value) : Value :=
  .map [(.str "blueprint", b.source.getD b.toValue), (.str "context", context)]

/-- The key of a blueprint in a context: the digest of the call. Torn text has no digest. -/
def Blueprint.key (b : Blueprint) (context : Value) : Except Error String := (b.call context).digest

/-- A report and the number of the evaluation that made it. -/
structure Served where
  run : Nat
  report : Report
  deriving Repr

/-- What an observer is told. -/
structure Notice where
  report : Report
  context : Value
  blueprint : Blueprint
  /-- How many reports are kept at that moment. -/
  kept : Nat

/-- What an observer does with a notice and with what the observers remember. -/
abbrev Observer (ω : Type) := Notice → ω → ω × Outcome Unit

/-- The present, when the cache is asked and when a report is put into it. -/
structure Present (τ : Type) where
  asked : τ
  kept : τ
  deriving DecidableEq, Repr

structure Engine (τ ω : Type) where
  setting : Blueprint.Setting
  observers : List (Observer ω)
  memoizes : Bool
  ttl : τ
  cache : Cache τ Served
  /-- How many evaluations ran to their end. -/
  runs : Nat
  /-- What the observers remember. -/
  memory : ω

namespace Engine

variable {τ ω : Type} [LE τ] [DecidableLE τ] [LT τ] [DecidableLT τ] [Add τ]

/-- An engine that has not evaluated anything. -/
def fresh (setting : Blueprint.Setting) (memoizes : Bool) (ttl : τ) (memory : ω) : Engine τ ω :=
  ⟨setting, [], memoizes, ttl, .empty, 0, memory⟩

/-! ## Observers -/

/-- Tells the observers from a place of the list on, until one fails. -/
def notify (notice : Notice) : (place : Nat) → List (Observer ω) → ω → ω × Outcome Unit
  | _, [], memory => (memory, pure ())
  | place, observer :: rest, memory =>
    let told := observer notice memory
    (Outcome.emit (.notified place)).carry memory fun _ =>
      told.2.carry told.1 fun _ => notify notice (place + 1) rest told.1

/-! ## Evaluation -/

def cacheLogger : String := "trilean.engine.cache"

/-- Says how many entries a sweep drops, if any. -/
def reportSweep (count : Nat) : Outcome Unit :=
  if count = 0 then pure ()
  else Outcome.log cacheLogger .debug
    ("Swept " ++ Text.decimal count ++ " expired decision cache entries")

def logCache (what : String) (b : Blueprint) : Outcome Unit :=
  Outcome.log Blueprint.loggerName .debug
    ("Decision cache " ++ what ++ " for blueprint " ++ b.name.display)

/-- Keeps a report under a key, if there is one. -/
def keep (e : Engine τ ω) (now : τ) (key : Option String) (served : Served) :
    Engine τ ω × Outcome Served :=
  match key with
  | none => (e, return served)
  | some key =>
    ({ e with cache := e.cache.put now e.ttl key served },
      do reportSweep (e.cache.sweepSize now); return served)

/-- Tells the observers of a fresh report, then keeps it. -/
def publish (e : Engine τ ω) (now : τ) (b : Blueprint) (context : Value) (key : Option String)
    (report : Report) : Engine τ ω × Outcome Served :=
  let told := notify ⟨report, context, b, e.cache.size⟩ 0 e.observers e.memory
  let e := { e with memory := told.1 }
  told.2.carry e fun _ => { e with runs := e.runs + 1 }.keep now key ⟨e.runs, report⟩

/-- Evaluates without looking into the cache. -/
def runAfresh (e : Engine τ ω) (now : τ) (b : Blueprint) (context : Value) (key : Option String) :
    Engine τ ω × Outcome Served :=
  (e.setting.evaluate b context).carry e fun report => e.publish now b context key report

/-- Evaluates with the cache, under a key. -/
def runUnder (e : Engine τ ω) (present : Present τ) (b : Blueprint) (context : Value) (key : String) :
    Engine τ ω × Outcome Served :=
  let (found, cache) := e.cache.get present.asked key
  let e := { e with cache }
  match found with
  | some served => (e, do logCache "hit" b; return served)
  | none => (logCache "miss" b).carry e fun _ => e.runAfresh present.kept b context (some key)

/-- Evaluates with the cache; without a key nothing is looked up and nothing evaluated. -/
def runMemoized (e : Engine τ ω) (present : Present τ) (b : Blueprint) (context : Value) :
    Engine τ ω × Outcome Served :=
  match b.key context with
  | .ok key => e.runUnder present b context key
  | .error err => (e, throw err)

/-- Evaluates a blueprint. Memoizing can be turned on or off for this time only. -/
def run (e : Engine τ ω) (present : Present τ) (b : Blueprint) (context : Value)
    (memoize : Option Bool) : Engine τ ω × Outcome Served :=
  if memoize.getD e.memoizes then e.runMemoized present b context
  else e.runAfresh present.kept b context none

/-- Nothing stands for an empty context. -/
def contextOf : Value → Value
  | .null => .map []
  | v => v

/-- Evaluates a blueprint or a mapping that one is read from. -/
def evaluate (e : Engine τ ω) (present : Present τ) (source context : Value)
    (memoize : Option Bool) : Engine τ ω × Outcome Served :=
  (Blueprint.ofValue source).carry e fun b => e.run present b (contextOf context) memoize

/-! ## Configuration -/

/-- Turns memoizing on or off; a lifetime, if one is given, replaces the old one. -/
def memoize (e : Engine τ ω) (enabled : Bool) (ttl : Option τ) : Engine τ ω :=
  { e with memoizes := enabled, ttl := ttl.getD e.ttl }

def observe (e : Engine τ ω) (observer : Observer ω) : Engine τ ω :=
  { e with observers := e.observers ++ [observer] }

def clear (e : Engine τ ω) : Engine τ ω := { e with cache := e.cache.clear }

end Engine

end Verdict
