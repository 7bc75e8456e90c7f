/-
  Verdict.Cache — reports kept under keys until they expire.

  An entry is served as long as its expiry lies after the present. Expired entries go when
  they are asked for, and all of them go when something is put in after the earliest
  known expiry. That expiry is a lower bound: it may be older than every entry's, so that
  a sweep can find nothing, but never younger, as long as the expiries compare. Entries
  stand in the order in which their keys came in, which matters for expiries that do not:
  after a sweep the bound is such an expiry if the first entry left has one.
-/

namespace Verdict

structure CacheEntry (τ ρ : Type) where
  report : ρ
  expiresAt : τ
  deriving DecidableEq, Repr

structure Cache (τ ρ : Type) where
  entries : List (String × CacheEntry τ ρ)
  /-- A lower bound of the expiries; without it nothing ever expires. -/
  earliest : Option τ
  deriving DecidableEq, Repr

namespace Cache

variable {τ ρ : Type} [LE τ] [DecidableLE τ] [LT τ] [DecidableLT τ] [Add τ]

def empty : Cache τ ρ := ⟨[], none⟩

def size (c : Cache τ ρ) : Nat := c.entries.length

/-- The entry under a key, expired or not. -/
def find? (c : Cache τ ρ) (key : String) : Option (CacheEntry τ ρ) := c.entries.lookup key

def contains (c : Cache τ ρ) (key : String) : Bool := (c.find? key).isSome

def erase (c : Cache τ ρ) (key : String) : Cache τ ρ :=
  { c with entries := c.entries.filter fun e => e.1 ≠ key }

def clear (_ : Cache τ ρ) : Cache τ ρ := empty

/-- The report under a key at a time; an expired entry is dropped. -/
def get (c : Cache τ ρ) (now : τ) (key : String) : Option ρ × Cache τ ρ :=
  match c.find? key with
  | none => (none, c)
  | some entry =>
    if entry.expiresAt ≤ now then (none, c.erase key) else (some entry.report, c)

/-- The earlier of two times. -/
def earlier (s t : τ) : τ := if t < s then t else s

/-- The earliest expiry of entries. -/
def earliestOf : List (String × CacheEntry τ ρ) → Option τ
  | [] => none
  | e :: rest => some (rest.foldl (fun t e' => earlier t e'.2.expiresAt) e.2.expiresAt)

/-- Drops every expired entry. -/
def sweep (c : Cache τ ρ) (now : τ) : Cache τ ρ :=
  let left := c.entries.filter fun e => !decide (e.2.expiresAt ≤ now)
  ⟨left, earliestOf left⟩

/-- Whether putting something in at this time sweeps first. -/
def isDue (c : Cache τ ρ) (now : τ) : Bool := c.earliest.any fun t => t ≤ now

/-- The number of entries that putting something in at this time drops. -/
def sweepSize (c : Cache τ ρ) (now : τ) : Nat :=
  if c.isDue now then c.entries.countP fun e => e.2.expiresAt ≤ now else 0

/-- Lowers the bound to an expiry. One that compares with nothing bounds nothing. -/
def lowerBound (bound : Option τ) (expiry : τ) : Option τ :=
  match bound with
  | some t => some (earlier t expiry)
  | none => if expiry ≤ expiry then some expiry else none

/-- Gives a key an entry. A key that is there keeps its place; a new one goes to the end. -/
def place (entries : List (String × CacheEntry τ ρ)) (key : String) (entry : CacheEntry τ ρ) :
    List (String × CacheEntry τ ρ) :=
  if (entries.lookup key).isSome then entries.map fun e => if e.1 = key then (key, entry) else e
  else entries ++ [(key, entry)]

/-- Keeps a report for the time `ttl`, in place of an earlier one under its key. -/
def put (c : Cache τ ρ) (now ttl : τ) (key : String) (report : ρ) : Cache τ ρ :=
  let c := if c.isDue now then c.sweep now else c
  let expiresAt := now + ttl
  { entries := place c.entries key ⟨report, expiresAt⟩
    earliest := lowerBound c.earliest expiresAt }

end Cache

end Verdict
