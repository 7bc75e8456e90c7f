/-
  Verdict.Settings — what the environment decides.

  Each setting has a variable and a default for when the variable is missing or blank. A
  flag is written like any state, the undecided one standing for the default; a variable
  that does not read as its setting is an error that names it.
-/

import Verdict.Value.Coercion

namespace Verdict

/-- Looks up a variable of the environment. -/
abbrev Environment := String → Option String

structure Settings where
  cacheEnabled : Bool
  /-- The lifetime of a cached report in seconds. -/
  cacheTtl : Number
  logLevel : String
  logJson : Bool
  deriving Repr

namespace Settings

def defaults : Settings := ⟨false, .float (.ofInt 3600), "INFO", true⟩

/-- The text of a variable, unless it is missing or blank. -/
def written? (env : Environment) (variableName : String) : Option String :=
  (env variableName).filter fun text => !Text.isEmptyOrBlank text

/-- What the names of the variables end in. -/
def variableEnds : List String := ["CACHE_ENABLED", "CACHE_TTL", "LOG_LEVEL", "LOG_JSON"]

def readFlag (env : Environment) (variableName : String) (fallback : Bool) : Except Error Bool :=
  match written? env variableName with
  | none => .ok fallback
  | some text =>
    match State.ofText? text with
    | some s => .ok (s.toBool fallback)
    | none => .error (.invalidSetting variableName text)

def readSeconds (env : Environment) (variableName : String) (fallback : Number) :
    Except Error Number :=
  match written? env variableName with
  | none => .ok fallback
  | some text =>
    match Number.readFloat? text.toList with
    | some x => .ok (.float x)
    | none => .error (.invalidSetting variableName text)

/-- The name of a level, in capitals; a blank one is kept. -/
def readLevel (env : Environment) (variableName : String) (fallback : String) : String :=
  Text.upper (((env variableName).filter (· != "")).getD fallback)

/-- The settings in the variables whose names begin with `start`. -/
def ofEnvironment (env : Environment) (start : String) : Except Error Settings := do
  let cacheEnabled ← readFlag env (start ++ "CACHE_ENABLED") defaults.cacheEnabled
  let cacheTtl ← readSeconds env (start ++ "CACHE_TTL") defaults.cacheTtl
  let logLevel := readLevel env (start ++ "LOG_LEVEL") defaults.logLevel
  let logJson ← readFlag env (start ++ "LOG_JSON") defaults.logJson
  return { cacheEnabled, cacheTtl, logLevel, logJson }

/-- How the names of this library's variables begin. -/
def variableStart : String := "TRILEAN_"

end Settings

end Verdict
