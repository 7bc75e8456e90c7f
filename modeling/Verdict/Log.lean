/-
  Verdict.Log — which messages are written to the log, and how.

  A message is written when its logger belongs to this library and its level reaches the
  configured one. A line is either an object, with those of the message's fields that
  structured logs know, or plain text.
-/

import Verdict.Json.Encoding
import Verdict.Outcome
import Verdict.Text.Case

namespace Verdict

namespace Level

def number : Level → Int
  | debug => 10
  | info => 20
  | warning => 30
  | error => 40
  | critical => 50
  | other n => n

def name : Level → String
  | debug => "DEBUG"
  | info => "INFO"
  | warning => "WARNING"
  | error => "ERROR"
  | critical => "CRITICAL"
  | other n => if n = 0 then "NOTSET" else "Level " ++ Text.decimal n

def ofNumber (n : Int) : Level :=
  ([debug, info, warning, error, critical].find? fun l => l.number == n).getD (other n)

/-- The level that a word names, in any case. -/
def ofWord? (word : String) : Option Level :=
  match Text.upper word with
  | "DEBUG" => some debug
  | "INFO" => some info
  | "WARNING" | "WARN" => some warning
  | "ERROR" => some error
  | "CRITICAL" | "FATAL" => some critical
  | "NOTSET" => some (other 0)
  | _ => none

end Level

namespace Log

structure Config where
  level : Level
  /-- Whether lines are objects. -/
  structured : Bool
  deriving DecidableEq, Repr

/-- A word that names no level stands for INFO. -/
def configure (level : String) (structured : Bool) : Config :=
  ⟨(Level.ofWord? level).getD .info, structured⟩

def Config.standard : Config := configure "INFO" true

/-- The least level that is written; when none is set, WARNING. -/
def Config.threshold (c : Config) : Int :=
  if c.level.number = 0 then Level.warning.number else c.level.number

def rootLogger : String := "trilean"

/-- Whether a logger belongs to this library. -/
def isOwn (logger : String) : Bool :=
  logger == rootLogger || (rootLogger ++ ".").toList.isPrefixOf logger.toList

def Config.accepts (c : Config) (r : LogRecord) : Bool :=
  isOwn r.logger && 0 < r.level.number && c.threshold ≤ r.level.number

/-- The fields that structured lines can have besides the message. -/
def knownFields : List String :=
  ["blueprint", "result", "encoded", "total_gates", "error_code"]

/-- A message as an object. -/
def structuredLine (r : LogRecord) : Json :=
  let known := knownFields.filterMap fun name => (r.fields.lookup name).map fun v => (name, v.toJson)
  let members := [
      ("level", .str r.level.name),
      ("logger", .str r.logger),
      ("message", .str r.message)]
    ++ known ++ (r.failure.map fun text => ("exception", Json.str text)).toList
  .object (members.map fun m => (↑m.1, m.2))

/-- A message as plain text. -/
def plainLine (r : LogRecord) : String := r.level.name ++ " " ++ r.logger ++ ": " ++ r.message

/-- A line of the log: an object, or a string for plain text. -/
def Config.line (c : Config) (r : LogRecord) : Json :=
  if c.structured then structuredLine r else .str (plainLine r)

/-- The lines for what happened, in order. -/
def Config.lines (c : Config) (events : List Event) : List Json :=
  events.filterMap fun e =>
    match e with
    | .logged r => if c.accepts r then some (c.line r) else none
    | _ => none

/-- A line as it is written. -/
def lineText : Json → String
  | .str (.whole s) => s
  | j => j.render .line

end Log

end Verdict
