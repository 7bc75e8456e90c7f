/-
  Verdict.Document.Loading — blueprints from data, from text and from files.

  Data must be a mapping; its version is compared first, if that is asked for, then its
  shape is checked, and then its names. Text is JSON or YAML: a file is JSON when its name
  ends so.
-/

import Verdict.Blueprint.Reading
import Verdict.Document.Integrity
import Verdict.Document.Validation
import Verdict.Json.Reader
import Verdict.Value.Stamp
import Verdict.Yaml.Reader

namespace Verdict.Document

/-! ## Versions -/

/-- The part of a version that must agree. -/
def majorVersion (version : String) : String := ((Text.parts '.' version).head?).getD ""

/-- The version that a mapping states, as text. -/
def statedVersion (entries : Entries) : String :=
  ((Table.find? entries (.str "schema_version")).getD (.str schemaVersion)).display

def versionMatches (entries : Entries) : Bool :=
  majorVersion (statedVersion entries) == majorVersion schemaVersion

/-! ## Data -/

/-- The document in a value, or all the faults of its shape. -/
def validate (data : Value) : Except Error Document :=
  match checkValue data with
  | .sound d => .ok d
  | .faulty fs => .error (.faults fs)

/-- The document in a mapping that came from `path`. -/
def ofEntries (strict : Bool) (path : String) (entries : Entries) : Except Error Document :=
  if strict && !versionMatches entries then .error (.versionMismatch (statedVersion entries))
  else
    match check entries with
    | .faulty fs => .error (.faultyBlueprint fs path)
    | .sound d =>
      if d.complaints.isEmpty then .ok d else .error (.inconsistentBlueprint d.complaints path)

def loader : String := "trilean.blueprints.loader"

/-- Loads a blueprint from data that came from `path`. -/
def loadData (strict : Bool) (path : String) (data : Value) : Outcome Blueprint := do
  match data.entries? with
  | none => throw (.notABlueprint path data.typeName)
  | some entries =>
    let document ← ofEntries strict path entries
    let blueprint ← Blueprint.ofMapping document.mapping
    Outcome.log loader .debug ("Loaded blueprint " ++ blueprint.name.display ++ " with "
      ++ Text.decimal blueprint.gates.length ++ " gates")
    return blueprint

/-! ## Text -/

/-- The data that a text describes. -/
def readText? (isJson : Bool) (text : String) : Option Value :=
  if isJson then (Json.parse? text).map Json.toValue else Yaml.parse? text

/-- Loads a blueprint from text in a format; any format but JSON is YAML. -/
def loadText (strict : Bool) (format text : String) : Outcome Blueprint :=
  match readText? (Text.lower format == "json") text with
  | some data => loadData strict "" data
  | none => throw (.unparsableBlueprint format)

/-! ## Files -/

/-- What a file holds, if it is there. -/
abbrev Files := String → Option ByteArray

def Files.text? (files : Files) (path : String) : Option String :=
  (files path).bind String.fromUTF8?

/-- The end of a file's name, from its last point on. A name does not begin with the
    point, and it does not end with it. -/
def suffix (path : String) : String :=
  let name := ((Text.parts '/' path).getLast?).getD ""
  match (Text.parts '.' name).reverse with
  | last :: rest@(first :: _) =>
    if last = "" || rest.length = 1 && first = "" then "" else "." ++ last
  | _ => ""

/-- Loads a blueprint from a file. -/
def loadFile (strict : Bool) (files : Files) (path : String) : Outcome Blueprint :=
  let path := Value.normalPath path
  match (files.text? path).bind (readText? (Text.lower (suffix path) == ".json")) with
  | some data => loadData strict path data
  | none => throw (.unreadableBlueprint path)

end Verdict.Document
