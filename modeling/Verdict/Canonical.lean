/-
  Verdict.Canonical — one JSON text for each value, whatever the order of its mappings.

  Members are sorted by their names. A key that is no string is named by its type and its
  text, so that it differs from the string that spells it. Sets are sorted by the text of
  their elements, records are objects of their fields, and a function or stream is known
  by its number alone. Every value has such a text, but only a whole one has a digest.
-/

import Verdict.Digest.Sha256
import Verdict.Error
import Verdict.Json
import Verdict.Value.Display

namespace Verdict

namespace Json

/-- Puts a member where its name belongs, in place of an earlier one of that name. -/
def insertMember (name : Script) (v : Json) :
    List (Script × Json) → List (Script × Json)
  | [] => [(name, v)]
  | (n, w) :: rest =>
    if name < n then (name, v) :: (n, w) :: rest
    else if name = n then (name, v) :: rest
    else (n, w) :: insertMember name v rest

/-- Members in the order of their names; of two of one name the later counts. -/
def sortMembers (members : List (Script × Json)) : List (Script × Json) :=
  members.foldl (fun acc m => insertMember m.1 m.2 acc) []

/-- Documents in the order of the texts beside them. -/
def sortByText (items : List (String × Json)) : List Json :=
  (items.mergeSort fun a b => a.1 ≤ b.1).map (·.2)

/-- An object that names its type. -/
def tagged (type : String) (members : List (Script × Json)) : Json :=
  object (sortMembers (("__type__", str type) :: members))

end Json

namespace Value

/-- The name under which a key stands. -/
def keyText (key : Value) : Script :=
  match key.script? with
  | some s => s
  | none => "<" ++ key.typeName ++ ">" ++ key.inspect

def functionText (f : FunctionRef) : String := "<callable " ++ functionInspect f ++ ">"

mutual

def canonical : Value → Json
  | null => .null
  | bool b => .bool b
  | int n => .int n
  | float x => .float x
  | str s => .str s
  | torn t => .str (.torn t)
  | state s => .str s.word
  | trit t => .int t.toInt
  | operator o => .str o.word
  | vector states => .tagged "TernaryVector" [("repr", .str (vectorInspect states))]
  | bytes bs => .str (String.ofList (Text.hexBytes bs))
  | list items => .array (canonicalAll items)
  | tuple items => .array (canonicalAll items)
  | set items => .array (Json.sortByText (canonicalByText items))
  | stream id items => .tagged "generator" [("repr", .str (stream id items).inspect)]
  | map entries => .object (Json.sortMembers (canonicalEntries entries))
  | record kind fields =>
    match kind with
    | .object => .tagged kind.typeName (canonicalFields fields)
    | _ => .object (Json.sortMembers (canonicalFields fields))
  | function f => .str (functionText f)
  | stamp _ text => .str text
  | duration seconds => .tagged "timedelta" [("seconds", .float (.ofInt seconds))]
termination_by structural v => v

def canonicalAll : List Value → List Json
  | [] => []
  | v :: vs => canonical v :: canonicalAll vs
termination_by structural vs => vs

/-- Each value beside its text. -/
def canonicalByText : List Value → List (String × Json)
  | [] => []
  | v :: vs => (v.inspect, canonical v) :: canonicalByText vs
termination_by structural vs => vs

def canonicalEntries : List (Value × Value) → List (Script × Json)
  | [] => []
  | (k, v) :: rest => (k.keyText, canonical v) :: canonicalEntries rest
termination_by structural vs => vs

def canonicalFields : List (String × Value) → List (Script × Json)
  | [] => []
  | (k, v) :: rest => (k, canonical v) :: canonicalFields rest
termination_by structural vs => vs

end

/-- The canonical text of a value, torn if a text in it is. -/
def canonicalText (v : Value) : Script := v.canonical.text .compact

/-- The digest of the canonical text, in UTF-8. -/
def digest (v : Value) : Except Error String :=
  match v.canonicalText with
  | .whole s => .ok (Digest.hexOfText s)
  | .torn t => .error (.unencodable t)

end Value

end Verdict
