/-
  Verdict.Path — dotted paths into a value.

  A mapping that holds the whole path as a key answers with that entry. Otherwise the
  path is walked segment by segment: through a mapping by its keys, through any other
  value by its public attributes, methods included. A path that leads nowhere finds nothing,
  which is not an error.
-/

import Verdict.Text.Segments
import Verdict.Value.Attribute
import Verdict.Value.Table

namespace Verdict.Value

/-- Attributes without a name, or whose name starts with a low line, are not public. -/
def isPublic (name : String) : Bool :=
  match name.toList with
  | [] => false
  | c :: _ => c != '_'

/-- One step of a path. -/
def member? (v : Value) (name : String) : Option Value :=
  match v with
  | map entries => Table.find? entries (.str name)
  | v => if isPublic name then v.attribute? name else none

def walk (v : Value) : List String → Option Value
  | [] => some v
  | name :: rest => (v.member? name).bind fun next => walk next rest

/-- The entry of a mapping under the whole path. -/
def entryAt? (v : Value) (path : String) : Option Value :=
  v.entries?.bind fun entries => Table.find? entries (.str path)

def resolve? (v : Value) (path : String) : Option Value :=
  match v.entryAt? path with
  | some found => some found
  | none => v.walk (Text.parts '.' path)

end Verdict.Value
