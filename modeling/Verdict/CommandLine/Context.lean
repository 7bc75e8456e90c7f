/-
  Verdict.CommandLine.Context — the context that is given on a command line.

  It is a mapping, written in place or, after an `@`, in a file; nothing at all stands for
  the empty one.
-/

import Verdict.Document.Loading

namespace Verdict.CommandLine

open Document (Files)

/-- The text of a context: the word itself, or the file that it names. -/
def contextText? (files : Files) (word : String) : Option String :=
  match word.toList with
  | '@' :: path => files.text? (Value.normalPath (String.ofList path))
  | _ => some word

def readContext (files : Files) (word : String) : Except Error Value :=
  match (contextText? files word).bind Yaml.parse? with
  | none => .error .unreadableContext
  | some .null => .ok (.map [])
  | some (.map entries) => .ok (.map entries)
  | some _ => .error .contextNotAMapping

end Verdict.CommandLine
