/-
  Verdict.Log.Template — messages with places for values.

  `%s` stands for a value as running text, `%r` for a value as an element, `%d` for a
  whole number and `%%` for the sign itself. Values fill the places in order, and none
  may be left over. Without any values the text is taken as it is.
-/

import Verdict.Number.Basic
import Verdict.Value.Display

namespace Verdict.Log

/-- The whole number of a value, cut off toward zero. -/
def wholeText? (v : Value) : Option String :=
  match v with
  | .float (.finite negative m e) => some (Text.decimal (Binary64.wholePart negative m e))
  | v => v.int?.map Text.decimal

def fillFrom : List Char → List Value → Option (List Char)
  | [], [] => some []
  | [], _ :: _ => none
  | '%' :: '%' :: rest, args => (fillFrom rest args).map ('%' :: ·)
  | '%' :: 's' :: rest, v :: args => (fillFrom rest args).map (v.display.toList ++ ·)
  | '%' :: 'r' :: rest, v :: args => (fillFrom rest args).map (v.inspect.toList ++ ·)
  | '%' :: 'd' :: rest, v :: args => do
    let text ← wholeText? v
    return text.toList ++ (← fillFrom rest args)
  | c :: rest, args => if c = '%' then none else (fillFrom rest args).map (c :: ·)

/-- The message; nothing when the values do not fit the places. -/
def fill? (template : String) (args : List Value) : Option String :=
  if args.isEmpty then some template else (fillFrom template.toList args).map String.ofList

end Verdict.Log
