/-
  Verdict.Value.Display — values as text.

  `display` is a value inside running text: a string is its own characters, its halves
  escaped, and a state its word. `inspect` is a value as an element of another: a string
  stands between quotes, a state, digit or operator is named with its worth, and containers
  show their elements.
-/

import Verdict.Number.Shortest
import Verdict.Text.Quoted
import Verdict.Value

namespace Verdict

/-- One symbol for each state, in order. -/
def encodeStates (states : List State) : String :=
  String.ofList (states.map fun s => s.toTrit.symbol)

/-- What stands in front of the fields of a record. -/
def RecordKind.head : RecordKind → String
  | .object => "namespace"
  | kind => kind.typeName

/-- The source of a blueprint is not shown. -/
def RecordKind.shows (kind : RecordKind) (field : String) : Bool :=
  !(kind = .blueprint && field = "source")

namespace Value

/-! ## Pieces -/

def stateInspect (s : State) : String := "<TernaryState." ++ s.name ++ ": '" ++ s.word ++ "'>"

def tritInspect (t : Trit) : String :=
  "<BalancedTrit." ++ t.name ++ ": " ++ Text.decimal t.toInt ++ ">"

def operatorInspect (o : Operator) : String :=
  "<GateOperator." ++ o.label ++ ": '" ++ o.word ++ "'>"

def vectorInspect (states : List State) : String :=
  "TernaryVector('" ++ encodeStates states ++ "')"

def floatText (x : Binary64) : String := String.ofList (Number.floatChars Number.plain x)

def functionInspect (f : FunctionRef) : String :=
  match f.name with
  | some name => "<function " ++ name ++ " " ++ Text.decimal f.id ++ ">"
  | none => "<partial " ++ Text.decimal f.id ++ ">"

/-- The numbers that stand between the marks of a date. -/
def dateNumbers (text : String) : List Nat :=
  let step (acc : List (Option Nat)) (c : Char) : List (Option Nat) :=
    match acc with
    | some n :: rest =>
      if c.isDigit then some (10 * n + (c.toNat - 0x30)) :: rest else none :: some n :: rest
    | rest => if c.isDigit then some (c.toNat - 0x30) :: rest else rest
  (text.toList.foldl step []).reverse.filterMap id

/-- The parts of a point in time, without seconds and fractions that are zero. -/
def shownTimeParts (parts : List Nat) : List Nat :=
  let dropZero (ps : List Nat) := if ps.length > 5 ∧ ps.getLast? = some 0 then ps.dropLast else ps
  dropZero (dropZero parts)

def joinNumbers (ns : List Nat) : String :=
  ", ".intercalate (ns.map fun (n : Nat) => Text.decimal n)

def stampInspect (kind : StampKind) (text : String) : String :=
  match kind with
  | .date => "datetime.date(" ++ joinNumbers (dateNumbers text) ++ ")"
  | .dateTime => "datetime.datetime(" ++ joinNumbers (shownTimeParts (dateNumbers text)) ++ ")"
  | .uuid => "UUID('" ++ text ++ "')"
  | .decimal => "Decimal('" ++ text ++ "')"
  | .path => "PurePosixPath(" ++ Text.quoted text ++ ")"
  | .method | .nativeMethod => "<" ++ kind.typeName ++ " " ++ text ++ ">"

/-- The days of a duration and the seconds left over, which are never negative. -/
def daysAndSeconds (seconds : Int) : Int × Int := (seconds.fdiv 86400, seconds.fmod 86400)

def durationInspect (seconds : Int) : String :=
  let (days, rest) := daysAndSeconds seconds
  let dayPart := if days = 0 then [] else ["days=" ++ Text.decimal days]
  let secondPart := if rest = 0 then [] else ["seconds=" ++ Text.decimal rest]
  let parts := dayPart ++ secondPart
  "datetime.timedelta(" ++ (if parts.isEmpty then "0" else ", ".intercalate parts) ++ ")"

def twoDigits (n : Int) : String :=
  if n < 10 then "0" ++ Text.decimal n else Text.decimal n

def durationDisplay (seconds : Int) : String :=
  let (days, rest) := daysAndSeconds seconds
  let clock := Text.decimal (rest / 3600) ++ ":" ++ twoDigits (rest / 60 % 60)
    ++ ":" ++ twoDigits (rest % 60)
  if days = 0 then clock
  else Text.decimal days ++ (if days.natAbs = 1 then " day, " else " days, ") ++ clock

/-! ## Values -/

mutual

/-- A value as an element of another. -/
def inspect : Value → String
  | null => "None"
  | bool b => if b then "True" else "False"
  | int n => Text.decimal n
  | float x => floatText x
  | str s => Text.quoted s
  | torn t => Text.quotedTorn t
  | state s => stateInspect s
  | trit t => tritInspect t
  | operator o => operatorInspect o
  | vector states => vectorInspect states
  | bytes bs => String.ofList (Text.quotedBytes bs)
  | list items => "[" ++ ", ".intercalate (inspectAll items) ++ "]"
  | tuple [item] => "(" ++ inspect item ++ ",)"
  | tuple items => "(" ++ ", ".intercalate (inspectAll items) ++ ")"
  | set [] => "set()"
  | set items => "\x7b" ++ ", ".intercalate (inspectAll items) ++ "\x7d"
  | stream id _ => "<generator " ++ Text.decimal id ++ ">"
  | map entries => "\x7b" ++ ", ".intercalate (inspectEntries entries) ++ "\x7d"
  | record kind fields =>
    kind.head ++ "(" ++ ", ".intercalate (inspectFields kind fields) ++ ")"
  | function f => functionInspect f
  | stamp kind text => stampInspect kind text
  | duration seconds => durationInspect seconds
termination_by structural v => v

def inspectAll : List Value → List String
  | [] => []
  | v :: vs => inspect v :: inspectAll vs
termination_by structural vs => vs

def inspectEntries : List (Value × Value) → List String
  | [] => []
  | (k, v) :: rest => (inspect k ++ ": " ++ inspect v) :: inspectEntries rest
termination_by structural vs => vs

def inspectFields (kind : RecordKind) : List (String × Value) → List String
  | [] => []
  | (k, v) :: rest =>
    if kind.shows k then (k ++ "=" ++ inspect v) :: inspectFields kind rest
    else inspectFields kind rest
termination_by structural vs => vs

end

/-- A value inside running text. -/
def display : Value → String
  | str s => s
  | torn t => t.shown
  | state s => s.word
  | trit t => Text.decimal t.toInt
  | operator o => "GateOperator." ++ o.label
  | stamp .dateTime text => text.map fun c => if c = 'T' then ' ' else c
  | stamp _ text => text
  | duration seconds => durationDisplay seconds
  | v => v.inspect

end Value

end Verdict
