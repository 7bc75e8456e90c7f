/-
  Verdict.CommandLine — expressions, decisions and numerals from the command line.

  A line is read in full before anything is done. The exit code is 0 for a result, 1 for an
  evaluation that fails and 2 for a line or an environment that cannot be read. Context and
  blueprint files are looked up; nothing here reads or writes by itself.
-/

import Verdict.Balanced.Adder
import Verdict.CommandLine.Arguments
import Verdict.CommandLine.Context
import Verdict.Engine
import Verdict.Log
import Verdict.Log.Decision
import Verdict.Settings

namespace Verdict

namespace CommandLine

open Document (Files)

/-! ## Commands -/

inductive Command
  | evaluate (expression : String) (context : Value)
  | decision (path : String) (context : Value) (asJson : Bool)
  | encode (words : List String)
  | decode (code : String)
  | toBalanced (n : Int)
  | fromBalanced (numeral : String)
  | add (a b : Int)
  | subtract (a b : Int)
  deriving Repr

def contextFlag : Flag := ⟨"--context", true⟩
def jsonFlag : Flag := ⟨"--json", false⟩
def levelFlag : Flag := ⟨"--log-level", true⟩
def versionFlag : Flag := ⟨"--version", false⟩

/-- Whether the context of an option can be read; everything else is plain text. -/
def acceptsContext (files : Files) : Item → Bool
  | .option name (some word) => name ≠ contextFlag.name || (readContext files word).toBool
  | _ => true

def acceptsInt : Item → Bool
  | .operand text => (Number.readInt? text.toList).isSome
  | _ => true

def plain (operands : Nat) : Usage := ⟨[], operands, false, fun _ => true⟩

def numeric (operands : Nat) : Usage := ⟨[], operands, false, acceptsInt⟩

/-- What each command takes. -/
def usages (files : Files) : List (String × Usage) := [
  ("expr", ⟨[contextFlag], 1, false, acceptsContext files⟩),
  ("decide", ⟨[contextFlag, jsonFlag], 1, false, acceptsContext files⟩),
  ("encode", ⟨[], 1, true, fun _ => true⟩),
  ("decode", plain 1),
  ("to-balanced", numeric 1),
  ("from-balanced", plain 1),
  ("add", numeric 2),
  ("subtract", numeric 2)]

/-- The context among a command's options; without one it is empty. -/
def contextOf (files : Files) (args : Arguments) : Option Value :=
  match args.value? contextFlag.name with
  | none => some (.map [])
  | some word => (readContext files word).toOption

def int? (s : String) : Option Int := Number.readInt? s.toList

/-- The command of a name with its arguments. -/
def Command.ofArguments? (files : Files) (name : String) (args : Arguments) : Option Command := do
  match name, args.operands with
  | "expr", [text] => return evaluate text (← contextOf files args)
  | "decide", [path] => return decision path (← contextOf files args) (args.has jsonFlag.name)
  | "encode", words => return encode words
  | "decode", [code] => return decode code
  | "to-balanced", [n] => return toBalanced (← int? n)
  | "from-balanced", [numeral] => return fromBalanced numeral
  | "add", [a, b] => return add (← int? a) (← int? b)
  | "subtract", [a, b] => return subtract (← int? a) (← int? b)
  | _, _ => none

def readCommand (files : Files) (name : String) (words : List String) : Except Stop Command := do
  let some usage := (usages files).lookup name | throw .usage
  let args ← usage.read words
  match Command.ofArguments? files name args with
  | some command => return command
  | none => throw .usage

/-! ## Lines -/

/-- A line: the level of the log, if one is given, and a command, if there is one. -/
structure Line where
  level : Option String
  command : Option Command
  deriving Repr

def readItems (files : Files) (level : Option String) (strange : Bool) :
    List Item → Except Stop Line
  | [] => if strange then .error .usage else .ok ⟨level, none⟩
  | item :: rest =>
    match item with
    | .help => .error .help
    | .option name value =>
      if name = versionFlag.name then .error .version else readItems files value strange rest
    | .command name words => do
      let command ← readCommand files name words
      if strange then throw .usage else return ⟨level, some command⟩
    | .unknown => readItems files level true rest
    | .operand _ | .mark | .misuse => .error .usage

def lineFlags : List Flag := [versionFlag, levelFlag]

def readLine (files : Files) (words : List String) : Except Stop Line :=
  if anyAmbiguous lineFlags words then .error .usage
  else readItems files none false (items lineFlags true words)

/-! ## Reports -/

/-- The text, filled up with blanks to a width. -/
def pad (width : Nat) (s : String) : String :=
  s ++ String.ofList (List.replicate (width - s.length) ' ')

def decisionLine (d : Decision) : String :=
  let evidence := d.evidence.map fun e => e.operand ++ "=" ++ e.state.word
  "  " ++ pad 20 d.name.display ++ " " ++ pad 10 d.operator ++ " " ++ pad 8 d.state.word ++ " "
    ++ ", ".intercalate evidence

/-- A report for people, line by line. -/
def reportLines (b : Blueprint) (report : Report) : List String := [
  "Blueprint: " ++ b.name.display,
  "Result:    " ++ report.result.word,
  "Encoded:   " ++ report.encoded,
  ""] ++ report.decisions.map decisionLine

/-- A report as JSON. Time is not measured here: the duration is zero. -/
def reportText (report : Report) : String :=
  let timed := { report with metadata := (.str "duration_ms", .int 0) :: report.metadata }
  (Value.map timed.toEntries).toJson.render .indented

/-! ## Running -/

/-- Evaluates a blueprint once, as the settings say, and logs the decision. -/
def decideBlueprint (settings : Settings) (b : Blueprint) (context : Value) : Outcome Report := do
  let engine := (Engine.fresh ⟨.standard, .none⟩ settings.cacheEnabled settings.cacheTtl ()).observe
    fun notice _ => ((), Log.decision notice.report (some notice.blueprint))
  let now : Number := .int 0
  return (← (engine.evaluate ⟨now, now⟩ b.toValue context none).2).report

def sumLine (n : Int) : String := Text.decimal n ++ " (" ++ Balanced.numeral n ++ ")"

/-- The lines that a command prints. -/
def Command.run (settings : Settings) (files : Files) : Command → Outcome (List String)
  | evaluate text context => do
    return [(← Logic.standard.expression (.str text) context).word]
  | decision path context asJson => do
    let b ← Document.loadFile true files path
    let report ← decideBlueprint settings b context
    return if asJson then [reportText report] else reportLines b report
  | encode words => do return [← Algebra.encode (.list (words.map Value.str))]
  | decode code => do return [" ".intercalate ((← decodeStates code).map State.word)]
  | toBalanced n => return [Balanced.numeral n]
  | fromBalanced numeral => do return [Text.decimal (← Balanced.ofNumeral numeral)]
  | add a b => return [sumLine (Balanced.add a b)]
  | subtract a b => return [sumLine (Balanced.subtract a b)]

/-- What a program prints: how it is used, or text. -/
inductive Output
  | usage
  | text (s : String)
  deriving DecidableEq, Repr

structure Completion where
  exitCode : Nat
  output : Output
  /-- What is said about an error. -/
  complaint : Option String
  /-- An error without a diagnosis: the program breaks off with it. -/
  uncaught : Option Error
  log : List Json
  deriving Repr

def programName : String := "trilean"

def programVersion : String := "0.1.0"

def Completion.ofStop : Stop → Completion
  | .help => ⟨0, .usage, none, none, []⟩
  | .version => ⟨0, .text (programName ++ " " ++ programVersion ++ "\n"), none, none, []⟩
  | .usage => ⟨2, .text "", none, none, []⟩

def Completion.ofError (exitCode : Nat) (e : Error) (log : List Json) : Completion :=
  ⟨exitCode, .text "", some ((e.diagnosis?.map Diagnosis.line).getD e.message),
    if e.diagnosis?.isSome then none else some e, log⟩

/-- The level of the log: that of the line, unless it is empty, or that of the settings. -/
def logConfig (settings : Settings) (level : Option String) : Log.Config :=
  Log.configure ((level.filter (· ≠ "")).getD settings.logLevel) settings.logJson

def runCommand (settings : Settings) (config : Log.Config) (files : Files) (command : Command) :
    Completion :=
  let outcome := command.run settings files
  let log := config.lines outcome.events
  match outcome.result with
  | .ok lines => ⟨0, .text (String.join (lines.map (· ++ "\n"))), none, none, log⟩
  | .error e => .ofError 1 e log

/-- Runs a command line. -/
def run (env : Environment) (files : Files) (words : List String) : Completion :=
  match readLine files words with
  | .error stop => .ofStop stop
  | .ok ⟨_, none⟩ => ⟨2, .usage, none, none, []⟩
  | .ok ⟨level, some command⟩ =>
    match Settings.ofEnvironment env Settings.variableStart with
    | .error e => .ofError 2 e []
    | .ok settings => runCommand settings (logConfig settings level) files command

/-! ## The program -/

/-- The files that a line may ask for: each word, and what follows its first `@`. -/
def mentionedFiles (words : List String) : List String :=
  words.flatMap fun word =>
    [word, String.ofList ((word.toList.dropWhile (· ≠ '@')).drop 1)].map Value.normalPath

/-- How the program is used. -/
def usageLines : List String := [
  "usage: " ++ programName ++ " [--help] [--version] [--log-level LEVEL] COMMAND ...",
  "",
  "commands:",
  "  expr [--context CONTEXT] EXPRESSION      evaluate a logic expression",
  "  decide [--context CONTEXT] [--json] FILE evaluate a blueprint file",
  "  encode VALUE ...                         encode values as a trit string",
  "  decode CODE                              decode a trit string into states",
  "  to-balanced INTEGER                      integer to balanced ternary",
  "  from-balanced NUMERAL                    balanced ternary to integer",
  "  add A B                                  add two integers in balanced ternary",
  "  subtract A B                             subtract two integers in balanced ternary"]

end CommandLine

end Verdict
