/-
  Verdict.CommandLine.Arguments — the words of a command line, sorted into options and
  operands.

  An option begins with a dash. Long options may be cut short where that is not ambiguous,
  and their value is the next word, or stands after an equals sign. Negative numbers and
  words with a blank are operands, and after two dashes every word is one. The first
  operand of a program with commands is the command; the words behind it are its own.
-/

import Verdict.Number.Numeral

namespace Verdict.CommandLine

/-- An option of a program or a command. -/
structure Flag where
  name : String
  takesValue : Bool
  deriving DecidableEq, Repr

/-- Every program and command can tell how it is used. -/
def helpFlag : Flag := ⟨"--help", false⟩

/-! ## Single words -/

inductive Word
  | operand
  | flag (flag : Flag) (attached : Option String)
  | help
  | unknown
  | misuse
  deriving DecidableEq, Repr

/-- A minus and digits, perhaps with a point among them. -/
def isNegativeNumber : List Char → Bool
  | '-' :: cs =>
    let isDigit (c : Char) := (Number.digitValue? c).isSome
    match cs.dropWhile isDigit with
    | [] => !cs.isEmpty
    | '.' :: places => !places.isEmpty && places.all isDigit
    | _ => false
  | _ => false

/-- The short option for help, which may be repeated. -/
def shortHelp (rest : List Char) : Word :=
  match rest.dropWhile (· = 'h') with
  | '=' :: _ | '-' :: _ => .misuse
  | _ => .help

/-- A word that begins with two dashes. -/
def longWord (flags : List Flag) (cs : List Char) : Option Word :=
  let name := cs.takeWhile (· ≠ '=')
  let attached := match cs.dropWhile (· ≠ '=') with
    | _ :: value => some (String.ofList value)
    | [] => none
  let flags := helpFlag :: flags
  let exact := flags.filter fun f => f.name.toList = name
  match exact, flags.filter fun f => name.isPrefixOf f.name.toList with
  | f :: _, _ | [], [f] => some (.flag f attached)
  | [], [] => none
  | [], _ => some .misuse

/-- What a word is, in front of two dashes that stand alone. -/
def sort (flags : List Flag) (word : String) : Word :=
  let cs := word.toList
  let known := match cs with
    | '-' :: '-' :: _ => longWord flags cs
    | '-' :: 'h' :: rest => some (shortHelp rest)
    | '-' :: _ :: _ => none
    | _ => some .operand
  match known with
  | some (.flag f attached) => if f = helpFlag ∧ attached = none then .help else .flag f attached
  | some w => w
  | none => if isNegativeNumber cs || cs.contains ' ' then .operand else .unknown

/-- Whether a word in front of two dashes could be cut short from several options. -/
def anyAmbiguous (flags : List Flag) (words : List String) : Bool :=
  (words.takeWhile (· ≠ "--")).any fun word =>
    "--".toList.isPrefixOf word.toList && longWord flags word.toList = some .misuse

/-! ## Whole lines -/

inductive Item
  | operand (text : String)
  /-- The first operand of a program with commands, and the words behind it. -/
  | command (name : String) (rest : List String)
  | option (name : String) (value : Option String)
  | mark
  | help
  | unknown
  | misuse
  deriving DecidableEq, Repr

/-- The words after two dashes. -/
def itemsAfterMark (commands : Bool) (rest : List String) : List Item :=
  if commands then [.misuse] else .mark :: rest.map Item.operand

def items (flags : List Flag) (commands : Bool) : List String → List Item
  | [] => []
  | "--" :: rest => itemsAfterMark commands rest
  | word :: rest =>
    match sort flags word with
    | .operand =>
      if commands then [.command word rest] else .operand word :: items flags commands rest
    | .help => .help :: items flags commands rest
    | .unknown => .unknown :: items flags commands rest
    | .misuse => [.misuse]
    | .flag f attached =>
      match f.takesValue, attached with
      | true, some value => .option f.name (some value) :: items flags commands rest
      | false, none => .option f.name none :: items flags commands rest
      | false, some _ => [.misuse]
      | true, none =>
        match rest with
        | value :: rest' =>
          if value ≠ "--" ∧ sort flags value = .operand then
            .option f.name (some value) :: items flags commands rest'
          else [.misuse]
        | [] => [.misuse]

/-! ## Commands -/

/-- Why no command is run. -/
inductive Stop
  | help
  | version
  | usage
  deriving DecidableEq, Repr

/-- What a command takes. -/
structure Usage where
  flags : List Flag
  /-- How many operands there are at least. -/
  operands : Nat
  /-- Whether there may be more of them. -/
  repeats : Bool
  /-- Whether an operand or option can be read. -/
  accepts : Item → Bool

structure Arguments where
  operands : List String
  /-- The options and their values, the last one first. -/
  options : List (String × Option String)
  /-- Whether there was anything that the command does not take. -/
  strange : Bool
  deriving DecidableEq, Repr

namespace Arguments

def empty : Arguments := ⟨[], [], false⟩

def value? (args : Arguments) (name : String) : Option String :=
  (args.options.lookup name).join

def has (args : Arguments) (name : String) : Bool := (args.options.lookup name).isSome

def beStrange (args : Arguments) : Arguments := { args with strange := true }

def addOperand (args : Arguments) (text : String) : Arguments :=
  { args with operands := args.operands ++ [text] }

def addOption (args : Arguments) (name : String) (value : Option String) : Arguments :=
  { args with options := (name, value) :: args.options }

end Arguments

namespace Usage

/-- Whether another operand fits. -/
def takesMore (u : Usage) (args : Arguments) : Bool :=
  u.repeats || args.operands.length < u.operands

/-- Reads items after those in `args`; `near` says whether an operand was the last one.
    Items are read in their order, and what a command does not take counts at the end. Two
    dashes must stand beside an operand. -/
def readFrom (u : Usage) (near : Bool) (args : Arguments) : List Item → Except Stop Arguments
  | [] =>
    if args.strange || args.operands.length < u.operands then .error .usage else .ok args
  | item :: rest =>
    match item with
    | .help => .error .help
    | .misuse => .error .usage
    | .unknown | .command _ _ => u.readFrom false args.beStrange rest
    | .mark =>
      if near || u.takesMore args then u.readFrom near args rest
      else u.readFrom false args.beStrange rest
    | .operand text =>
      if !u.takesMore args then u.readFrom false args.beStrange rest
      else if u.accepts item then u.readFrom true (args.addOperand text) rest
      else .error .usage
    | .option name value =>
      if u.accepts item then u.readFrom false (args.addOption name value) rest
      else .error .usage

/-- Reads the words behind a command; an ambiguous one counts before all others. -/
def read (u : Usage) (words : List String) : Except Stop Arguments :=
  if anyAmbiguous u.flags words then .error .usage
  else u.readFrom false .empty (items u.flags false words)

end Usage

end Verdict.CommandLine
