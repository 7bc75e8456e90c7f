/-
  Verdict.Error — why a computation stops without a result.

  An error is its cause. `family` sorts the causes; the families of the library's own
  errors have a code. `message` is the sentence for people and `details` the facts behind
  it. The remaining families are faults of the data or of the host: a value of the wrong
  kind, a missing attribute, key or index.
-/

import Verdict.Blueprint.Fault

namespace Verdict

/-! ## Causes -/

/-- Why an expression is malformed. Positions count characters from the start. -/
inductive Malformation
  | commaOutsideCall (position : Nat)
  | unclosed (position : Nat)
  | unexpected (text : String) (position : Nat)
  | missingOperands (operator : String) (arity : Int) (expression : String) (position : Nat)
  | argumentCount (count position : Nat)
  | operandsLeft (expression : String)
  deriving DecidableEq, Repr

inductive Error
  /-- A value of a type that has no state. -/
  | unsupportedType (typeName : String)
  /-- A string that is no word for a state. -/
  | unsupportedText (text : Value)
  | invalidSetting (setting : String) (text : String)
  | emptySymbol (symbol : String)
  | unknownSymbol (symbol : String)
  | undefinedOperand (operand : String) (gate : Value) (available : List Value)
  | noEvaluator (expression : Value)
  | malformed (why : Malformation)
  | assertionFailed (message : String) (state : State)
  | notABlueprint (path : String) (typeName : String)
  | unreadableBlueprint (path : String)
  | unparsableBlueprint (format : String)
  | faultyBlueprint (faults : List Blueprint.Fault) (path : String)
  | inconsistentBlueprint (complaints : List Blueprint.Complaint) (path : String)
  | versionMismatch (found : String)
  /-- The faults themselves, where nobody has summed them up. -/
  | faults (faults : List Blueprint.Fault)
  | unreadableContext
  | contextNotAMapping
  /-- The undecided state was asked for a truth value. -/
  | undecidedTruth
  /-- A text that is no whole number, as shown in messages. -/
  | notAnInteger (shown : String)
  | nanAsInteger
  | infinityAsInteger
  | zeroStep
  | notAnElement
  /-- A text that UTF-8 has no form for. -/
  | unencodable (text : Torn)
  /-- A failure of the host program. -/
  | hostFailure (message : String)
  | wrongType
  | missingAttribute
  | missingKey
  | missingIndex
  deriving Repr

/-- The version of blueprint files that this library reads. -/
def schemaVersion : String := "1.0.0"

/-! ## Families -/

inductive Family
  | unsupportedValue | invalidSymbol | undefinedOperand | noEvaluator | malformedExpression
  | assertion | load | validation | version
  | faults | argument | value | encoding | overflow | runtime | type | attribute | key | index
  deriving DecidableEq, Repr

/-- The code of a family of the library's own errors. -/
def Family.code? : Family → Option String
  | unsupportedValue => some "TL_UNSUPPORTED_VALUE"
  | invalidSymbol => some "TL_INVALID_TRIT_SYMBOL"
  | undefinedOperand => some "TL_UNDEFINED_OPERAND"
  | noEvaluator => some "TL_EVALUATOR_NOT_CONFIGURED"
  | malformedExpression => some "TL_EXPRESSION_SYNTAX"
  | assertion => some "TL_ASSERTION_FAILED"
  | load => some "TL_BLUEPRINT_LOAD_ERROR"
  | validation => some "TL_BLUEPRINT_VALIDATION_ERROR"
  | version => some "TL_BLUEPRINT_VERSION_MISMATCH"
  | _ => none

/-- The code of errors without a family of their own. -/
def internalCode : String := "TL_INTERNAL_ERROR"

def Error.family : Error → Family
  | unsupportedType _ | unsupportedText _ | invalidSetting _ _ => .unsupportedValue
  | emptySymbol _ | unknownSymbol _ => .invalidSymbol
  | undefinedOperand _ _ _ => .undefinedOperand
  | noEvaluator _ => .noEvaluator
  | malformed _ => .malformedExpression
  | assertionFailed _ _ => .assertion
  | notABlueprint _ _ | unreadableBlueprint _ | unparsableBlueprint _ => .load
  | faultyBlueprint _ _ | inconsistentBlueprint _ _ => .validation
  | versionMismatch _ => .version
  | faults _ => .faults
  | unreadableContext | contextNotAMapping => .argument
  | undecidedTruth | notAnInteger _ | nanAsInteger | zeroStep | notAnElement => .value
  | unencodable _ => .encoding
  | infinityAsInteger => .overflow
  | hostFailure _ => .runtime
  | wrongType => .type
  | missingAttribute => .attribute
  | missingKey => .key
  | missingIndex => .index

/-! ## Messages -/

def Malformation.message : Malformation → String
  | commaOutsideCall _ => "Comma outside of a function call"
  | unclosed _ => "Unbalanced parentheses: missing ')'"
  | unexpected text _ => "Unbalanced parentheses: unexpected " ++ Text.quoted text
  | missingOperands operator arity _ _ =>
    "Operator " ++ operator ++ " expects " ++ Text.decimal arity ++ " operand(s)"
  | argumentCount count _ => "IF expects 3 arguments, got " ++ Text.decimal count
  | operandsLeft _ => "Expression has operands without an operator between them"

/-- Names the first half of a torn text, or the first ones, if several follow one another,
    and its place. -/
def Torn.encodingMessage (t : Torn) : String :=
  let place := (t.points.takeWhile fun p => !p.isHalf).length
  let found :=
    match (t.points.drop place).takeWhile Point.isHalf with
    | [h] => "character '" ++ String.ofList h.spelled ++ "' in position " ++ Text.decimal place
    | hs => "characters in position " ++ Text.decimal place ++ "-" ++ Text.decimal (place + hs.length - 1)
  "'utf-8' codec can't encode " ++ found ++ ": surrogates not allowed"

def Error.message : Error → String
  | unsupportedType typeName => "Unsupported value type for ternary conversion: " ++ typeName
  | unsupportedText text => "Cannot derive ternary state from string value: " ++ text.inspect
  | invalidSetting setting text => "Invalid value for " ++ setting ++ ": " ++ Text.quoted text
  | emptySymbol _ => "Balanced trit symbol cannot be empty"
  | unknownSymbol symbol => "Unrecognised balanced trit symbol: " ++ Text.quoted symbol
  | undefinedOperand operand _ _ => "Operand [" ++ operand ++ "] is not defined"
  | noEvaluator _ => "Expression evaluator not configured"
  | malformed why => why.message
  | assertionFailed message _ => message
  | notABlueprint _ _ => "Blueprint must be a mapping"
  | unreadableBlueprint _ => "Failed to load blueprint"
  | unparsableBlueprint _ => "Failed to parse blueprint"
  | faultyBlueprint fs _ =>
    "Blueprint validation failed: " ++ Text.decimal fs.length ++ " errors"
  | inconsistentBlueprint _ _ => "Reference integrity validation failed"
  | versionMismatch found =>
    "Schema version mismatch: blueprint has " ++ found ++ ", expected " ++ schemaVersion
  | unreadableContext => "invalid context"
  | contextNotAMapping => "context must be a mapping"
  | undecidedTruth =>
    "Cannot convert TernaryState.UNKNOWN to bool. " ++
      "Use to_bool(unknown_as=...) or handle UNKNOWN explicitly."
  | notAnInteger shown => "invalid literal for int() with base 10: " ++ shown
  | nanAsInteger => "cannot convert float NaN to integer"
  | infinityAsInteger => "cannot convert float infinity to integer"
  | zeroStep => "slice step cannot be zero"
  | unencodable text => text.encodingMessage
  | hostFailure message => message
  | faults _ | notAnElement | wrongType | missingAttribute | missingKey | missingIndex => ""

/-! ## Details -/

def Malformation.details : Malformation → List (String × Value)
  | commaOutsideCall position | unclosed position | unexpected _ position
  | argumentCount _ position => [("position", .int position)]
  | missingOperands _ _ expression position =>
    [("expression", .str expression), ("position", .int position)]
  | operandsLeft expression => [("expression", .str expression)]

/-- The facts behind a message. Faults and complaints are not among them. -/
def Error.details : Error → List (String × Value)
  | unsupportedType typeName => [("type", .str typeName)]
  | unsupportedText text => [("value", text)]
  | invalidSetting setting text => [("variable", .str setting), ("value", .str text)]
  | emptySymbol symbol | unknownSymbol symbol => [("symbol", .str symbol)]
  | undefinedOperand operand gate available =>
    [("operand", .str operand), ("gate", gate), ("available", .list available)]
  | noEvaluator expression => [("expression", expression)]
  | malformed why => why.details
  | assertionFailed _ state => [("state", .str state.word)]
  | notABlueprint path typeName => [("path", .str path), ("type", .str typeName)]
  | unreadableBlueprint path => [("path", .str path)]
  | unparsableBlueprint format => [("format", .str format)]
  | faultyBlueprint _ path | inconsistentBlueprint _ path => [("path", .str path)]
  | versionMismatch found =>
    [("blueprint_version", .str found), ("expected_version", .str schemaVersion)]
  | _ => []

/-! ## Reports of errors -/

/-- What is told about an error of the library. -/
structure Diagnosis where
  code : String
  message : String
  details : Entries
  deriving Repr

namespace Diagnosis

/-- The line that is printed for people. -/
def line (d : Diagnosis) : String := "[" ++ d.code ++ "] " ++ d.message

/-- The diagnosis as data; details are left out when there are none. -/
def toEntries (d : Diagnosis) : Entries :=
  [(.str "code", .str d.code), (.str "message", .str d.message)]
    ++ (if d.details.isEmpty then [] else [(.str "details", .map d.details)])

end Diagnosis

/-- The diagnosis of an error that has a code. -/
def Error.diagnosis? (e : Error) : Option Diagnosis :=
  e.family.code?.map fun code =>
    ⟨code, e.message, e.details.map fun field => (.str field.1, field.2)⟩

end Verdict
