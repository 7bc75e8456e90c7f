/-
  Verdict.Document.Validation — documents from mappings.

  Every field is checked, in the order of the declarations, then every key that is no
  field; the rules of a gate or a document are checked when its fields are all right, and
  the first broken one counts. Some values are taken for others: whole floats for whole
  numbers or truth values, truth values and decimal text for weights, numbers for the text
  of a version.
-/

import Verdict.Document
import Verdict.Document.Checked
import Verdict.Number.Numeral
import Verdict.Text.Case
import Verdict.Value.Table

namespace Verdict.Document

open Blueprint (Fault FaultKind Rule)

/-- The keys and positions that lead to a value. -/
abbrev Place := List Value

namespace Place

def field (p : Place) (name : String) : Place := p ++ [.str name]

def item (p : Place) (index : Nat) : Place := p ++ [.int index]

/-- Whether a number has 64 bits with its sign. -/
def isShort (n : Int) : Bool := -0x8000000000000000 ≤ n && n < 0x8000000000000000

/-- The place under a key. Text and numbers of 64 bits stand for themselves, other keys
    are shown. -/
def key (p : Place) (k : Value) : Place :=
  match k.text?, k with
  | some s, _ => p.field s
  | none, .int n => p ++ [if isShort n then k else .str k.inspect]
  | none, _ => p.field k.inspect

end Place

/-! ## Text and lists -/

/-- The text that a value is; a state is taken for its word and a digit for its worth. -/
def textOf? : Value → Option String
  | .state s => some s.word
  | .trit t => some (Text.decimal t.toInt)
  | v => v.text?

def checkText (p : Place) (v : Value) : Checked String :=
  match textOf? v with
  | some s => .sound s
  | none => .fault .notText p

def checkOptionalText (p : Place) : Value → Checked (Option String)
  | .null => .sound none
  | v => some <$> checkText p v

/-- A version may be written as a number. -/
def checkVersion (p : Place) (v : Value) : Checked String :=
  if v.number?.isSome then .sound v.display else checkText p v

def checkOperator (p : Place) (v : Value) : Checked Operator :=
  match v.text?.bind fun s => Operator.ofWord? (Text.lower (Text.strip s)) with
  | some o => .sound o
  | none => .fault .notOperator p

/-- The items with their places, from an index on. -/
def placed (p : Place) (index : Nat) : List Value → List (Place × Value)
  | [] => []
  | v :: rest => (p.item index, v) :: placed p (index + 1) rest

def checkItems {α : Type} (check : Place → Value → Checked α) (p : Place) (v : Value) :
    Checked (List α) :=
  match v.items? with
  | some items => .all (fun e => check e.1 e.2) (placed p 0 items)
  | none => .fault .notList p

/-! ## Numbers -/

/-- Why a float is no whole number. -/
def floatFault : Binary64 → FaultKind
  | .finite _ _ _ => .fractionAsInt
  | _ => .notFinite

/-- A number in decimal digits, with a point before zeros at most. -/
def decimalText? (s : String) : Option Int :=
  let cs := Number.trimNumeral s.toList
  let whole := cs.takeWhile (· ≠ '.')
  let places := (cs.dropWhile (· ≠ '.')).drop 1
  let isAscii (c : Char) : Bool := c.toNat < 0x80 && c ≠ ' '
  if places.all (· = '0') && whole.all isAscii then Number.readInt? whole else none

def checkWeight (p : Place) (v : Value) : Checked Int :=
  match v with
  | .float x =>
    match x.whole? with
    | some n => .sound n
    | none => .fault (floatFault x) p
  | v =>
    match v.int?, v.text? with
    | some n, _ => .sound n
    | none, none => .fault .notInt p
    | none, some s =>
      match decimalText? s with
      | some n => .sound n
      | none => .fault .textAsInt p

/-- The faults of a value that is no scalar: it is neither a truth value nor a number nor
    text. -/
def noScalar (p : Place) (asInt : FaultKind) : Checked Scalar :=
  .faulty [⟨.notBool, p.field "bool"⟩, ⟨asInt, p.field "int"⟩, ⟨.notText, p.field "str"⟩]

/-- The scalar that a whole float stands for. -/
def wholeScalar (n : Int) : Scalar :=
  if n = 0 then .bool false else if n = 1 then .bool true else .int n

def checkScalar (p : Place) (v : Value) : Checked Scalar :=
  match v with
  | .null => .sound .null
  | .bool b => .sound (.bool b)
  | .float x =>
    match x.whole? with
    | some n => .sound (wholeScalar n)
    | none => noScalar p (floatFault x)
  | v =>
    match v.int?, textOf? v with
    | some n, _ => .sound (.int n)
    | none, some s => .sound (.text s)
    | none, none => noScalar p .notInt

/-! ## Mappings -/

/-- The pairs of a mapping whose keys must be text. -/
def checkPairs {α : Type} (check : Place → Value → Checked α) (p : Place) (v : Value) :
    Checked (List (String × α)) :=
  let pair (e : Value × Value) : Checked (String × α) :=
    Prod.mk <$> checkText ((p.key e.1).field "[key]") e.1 <*> check (p.key e.1) e.2
  match v with
  | .map entries => .all pair entries
  | _ => .fault .notMapping p

/-- A field, or what stands for it when it is missing. -/
def checkField {α : Type} (check : Place → Value → Checked α) (absent : α) (p : Place)
    (entries : Entries) (name : String) : Checked α :=
  match Table.find? entries (.str name) with
  | some v => check (p.field name) v
  | none => .sound absent

def checkRequired {α : Type} (check : Place → Value → Checked α) (p : Place)
    (entries : Entries) (name : String) : Checked α :=
  match Table.find? entries (.str name) with
  | some v => check (p.field name) v
  | none => .fault .missing (p.field name)

/-- The keys that are no fields. -/
def strangeKeys (fields : List String) (p : Place) (entries : Entries) : List Fault :=
  entries.filterMap fun e =>
    match e.1.text? with
    | some s => if fields.contains s then none else some ⟨.unknownField, p.field s⟩
    | none => some ⟨.keyNotText, p.key e.1⟩

/-! ## Gates -/

/-- The first rule that a gate breaks. -/
def Gate.brokenRule? (g : Gate) : Option Rule :=
  ([ (g.operator = .expression && g.expression.getD "" = "", .expressionMissing),
     (g.operator ≠ .expression && g.operands.isEmpty, .operandsMissing g.operator),
     (g.operator = .not && g.operands.length ≠ 1, .oneOperandOnly),
     (!g.weights.isEmpty && g.operator ≠ .weighted, .weightsMisplaced),
     (g.operands.length < g.weights.length, .tooManyWeights)].find? (·.1)).map (·.2)

/-- The value, unless it breaks a rule. -/
def obey {α : Type} (broken? : α → Option Rule) (p : Place) (a : α) : Checked α :=
  match broken? a with
  | none => .sound a
  | some rule => .fault (.broken rule) p

def gateFields : List String :=
  ["name", "operator", "operands", "weights", "expression", "description"]

def checkGate (p : Place) (v : Value) : Checked Gate :=
  match v with
  | .map entries =>
    let gate := Gate.mk
      <$> checkField checkOptionalText none p entries "name"
      <*> checkField checkOperator .and p entries "operator"
      <*> checkField (checkItems checkScalar) [] p entries "operands"
      <*> checkField (checkItems checkWeight) [] p entries "weights"
      <*> checkField checkOptionalText none p entries "expression"
      <*> checkField checkOptionalText none p entries "description"
    (gate.withFaults (strangeKeys gateFields p entries)).followedBy (obey Gate.brokenRule? p)
  | _ => .fault .notRecord p

/-- Gates may be a mapping or a list; what is neither has the faults of both. -/
def checkGates (p : Place) (v : Value) : Checked Gates :=
  match checkPairs checkGate (p.field "<dict>") v, checkItems checkGate (p.field "<list>") v with
  | .sound gates, _ => .sound (.named gates)
  | _, .sound gates => .sound (.listed gates)
  | .faulty named, .faulty listed => .faulty (named ++ listed)

/-! ## Documents -/

/-- The index of the first gate of a list that has no name. -/
def Gates.firstUnnamed? : Gates → Option Nat
  | named _ => none
  | listed gates => gates.findIdx? fun g => g.name.getD "" = ""

def brokenRule? (d : Document) : Option Rule := d.gates.firstUnnamed?.map Rule.gateUnnamed

def documentFields : List String :=
  ["schema_version", "name", "description", "inputs", "gates", "output"]

/-- The document that a mapping holds. -/
def check (entries : Entries) : Checked Document :=
  let p : Place := []
  let document := Document.mk
    <$> checkField checkVersion schemaVersion p entries "schema_version"
    <*> checkRequired checkText p entries "name"
    <*> checkField checkOptionalText none p entries "description"
    <*> checkField (checkPairs checkScalar) [] p entries "inputs"
    <*> checkField checkGates (.named []) p entries "gates"
    <*> checkField checkOptionalText none p entries "output"
  (document.withFaults (strangeKeys documentFields p entries)).followedBy (obey brokenRule? p)

/-- The document in a value, which must be a mapping. -/
def checkValue : Value → Checked Document
  | .map entries => check entries
  | _ => .fault .notRecord []

end Verdict.Document
