/-
  Verdict.Yaml.Reader — values from YAML text.

  A text is one document: nested lists and mappings, by indentation or in brackets, with
  scalars at the leaves. A key stands on one line, and what is under it either on the same
  line or deeper on the lines below; a list under a key may begin at the key's own column.
  Tags, anchors, block scalars and several documents are not read.

  The readers take fuel, which bounds how deep they call each other; `parse?` gives four
  units for each character, and no reader passes through four others without consuming
  one.
-/

import Verdict.Value.Table
import Verdict.Yaml.Plain
import Verdict.Yaml.Scalar

namespace Verdict.Yaml

/-! ## Scalars and marks -/

def readScalar (flow : Bool) (least : Nat) (c : Cursor) : Option (Value × Cursor) :=
  match c.rest with
  | '\'' :: _ | '"' :: _ => (readQuoted c).map fun r => (.ofScript r.1, r.2)
  | _ => do
    let (.whole s, after) ← readPlain flow least c | none
    return (← plainValue? s, after)

/-- The place after the colon of a key that began at `c` and ended at `after`. Both must
    be on one line; outside brackets the colon stands alone. -/
def afterColon? (flow : Bool) (c after : Cursor) : Option Cursor :=
  let colon := after.skip
  match colon.rest with
  | ':' :: rest =>
    if colon.line = c.line ∧ colon.column ≤ c.column + 1024 ∧ (flow ∨ standsAlone rest) then
      some colon.next
    else none
  | _ => none

/-- Whether an entry of a list begins here. -/
def atEntry (c : Cursor) : Bool :=
  match c.rest with
  | '-' :: rest => standsAlone rest
  | _ => false

/-- Goes on to the next line; nothing else may stand on this one. -/
def endLine (c : Cursor) : Option Cursor :=
  let next := c.skip
  if next.rest.isEmpty || c.line < next.line then some next else none

/-! ## Brackets -/

mutual

/-- A value between brackets. -/
def readFlow : (fuel : Nat) → Cursor → Option (Value × Cursor)
  | 0, _ => none
  | fuel + 1, c =>
    match c.rest with
    | '[' :: _ => (readItems fuel c.next.skip).map fun r => (.list r.1, r.2)
    | '\x7b' :: _ => do
      let (pairs, after) ← readMembers fuel c.next.skip
      return (← (Value.mapOf pairs).toOption, after)
    | _ => readScalar true 0 c

/-- What is under a key, if anything is there before `closing`. -/
def readUnder (closing : Char) : (fuel : Nat) → Cursor → Option (Value × Cursor)
  | 0, _ => none
  | fuel + 1, c =>
    let next := c.skip
    match next.rest with
    | [] => none
    | mark :: _ => if mark = ',' ∨ mark = closing then some (.null, next) else readFlow fuel next

/-- An item of a list; a single pair is a mapping. -/
def readItem : (fuel : Nat) → Cursor → Option (Value × Cursor)
  | 0, _ => none
  | fuel + 1, c => do
    let (v, after) ← readFlow fuel c
    match afterColon? true c after with
    | none => return (v, after)
    | some colon =>
      let (w, after) ← readUnder ']' fuel colon
      return (← (Value.mapOf [(v, w)]).toOption, after)

def readItems : (fuel : Nat) → Cursor → Option (List Value × Cursor)
  | 0, _ => none
  | fuel + 1, c =>
    match c.rest with
    | ']' :: _ => some ([], c.next)
    | _ => do
      let (item, after) ← readItem fuel c
      let next := after.skip
      match next.rest with
      | ',' :: _ => (readItems fuel next.next.skip).map fun r => (item :: r.1, r.2)
      | ']' :: _ => return ([item], next.next)
      | _ => none

def readMembers : (fuel : Nat) → Cursor → Option (Entries × Cursor)
  | 0, _ => none
  | fuel + 1, c =>
    match c.rest with
    | '\x7d' :: _ => some ([], c.next)
    | _ => do
      let (key, after) ← readFlow fuel c
      let (v, after) ←
        match afterColon? true c after with
        | none => some (.null, after)
        | some colon => readUnder '\x7d' fuel colon
      let next := after.skip
      match next.rest with
      | ',' :: _ => (readMembers fuel next.next.skip).map fun r => ((key, v) :: r.1, r.2)
      | '\x7d' :: _ => return ([(key, v)], next.next)
      | _ => none

end

/-! ## Indentation -/

mutual

/-- A value by indentation; further lines of a scalar begin at column `least` or behind.
    Where `nested` is false it must not be a list or mapping of this kind. The place after
    it is at the beginning of a later line. -/
def readNode : (fuel : Nat) → (least : Nat) → (nested : Bool) → Cursor → Option (Value × Cursor)
  | 0, _, _, _ => none
  | fuel + 1, least, nested, c => do
    if atEntry c then
      if nested then (readEntries fuel c.column c).map fun r => (.list r.1, r.2) else none
    else
      let (v, after) ←
        match c.rest with
        | '[' :: _ | '\x7b' :: _ => readFlow fuel c
        | _ => readScalar false least c
      match afterColon? false c after with
      | none => return (v, ← endLine after)
      | some _ =>
        if nested then
          let (pairs, after) ← readPairs fuel c.column c
          return (← (Value.mapOf pairs).toOption, after)
        else none

/-- The entries of a list at a column. -/
def readEntries : (fuel : Nat) → (column : Nat) → Cursor → Option (List Value × Cursor)
  | 0, _, _ => none
  | fuel + 1, column, c => do
    let next := c.next.skip
    let (v, after) ←
      if next.rest.isEmpty ∨ c.line < next.line ∧ next.column ≤ column then some (.null, next)
      else readNode fuel (column + 1) true next
    if after.column = column ∧ atEntry after then
      (readEntries fuel column after).map fun r => (v :: r.1, r.2)
    else return ([v], after)

/-- The pairs of a mapping at a column. -/
def readPairs : (fuel : Nat) → (column : Nat) → Cursor → Option (Entries × Cursor)
  | 0, _, _ => none
  | fuel + 1, column, c => do
    let (key, after) ← readScalar false (column + 1) c
    let colon ← afterColon? false c after
    let next := colon.skip
    let (v, after) ←
      if next.rest.isEmpty then some (.null, next)
      else if next.line = colon.line then readNode fuel (column + 1) false next
      else if column < next.column then readNode fuel (column + 1) true next
      else if next.column = column ∧ atEntry next then
        (readEntries fuel column next).map fun r => (.list r.1, r.2)
      else some (.null, next)
    if after.rest.isEmpty ∨ after.column < column then return ([(key, v)], after)
    else if after.column = column then
      (readPairs fuel column after).map fun r => ((key, v) :: r.1, r.2)
    else none

end

/-! ## Documents -/

/-- The characters that a text may consist of. -/
def isAllowed (c : Char) : Bool :=
  let n := c.toNat
  n = 0x09 || n = 0x0A || n = 0x0D || 0x20 ≤ n && n ≤ 0x7E || n = 0x85
    || 0xA0 ≤ n && n ≤ 0xFFFD || 0x10000 ≤ n

/-- Writes all line ends in the same way. -/
def unifyLines : List Char → List Char
  | [] => []
  | '\r' :: '\n' :: rest => '\n' :: unifyLines rest
  | c :: rest => (if c = '\r' ∨ c = '\u0085' then '\n' else c) :: unifyLines rest

/-- Whether a line marks the beginning or the end of a document. -/
def isMarker (line : List Char) : Bool :=
  (["---".toList, "...".toList].contains (line.take 3)) && standsAlone (line.drop 3)

/-- The text after the byte-order mark and the line that opens the document, if they are
    there. There must be no other marks of documents. -/
def body? (cs : List Char) : Option (List Char) :=
  let cs := if cs.head? = some '\uFEFF' then cs.drop 1 else cs
  let lines := Text.segments '\n' (unifyLines cs)
  let lines := if lines.head? = some "---".toList then lines.drop 1 else lines
  if lines.any isMarker then none else some (Text.join '\n' lines)

/-- The value that a text describes; an empty one describes nothing. -/
def parse? (s : String) : Option Value := do
  if !s.toList.all isAllowed then none
  let cs ← body? s.toList
  let start := (Cursor.start cs).skip
  if start.rest.isEmpty then return .null
  let (v, after) ← readNode (4 * (cs.length + 1)) 0 true start
  if after.rest.isEmpty then return v else none

end Verdict.Yaml
