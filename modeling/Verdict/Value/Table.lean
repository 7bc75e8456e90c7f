/-
  Verdict.Value.Table — tables with values as keys, among them mappings.

  A key stands for every key equal to it. Setting a key that is there already keeps its
  place and its first spelling and changes what is under it; a new key goes to the end.
-/

import Verdict.Error
import Verdict.Value.Equality

namespace Verdict

namespace Table

variable {α : Type}

def find? (table : Table α) (key : Value) : Option α :=
  (List.find? (fun e => e.1.same key) table).map (·.2)

def contains (table : Table α) (key : Value) : Bool := List.any table fun e => e.1.same key

def set (table : Table α) (key : Value) (a : α) : Table α :=
  match table with
  | [] => [(key, a)]
  | (k, b) :: rest => if k.same key then (k, a) :: rest else (k, b) :: set rest key a

/-- Sets the keys of the second table in the first. -/
def merge (table others : Table α) : Table α :=
  others.foldl (fun acc e => set acc e.1 e.2) table

/-- The table of a list of pairs: the last one of a key counts. -/
def ofPairs (pairs : List (Value × α)) : Table α := merge [] pairs

def keys (table : Table α) : List Value := table.map (·.1)

end Table

/-- The value under a name; nothing when there is none. -/
def Entries.field (entries : Entries) (name : String) : Value :=
  (Table.find? entries (.str name)).getD .null

namespace Value

/-! ## Containers from their parts -/

/-- The mapping of a list of pairs, provided that every key can be one. -/
def mapOf (pairs : List (Value × Value)) : Except Error Value :=
  if pairs.all fun e => e.1.isKey then .ok (.map (Table.ofPairs pairs)) else .error .wrongType

/-- Adds an element that no earlier one equals. -/
def insertElement (items : List Value) (v : Value) : List Value :=
  if items.any (same v) then items else items ++ [v]

def setOf (items : List Value) : Value := .set (items.foldl insertElement [])

/-- Gives a field a value; a new field goes to the end. -/
def setField (fields : List (String × Value)) (name : String) (v : Value) :
    List (String × Value) :=
  match fields with
  | [] => [(name, v)]
  | (n, w) :: rest => if n = name then (n, v) :: rest else (n, w) :: setField rest name v

/-- The object with named fields; the last value of a name counts. -/
def objectOf (fields : List (String × Value)) : Value :=
  .record .object (fields.foldl (fun acc f => setField acc f.1 f.2) [])

end Value

end Verdict
