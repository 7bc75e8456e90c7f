/-
  Verdict.Value.Equality — when two values are equal, and when one can be a key.

  Numbers are compared by worth, whatever their kind: 1, 1.0, `true` and the digit +1 are
  one key. Operators equal the string that is their word. Lists and tuples are compared
  element by element, mappings and sets without regard to order. A value that can change
  in place cannot be a key.
-/

import Verdict.Value

namespace Verdict.Value

/-! ## Equality -/

/-- A vector equals any sequence of the same states. -/
def isSequenceOf (states : List State) : List Value → Bool
  | [] => states.isEmpty
  | state s :: rest =>
    match states with
    | s' :: states' => s = s' && isSequenceOf states' rest
    | [] => false
  | _ :: _ => false

/-- A number equals the numbers of its worth and nothing else. -/
def sameAsNumber (x : Number) (v : Value) : Bool :=
  match v.number? with
  | some y => x.eq y
  | none => false

mutual

def same : Value → Value → Bool
  | null, null => true
  | state s, state t => s = t
  | vector s, vector t => s = t
  | vector s, list items | vector s, tuple items => isSequenceOf s items
  | list items, vector s | tuple items, vector s => isSequenceOf s items
  | vector s, bytes bs | bytes bs, vector s => s.isEmpty && bs.isEmpty
  | bytes a, bytes b => a = b
  | list a, list b => sameAll a b
  | tuple a, tuple b => sameAll a b
  | set a, set b => a.length = b.length && within a b
  | map a, map b => a.length = b.length && withinMap a b
  | record k a, record l b => k = l && a.length = b.length && withinFields a b
  | stream i _, stream j _ => i = j
  | function f, function g => f.id = g.id
  | stamp k a, stamp l b => k = l && a = b
  | duration a, duration b => a = b
  | bool b, v => sameAsNumber (.int (if b then 1 else 0)) v
  | int n, v => sameAsNumber (.int n) v
  | float x, v => sameAsNumber (.float x) v
  | trit t, v => sameAsNumber (.int t.toInt) v
  | str s, v => v.text? = some s
  | torn t, torn u => t = u
  | operator o, v => v.text? = some o.word
  | _, _ => false
termination_by structural a => a

def sameAll : List Value → List Value → Bool
  | [], [] => true
  | a :: as, b :: bs => same a b && sameAll as bs
  | _, _ => false
termination_by structural as => as

/-- Every value on the left has an equal on the right. -/
def within : List Value → List Value → Bool
  | [], _ => true
  | a :: as, bs => bs.any (fun b => same a b) && within as bs
termination_by structural as => as

/-- Every pair on the left has an equal on the right. -/
def withinMap : List (Value × Value) → List (Value × Value) → Bool
  | [], _ => true
  | (k, v) :: as, bs => bs.any (fun b => same k b.1 && same v b.2) && withinMap as bs
termination_by structural as => as

/-- Every field on the left has an equal on the right. -/
def withinFields : List (String × Value) → List (String × Value) → Bool
  | [], _ => true
  | (k, v) :: as, bs => bs.any (fun b => k = b.1 && same v b.2) && withinFields as bs
termination_by structural as => as

end

/-! ## Keys -/

mutual

/-- Whether a value can be a key of a mapping or an element of a set. -/
def isKey : Value → Bool
  | list _ | set _ | map _ => false
  | tuple items => areKeys items
  | record .object _ | record .blueprint _ => false
  | record _ fields => fieldsAreKeys fields
  | _ => true
termination_by structural v => v

def areKeys : List Value → Bool
  | [] => true
  | v :: vs => isKey v && areKeys vs
termination_by structural vs => vs

def fieldsAreKeys : List (String × Value) → Bool
  | [] => true
  | (_, v) :: vs => isKey v && fieldsAreKeys vs
termination_by structural vs => vs

end

end Verdict.Value
