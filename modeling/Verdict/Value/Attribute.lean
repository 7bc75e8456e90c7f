/-
  Verdict.Value.Attribute — what a value tells about itself under a name.

  A number has parts, a date fields, and a record what it is made of. A constant has a name
  and a worth, and leads to every constant of its kind. Under its other names a value can be
  called upon (`methods`): what stands there is no data, and nothing is told of it but what
  kind of method it is.
-/

import Verdict.Value.Display

namespace Verdict.Value

/-! ## Data -/

/-- What a number tells about itself under a name. -/
def numberAttribute? (n : Number) (name : String) : Option Value :=
  match n, name with
  | .int n, "real" | .int n, "numerator" => some (int n)
  | .int _, "imag" => some (int 0)
  | .int _, "denominator" => some (int 1)
  | .float x, "real" => some (float x)
  | .float _, "imag" => some (float (.ofInt 0))
  | _, _ => none

/-- What a named constant tells about itself under a name, beside the constants of its kind. -/
def constantAttribute? (constant : String) (worth : Value) (kind : List (String × Value)) (name : String) :
    Option Value :=
  match name with
  | "name" => some (str constant)
  | "value" => some worth
  | _ => kind.lookup name

def stateConstants : List (String × Value) := [State.yes, .no, .unknown].map fun s => (s.name, state s)

def tritConstants : List (String × Value) := [Trit.positive, .zero, .negative].map fun t => (t.name, trit t)

def operatorConstants : List (String × Value) := Operator.all.map fun o => (o.label, operator o)

/-- The fields of a point in time, down to those that are named. -/
def timeAttribute? (names : List String) (text name : String) : Option Value :=
  ((names.zip (dateNumbers text)).lookup name).map fun (n : Nat) => int n

/-- What a value tells about itself under a name, as far as it is data. -/
def datum? (v : Value) (name : String) : Option Value :=
  match v with
  | record _ fields => fields.lookup name
  | state s => constantAttribute? s.name (str s.word) stateConstants name
  | operator o =>
    if name = "label" then some (str o.label)
    else constantAttribute? o.label (str o.word) operatorConstants name
  | trit t =>
    (constantAttribute? t.name (int t.toInt) tritConstants name).or (numberAttribute? (.int t.toInt) name)
  | stamp .date text => timeAttribute? ["year", "month", "day"] text name
  | stamp .dateTime text => timeAttribute? ["year", "month", "day", "hour", "minute", "second"] text name
  | duration seconds =>
    match name with
    | "days" => some (int (daysAndSeconds seconds).1)
    | "seconds" => some (int (daysAndSeconds seconds).2)
    | "microseconds" => some (int 0)
    | _ => none
  | v => v.number?.bind fun n => numberAttribute? n name

/-! ## Methods -/

/-- The methods that texts and bytes share. -/
def letterMethods : List String := [
  "capitalize", "center", "count", "endswith", "expandtabs", "find", "index", "isalnum", "isalpha", "isascii",
  "isdigit", "islower", "isspace", "istitle", "isupper", "join", "ljust", "lower", "lstrip", "maketrans", "partition",
  "removeprefix", "removesuffix", "replace", "rfind", "rindex", "rjust", "rpartition", "rsplit", "rstrip", "split",
  "splitlines", "startswith", "strip", "swapcase", "title", "translate", "upper", "zfill"]

def textMethods : List String := letterMethods ++ [
  "casefold", "encode", "format", "format_map", "isdecimal", "isidentifier", "isnumeric", "isprintable"]

def wholeMethods : List String := [
  "as_integer_ratio", "bit_count", "bit_length", "conjugate", "from_bytes", "to_bytes"]

/-- The methods that dates share with points in time. -/
def dayMethods : List String := [
  "ctime", "fromisocalendar", "fromisoformat", "fromordinal", "fromtimestamp", "isocalendar", "isoformat",
  "isoweekday", "replace", "strftime", "timetuple", "today", "toordinal", "weekday"]

/-- The methods that a value has from the host's language. -/
def nativeMethods : Value → List String
  | str _ | torn _ | operator _ => textMethods
  | bytes _ => letterMethods ++ ["decode", "fromhex", "hex"]
  | bool _ | int _ | trit _ => wholeMethods
  | float _ => ["as_integer_ratio", "conjugate", "fromhex", "hex", "is_integer"]
  | list _ => ["append", "clear", "copy", "count", "extend", "index", "insert", "pop", "remove", "reverse", "sort"]
  | tuple _ => ["count", "index"]
  | set _ => [
    "add", "clear", "copy", "difference", "difference_update", "discard", "intersection", "intersection_update",
    "isdisjoint", "issubset", "issuperset", "pop", "remove", "symmetric_difference", "symmetric_difference_update",
    "union", "update"]
  | stream _ _ => ["close", "send", "throw"]
  | stamp .date _ => dayMethods
  | stamp .dateTime _ => dayMethods ++ [
    "astimezone", "combine", "date", "dst", "now", "strptime", "time", "timestamp", "timetz", "tzname",
    "utcfromtimestamp", "utcnow", "utcoffset", "utctimetuple"]
  | duration _ => ["total_seconds"]
  | _ => []

/-- The methods that a value has from this library. -/
def methods : Value → List String
  | state _ => [
    "from_balanced_trit", "from_mixed", "invert", "is_false", "is_known", "is_true", "is_unknown", "label",
    "to_balanced_trit", "to_bool", "to_int", "to_nullable_bool"]
  | trit _ => ["from_int", "from_symbol", "invert", "symbol", "to_int", "to_state"]
  | operator _ => ["parse"]
  | vector _ => [
    "all", "and_", "consensus", "count", "counts", "index", "majority", "make", "or_", "score",
    "to_balanced_string", "weighted", "xor"]
  | record .gate _ | record .blueprint _ => ["from_dict"]
  | _ => []

/-- What stands under a name of a value: data first, else a method of this library, else one
    of the host's. Left out are the properties of records that are worked out when they are
    asked for, the time zone, fold and fractions of a point in time, and what the classes of
    decimals, identifiers, paths, durations, streams and functions add. -/
def attribute? (v : Value) (name : String) : Option Value :=
  match v.datum? name with
  | some found => some found
  | none =>
    if v.methods.contains name then some (stamp .method name)
    else if v.nativeMethods.contains name then some (stamp .nativeMethod name)
    else none

end Verdict.Value
