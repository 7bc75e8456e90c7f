/-
  Verdict.Proofs.JsonText — documents without floats read back from their compact text.

  The compact text of a document, with its halves escaped and put in front of a text that
  does not go on with it, is read as that document (`readValue_chars`), so no two documents
  without floats have one text (`text_compact_inj`). Strings and numbers are taken back
  piece by piece: what a character or a half is written as is one unit for the reader, and
  the digits of a number end where the digits end. Only numbers need something to end them
  (`Ends`). The reader joins halves only when a whole document is read, so the pieces are
  taken back whatever halves are in them.
-/

import Verdict.Json.Reader
import Mathlib.Tactic.SplitIfs

namespace Verdict

/-! ## Digits -/

namespace Text

theorem toNat_digitChar {d : Nat} (h : d < 10) : (digitChar d).toNat = 0x30 + d := by
  have all : ∀ d < 10, (digitChar d).toNat = 0x30 + d := by decide
  exact all d h

theorem isDigit_natChars (n : Nat) : ∀ c ∈ natChars n, Json.isDigit c = true := by
  have digit : ∀ d < 10, Json.isDigit (digitChar d) = true := by decide
  induction n using Nat.strongRecOn with
  | ind n ih =>
    intro c hc
    rw [natChars] at hc
    split at hc
    · next h => rw [List.mem_singleton.1 hc]; exact digit n h
    · rcases List.mem_append.1 hc with hc | hc
      · exact ih (n / 10) (by omega) c hc
      · rw [List.mem_singleton.1 hc]; exact digit _ (Nat.mod_lt _ (by omega))

/-- No zero stands in front of other digits. -/
theorem natChars_head {n : Nat} (h : n ≠ 0) : ∃ c cs, natChars n = c :: cs ∧ c ≠ '0' := by
  have nonzero : ∀ d < 10, d ≠ 0 → digitChar d ≠ '0' := by decide
  induction n using Nat.strongRecOn with
  | ind n ih =>
    rw [natChars]
    split
    · next hn => exact ⟨_, [], rfl, nonzero n hn h⟩
    · obtain ⟨c, cs, hc, hne⟩ := ih (n / 10) (by omega) (by omega)
      exact ⟨c, cs ++ [digitChar (n % 10)], by rw [hc, List.cons_append], hne⟩

theorem natChars_zero : natChars 0 = ['0'] := by rw [natChars]; rfl

theorem natChars_cons (n : Nat) : ∃ c cs, natChars n = c :: cs ∧ Json.isDigit c = true := by
  have hd := isDigit_natChars n
  by_cases h : n = 0
  · exact ⟨'0', [], by rw [h, natChars_zero], rfl⟩
  · obtain ⟨c, cs, hc, -⟩ := natChars_head h
    exact ⟨c, cs, hc, hd c (by rw [hc]; exact List.mem_cons_self)⟩

theorem digitsOf_natChars (n : Nat) : Json.digitsOf (natChars n) = n := by
  induction n using Nat.strongRecOn with
  | ind n ih =>
    rw [natChars]
    split
    · next h => simp [Json.digitsOf, Number.ofDigits, toNat_digitChar h]
    · have hq := ih (n / 10) (by omega)
      have hd := toNat_digitChar (Nat.mod_lt n (by omega : 10 > 0))
      simp only [Json.digitsOf, Number.ofDigits, List.map_append, List.foldl_append] at hq ⊢
      rw [hq]
      simp only [List.map_cons, List.map_nil, List.foldl_cons, List.foldl_nil, hd]
      omega

theorem hexValue?_hexDigit {n : Nat} (h : n < 16) : hexValue? (hexDigit n) = some n := by
  have all : ∀ n < 16, hexValue? (hexDigit n) = some n := by decide
  exact all n h

end Text

namespace Json

/-! ## Strings -/

theorem hexNumber?_digits {n : Nat} (h : n < 0x10000) :
    hexNumber? (Text.hexDigit (n / 16 / 16 / 16 % 16)) (Text.hexDigit (n / 16 / 16 % 16))
      (Text.hexDigit (n / 16 % 16)) (Text.hexDigit (n % 16)) = some n := by
  simp only [hexNumber?, Text.hexValue?_hexDigit (Nat.mod_lt _ (by omega : 16 > 0)),
    Option.bind_eq_bind, Option.bind_some, Option.pure_def, Option.some.injEq]
  omega

theorem readUnits_letter {c : Char} {n : Nat} (h : escaped? c = some n) (rest : List Char) :
    readUnits ('\\' :: c :: rest) = (readUnits rest).map fun r => (n :: r.1, r.2) := by
  have hu : c ≠ 'u' := by rintro rfl; cases h
  rw [readUnits]
  · rw [h]; cases readUnits rest <;> rfl
  · intro _ _ _ _ _ hc; exact absurd hc hu

theorem readUnits_plain {c : Char} (hq : c ≠ '"') (hb : c ≠ '\\') (hc : ¬ c.toNat < 0x20)
    (rest : List Char) :
    readUnits (c :: rest) = (readUnits rest).map fun r => (c.toNat :: r.1, r.2) := by
  rw [readUnits]
  · simp only [hb, hc, or_self, if_false]; cases readUnits rest <;> rfl
  · exact hq
  · intro _ _ _ _ _ h; exact absurd h hb
  · intro _ _ h; exact absurd h hb

theorem readUnits_unit {n : Nat} (h : n < 0x10000) (rest : List Char) :
    readUnits (Text.unitEscape n ++ rest) = (readUnits rest).map fun r => (n :: r.1, r.2) := by
  simp only [Text.unitEscape, Text.hexDigits, List.nil_append, List.cons_append, readUnits,
    hexNumber?_digits h, Option.bind_eq_bind, Option.bind_some]
  cases readUnits rest <;> rfl

/-- What a character is written as is read as its number, whatever follows. -/
theorem readUnits_writeChar (c : Char) (rest : List Char) :
    readUnits (writeChar false c ++ rest)
      = (readUnits rest).map fun r => (c.toNat :: r.1, r.2) := by
  simp only [writeChar, Bool.false_eq_true, false_and, or_false]
  split_ifs with hq hb hn hr ht hf hs hlow
  iterate 7 (subst c; exact readUnits_letter rfl rest)
  · rw [charEscape, if_pos (by omega)]
    exact readUnits_unit (by omega) rest
  · exact readUnits_plain hq hb hlow rest

/-- What a point is written as, with its halves escaped. -/
def pointChars (p : Point) : List Char := Text.spell (writePoint false p)

theorem readUnits_pointChars (p : Point) (rest : List Char) :
    readUnits (pointChars p ++ rest) = (readUnits rest).map fun r => (p.code :: r.1, r.2) := by
  cases p with
  | char c => rw [pointChars, writePoint, Text.spell_points]; exact readUnits_writeChar c rest
  | half h =>
    have hcode : h.code < 0x10000 := by
      have := h.place.isLt
      unfold Half.code
      omega
    have hchars : pointChars (.half h) = Text.unitEscape h.code := List.append_nil _
    rw [hchars]
    exact readUnits_unit hcode rest

theorem readUnits_string (ps : List Point) (rest : List Char) :
    readUnits (ps.flatMap pointChars ++ '"' :: rest) = some (ps.map Point.code, rest) := by
  induction ps with
  | nil => rfl
  | cons p ps ih =>
    rw [List.flatMap_cons, List.append_assoc, readUnits_pointChars, ih]
    rfl

/-- The reader takes each number for a point of its own. -/
theorem readString_chars (s : Script) (rest : List Char) :
    readString (s.points.flatMap pointChars ++ '"' :: rest) = some (s, rest) := by
  simp [readString, readUnits_string, Function.comp_def]

/-! ## Numbers -/

/-- The text does not go on with what could belong to a number. -/
def Ends (rest : List Char) : Prop := ∀ c ∈ rest.head?, c = ',' ∨ c = ']' ∨ c = '\x7d'

theorem takeWhile_digits {ds rest : List Char} (hd : ∀ c ∈ ds, isDigit c = true) (hr : Ends rest) :
    (ds ++ rest).takeWhile isDigit = ds ∧ (ds ++ rest).dropWhile isDigit = rest := by
  have hstop : rest.takeWhile isDigit = [] ∧ rest.dropWhile isDigit = rest := by
    cases rest with
    | nil => exact ⟨rfl, rfl⟩
    | cons c rest => rcases hr c rfl with rfl | rfl | rfl <;> exact ⟨rfl, rfl⟩
  rw [List.takeWhile_append_of_pos hd, List.dropWhile_append_of_pos hd, hstop.1, hstop.2,
    List.append_nil]
  exact ⟨rfl, rfl⟩

theorem readWhole_natChars (n : Nat) {rest : List Char} (hr : Ends rest) :
    readWhole (Text.natChars n ++ rest) = some (Text.natChars n, rest) := by
  by_cases h0 : n = 0
  · rw [h0, Text.natChars_zero]; rfl
  · obtain ⟨c, cs, hc, hne⟩ := Text.natChars_head h0
    obtain ⟨ht, hd⟩ := takeWhile_digits (Text.isDigit_natChars n) hr
    rw [hc] at ht hd ⊢
    rw [List.cons_append] at ht hd ⊢
    rw [readWhole]
    · rw [ht, hd]
    · intro _ h; exact hne (List.cons.inj h).1

theorem readNumber_natChars (negative : Bool) (n : Nat) {rest : List Char} (hr : Ends rest) :
    readNumber negative (Text.natChars n ++ rest)
      = some (int (if negative then -(n : Int) else n), rest) := by
  have hplaces : readPlaces rest = ([], rest) := by
    cases rest with
    | nil => rfl
    | cons c rest => rcases hr c rfl with rfl | rfl | rfl <;> rfl
  have hpower : readPower rest = (none, rest) := by
    cases rest with
    | nil => rfl
    | cons c rest => rcases hr c rfl with rfl | rfl | rfl <;> rfl
  simp only [readNumber, readWhole_natChars n hr, Option.bind_eq_bind, Option.bind_some, hplaces,
    hpower, Text.digitsOf_natChars]
  rfl

/-! ## Documents -/

mutual

/-- Whether all numbers of a document are whole. -/
def floatless : Json → Bool
  | float _ => false
  | array items => allFloatless items
  | object members => membersFloatless members
  | _ => true
termination_by structural j => j

def allFloatless : List Json → Bool
  | [] => true
  | item :: items => floatless item && allFloatless items
termination_by structural items => items

def membersFloatless : List (Script × Json) → Bool
  | [] => true
  | (_, v) :: members => floatless v && membersFloatless members
termination_by structural members => members

end

/-- The compact text of a document, with its halves escaped. -/
def chars (depth : Nat) (j : Json) : List Char := Text.spell (write .compact depth j)

def itemsChars (depth : Nat) (items : List Json) : List Char :=
  Text.spell (writeItems .compact depth items)

def membersChars (depth : Nat) (members : List (Script × Json)) : List Char :=
  Text.spell (writeMembers .compact depth members)

/-- The text of a member without what stands around it. -/
def memberChars (depth : Nat) (name : Script) (v : Json) : List Char :=
  '"' :: name.points.flatMap pointChars ++ '"' :: ':' :: chars (depth + 1) v

theorem spell_writeString (s : Script) :
    Text.spell (writeString false s) = '"' :: s.points.flatMap pointChars ++ ['"'] := by
  have hflat : Text.spell (s.points.flatMap (writePoint false)) = s.points.flatMap pointChars := List.flatMap_assoc
  rw [writeString, Text.spell_append, ← hflat]
  rfl

section

variable (depth : Nat)

theorem chars_null : chars depth null = "null".toList := Text.spell_points _

theorem chars_bool (b : Bool) : chars depth (bool b) = if b then "true".toList else "false".toList :=
  Text.spell_points _

theorem chars_int (n : Int) : chars depth (int n) = Text.intChars n := Text.spell_points _

theorem chars_str (s : Script) : chars depth (str s) = '"' :: s.points.flatMap pointChars ++ ['"'] :=
  spell_writeString s

theorem chars_array_nil : chars depth (array []) = ['[', ']'] := Text.spell_points _

theorem chars_object_nil : chars depth (object []) = ['\x7b', '\x7d'] := Text.spell_points _

theorem itemsChars_nil : itemsChars depth [] = [']'] := Text.spell_points _

theorem membersChars_nil : membersChars depth [] = ['\x7d'] := Text.spell_points _

theorem chars_array_cons (item : Json) (items : List Json) :
    chars depth (array (item :: items)) = '[' :: (chars (depth + 1) item ++ itemsChars depth items) := by
  simp only [chars, write, Text.spell_append, Text.spell_points]
  rfl

theorem itemsChars_cons (item : Json) (items : List Json) :
    itemsChars depth (item :: items) = ',' :: (chars (depth + 1) item ++ itemsChars depth items) := by
  simp only [itemsChars, writeItems, Text.spell_append, Text.spell_points]
  rfl

theorem chars_object_cons (name : Script) (v : Json) (members : List (Script × Json)) :
    chars depth (object ((name, v) :: members))
      = '\x7b' :: (memberChars depth name v ++ membersChars depth members) := by
  simp [chars, write, Text.spell_append, Text.spell_points, spell_writeString, memberChars, membersChars,
    Layout.compact, Layout.lineBreak]

theorem membersChars_cons (name : Script) (v : Json) (members : List (Script × Json)) :
    membersChars depth ((name, v) :: members)
      = ',' :: (memberChars depth name v ++ membersChars depth members) := by
  simp [membersChars, writeMembers, Text.spell_append, Text.spell_points, spell_writeString, memberChars, chars,
    Layout.compact, Layout.lineBreak]

end

/-- The characters that the compact text of such a document can begin with. -/
def begins (c : Char) : Bool := isDigit c || ['n', 't', 'f', '-', '"', '[', '\x7b'].contains c

theorem chars_begins (depth : Nat) {j : Json} (hj : j.floatless = true) :
    ∃ c cs, chars depth j = c :: cs ∧ begins c = true := by
  cases j with
  | null => exact ⟨_, _, chars_null depth, rfl⟩
  | bool b => cases b <;> exact ⟨_, _, chars_bool depth _, rfl⟩
  | int n =>
    rw [chars_int]
    cases n with
    | ofNat n =>
      obtain ⟨c, cs, hc, hd⟩ := Text.natChars_cons n
      exact ⟨c, cs, hc, by rw [begins, hd, Bool.true_or]⟩
    | negSucc n => exact ⟨_, _, rfl, rfl⟩
  | float x => cases hj
  | str s => exact ⟨_, _, chars_str depth s, rfl⟩
  | array items =>
    cases items with
    | nil => exact ⟨_, _, chars_array_nil depth, rfl⟩
    | cons item items => exact ⟨_, _, chars_array_cons depth item items, rfl⟩
  | object members =>
    cases members with
    | nil => exact ⟨_, _, chars_object_nil depth, rfl⟩
    | cons m members => exact ⟨_, _, chars_object_cons depth m.1 m.2 members, rfl⟩

theorem begins_ne {c d : Char} (hc : begins c = true) (hd : begins d = false) : c ≠ d := by
  rintro rfl
  exact absurd hc (by rw [hd]; exact Bool.false_ne_true)

theorem digit_ne {c d : Char} (hc : isDigit c = true) (hd : isDigit d = false) : c ≠ d := by
  rintro rfl
  exact absurd hc (by rw [hd]; exact Bool.false_ne_true)

theorem skipBlanks_cons {c : Char} (hc : begins c = true) (cs : List Char) :
    skipBlanks (c :: cs) = c :: cs := by
  have space : c ≠ ' ' := begins_ne hc rfl
  have tab : c ≠ '\t' := begins_ne hc rfl
  have feed : c ≠ '\n' := begins_ne hc rfl
  have turn : c ≠ '\r' := begins_ne hc rfl
  simp [skipBlanks, space, tab, feed, turn]

theorem skipBlanks_chars (depth : Nat) {j : Json} (hj : j.floatless = true) (rest : List Char) :
    skipBlanks (chars depth j ++ rest) = chars depth j ++ rest := by
  obtain ⟨c, cs, hc, hb⟩ := chars_begins depth hj
  rw [hc, List.cons_append, skipBlanks_cons hb]

theorem readWord_none {cs : List Char} (h : ∀ w ∈ words, ¬ w.1.toList <+: cs) :
    readWord cs = none := by
  simp only [readWord, List.findSome?_eq_none_iff]
  intro w hw
  simp only [after?, List.isPrefixOf_iff_prefix, if_neg (h w hw), Option.map_none]

/-- No word begins like a number. -/
theorem readWord_digit {c : Char} (hc : isDigit c = true) (cs : List Char) :
    readWord (c :: cs) = none ∧ readWord ('-' :: c :: cs) = none := by
  have long : ∀ w ∈ words, 2 ≤ w.1.toList.length := by decide
  have first : ∀ w ∈ words, w.1.toList.head?.any isDigit = false := by decide
  have second : ∀ w ∈ words, w.1.toList[1]?.any isDigit = false := by decide
  refine ⟨readWord_none fun w hw hp => ?_, readWord_none fun w hw hp => ?_⟩
  · have hl := long w hw
    have hd := first w hw
    rcases hlist : w.1.toList with _ | ⟨d, ds⟩
    · simp [hlist] at hl
    · rw [hlist] at hp hd
      exact digit_ne hc hd (List.cons_prefix_cons.1 hp).1.symm
  · have hl := long w hw
    have hd := second w hw
    rcases hlist : w.1.toList with _ | ⟨d, _ | ⟨e, es⟩⟩
    · simp [hlist] at hl
    · simp [hlist] at hl
    · rw [hlist] at hp hd
      have htail := (List.cons_prefix_cons.1 hp).2
      exact digit_ne hc hd (List.cons_prefix_cons.1 htail).1.symm

theorem readScalar_int (n : Int) {rest : List Char} (hr : Ends rest) :
    readScalar (Text.intChars n ++ rest) = some (int n, rest) := by
  cases n with
  | ofNat n =>
    obtain ⟨c, cs, hc, hd⟩ := Text.natChars_cons n
    have hread := readNumber_natChars false n hr
    rw [Text.intChars, hc, List.cons_append] at *
    rw [readScalar, (readWord_digit hd _).1]
    · exact hread
    · intro _ h; exact digit_ne hd rfl (List.cons.inj h).1
    · intro _ h; exact digit_ne hd rfl (List.cons.inj h).1
  | negSucc n =>
    obtain ⟨c, cs, hc, hd⟩ := Text.natChars_cons (n + 1)
    have hread := readNumber_natChars true (n + 1) hr
    rw [Text.intChars, List.cons_append]
    rw [hc, List.cons_append] at *
    rw [readScalar, (readWord_digit hd _).2]
    exact hread

/-- Words, strings and numbers are read as scalars. -/
theorem readValue_scalar {fuel : Nat} {c : Char} {cs : List Char} (ha : c ≠ '[') (ho : c ≠ '\x7b') :
    readValue (fuel + 1) (c :: cs) = readScalar (c :: cs) := by
  rw [readValue]
  · intro _ h; exact ha (List.cons.inj h).1
  · intro _ h; exact ho (List.cons.inj h).1

theorem readScalar_quote (cs : List Char) :
    readScalar ('"' :: cs) = (readString cs).map fun r => (str r.1, r.2) := rfl

theorem ends_cons {c : Char} (h : c = ',' ∨ c = ']' ∨ c = '\x7d') (cs : List Char) :
    Ends (c :: cs) := by
  rintro _ ⟨⟩
  exact h

section

variable (depth : Nat)

theorem ends_itemsChars (items : List Json) (rest : List Char) :
    Ends (itemsChars depth items ++ rest) := by
  cases items with
  | nil => rw [itemsChars_nil]; exact ends_cons (.inr (.inl rfl)) _
  | cons item items => rw [itemsChars_cons]; exact ends_cons (.inl rfl) _

theorem ends_membersChars (members : List (Script × Json)) (rest : List Char) :
    Ends (membersChars depth members ++ rest) := by
  cases members with
  | nil => rw [membersChars_nil]; exact ends_cons (.inr (.inr rfl)) _
  | cons m members => rw [membersChars_cons]; exact ends_cons (.inl rfl) _

end

section

variable {fuel : Nat} {cs rest : List Char}

theorem readItems_last {item : Json} (h : readValue fuel cs = some (item, ']' :: rest)) :
    readItems (fuel + 1) cs = some ([item], rest) := by
  rw [readItems, h]; rfl

theorem readItems_next {item : Json} (h : readValue fuel cs = some (item, ',' :: rest)) :
    readItems (fuel + 1) cs = (readItems fuel (skipBlanks rest)).map fun r => (item :: r.1, r.2) := by
  rw [readItems, h]
  show (readItems fuel (skipBlanks rest)).bind _ = _
  cases readItems fuel (skipBlanks rest) <;> rfl

theorem readMembers_last {name : Script} {v : Json} {inner : List Char}
    (hn : readString cs = some (name, ':' :: inner))
    (hv : readValue fuel (skipBlanks inner) = some (v, '\x7d' :: rest)) :
    readMembers (fuel + 1) ('"' :: cs) = some ([(name, v)], rest) := by
  rw [readMembers, hn]
  show (readValue fuel (skipBlanks inner)).bind _ = _
  rw [hv]; rfl

theorem readMembers_next {name : Script} {v : Json} {inner : List Char}
    (hn : readString cs = some (name, ':' :: inner))
    (hv : readValue fuel (skipBlanks inner) = some (v, ',' :: rest)) :
    readMembers (fuel + 1) ('"' :: cs)
      = (readMembers fuel (skipBlanks rest)).map fun r => ((name, v) :: r.1, r.2) := by
  rw [readMembers, hn]
  show (readValue fuel (skipBlanks inner)).bind _ = _
  rw [hv]
  show (readMembers fuel (skipBlanks rest)).bind _ = _
  cases readMembers fuel (skipBlanks rest) <;> rfl

theorem memberChars_append (depth : Nat) (name : Script) (v : Json) (rest : List Char) :
    memberChars depth name v ++ rest
      = '"' :: (name.points.flatMap pointChars ++ '"' :: ':' :: (chars (depth + 1) v ++ rest)) := by
  simp [memberChars]

end

mutual

/-- The compact text of a document in front of a text that does not go on with it is read as
    that document. Each level takes one unit of fuel and at least one character. -/
theorem readValue_chars : ∀ {j : Json} (depth fuel : Nat) (rest : List Char),
    j.floatless = true → Ends rest → (chars depth j).length < fuel →
    readValue fuel (chars depth j ++ rest) = some (j, rest)
  | null, depth, fuel + 1, rest, hj, hr, hf => readValue_scalar (by decide) (by decide)
  | bool b, depth, fuel + 1, rest, hj, hr, hf => by
    cases b <;> exact readValue_scalar (by decide) (by decide)
  | int n, depth, fuel + 1, rest, hj, hr, hf => by
    have hread := readScalar_int n hr
    obtain ⟨c, cs, hc, ha, ho⟩ : ∃ c cs, Text.intChars n = c :: cs ∧ c ≠ '[' ∧ c ≠ '\x7b' := by
      cases n with
      | ofNat n =>
        obtain ⟨c, cs, hc, hd⟩ := Text.natChars_cons n
        exact ⟨c, cs, hc, digit_ne hd rfl, digit_ne hd rfl⟩
      | negSucc n => exact ⟨'-', _, rfl, by decide, by decide⟩
    rw [chars_int, hc, List.cons_append, readValue_scalar ha ho, ← List.cons_append, ← hc, hread]
  | str s, depth, fuel + 1, rest, hj, hr, hf => by
    rw [chars_str, List.append_assoc, List.cons_append,
      readValue_scalar (by decide) (by decide), readScalar_quote, List.singleton_append]
    exact congrArg (Option.map _) (readString_chars s rest)
  | array [], depth, fuel + 1, rest, hj, hr, hf => rfl
  | array (item :: items), depth, fuel + 1, rest, hj, hr, hf => by
    simp only [floatless, allFloatless, Bool.and_eq_true] at hj
    rw [chars_array_cons, List.length_cons] at hf
    have hread := readItems_chars depth fuel rest hj.1 hj.2 (by omega)
    obtain ⟨c, cs, hc, hb⟩ := chars_begins (depth + 1) hj.1
    rw [chars_array_cons, List.cons_append, readValue]
    rw [hc, List.cons_append, List.cons_append] at hread ⊢
    rw [skipBlanks_cons hb]
    split
    · next h => exact absurd (List.cons.inj h).1 (begins_ne hb rfl)
    · rw [hread]; rfl
  | object [], depth, fuel + 1, rest, hj, hr, hf => rfl
  | object ((name, v) :: members), depth, fuel + 1, rest, hj, hr, hf => by
    simp only [floatless, membersFloatless, Bool.and_eq_true] at hj
    rw [chars_object_cons, List.length_cons] at hf
    have hread := readMembers_chars name depth fuel rest hj.1 hj.2 (by omega)
    rw [chars_object_cons, List.cons_append, readValue]
    exact congrArg (Option.map _) hread

theorem readItems_chars : ∀ {item : Json} {items : List Json} (depth fuel : Nat)
    (rest : List Char), item.floatless = true → allFloatless items = true →
    (chars (depth + 1) item ++ itemsChars depth items).length < fuel →
    readItems fuel (chars (depth + 1) item ++ itemsChars depth items ++ rest)
      = some (item :: items, rest)
  | item, [], depth, fuel + 1, rest, hi, his, hf => by
    rw [List.length_append] at hf
    have hpos : 0 < (itemsChars depth []).length := Nat.zero_lt_one
    have hitem := readValue_chars (depth + 1) fuel _ hi (ends_itemsChars depth [] rest) (by omega)
    rw [List.append_assoc]
    exact readItems_last hitem
  | item, next :: items, depth, fuel + 1, rest, hi, his, hf => by
    simp only [allFloatless, Bool.and_eq_true] at his
    rw [List.length_append, itemsChars_cons, List.length_cons] at hf
    have hend := ends_itemsChars depth (next :: items) rest
    have hitem := readValue_chars (depth + 1) fuel _ hi hend (by omega)
    have hothers := readItems_chars depth fuel rest his.1 his.2 (by omega)
    rw [itemsChars_cons, List.cons_append] at hitem
    rw [List.append_assoc, itemsChars_cons, List.cons_append, readItems_next hitem, List.append_assoc,
      skipBlanks_chars _ his.1, ← List.append_assoc, hothers]
    rfl

theorem readMembers_chars : ∀ (name : Script) {v : Json} {members : List (Script × Json)}
    (depth fuel : Nat) (rest : List Char), v.floatless = true → membersFloatless members = true →
    (memberChars depth name v ++ membersChars depth members).length < fuel →
    readMembers fuel (memberChars depth name v ++ membersChars depth members ++ rest)
      = some ((name, v) :: members, rest)
  | name, v, [], depth, fuel + 1, rest, hv, hms, hf => by
    rw [memberChars_append, List.length_cons, List.length_append, List.length_cons, List.length_cons,
      List.length_append] at hf
    have hvalue := readValue_chars (depth + 1) fuel _ hv (ends_membersChars depth [] rest) (by omega)
    rw [List.append_assoc, memberChars_append]
    refine readMembers_last (readString_chars name _) ?_
    rw [skipBlanks_chars _ hv]
    exact hvalue
  | name, v, (name', v') :: members, depth, fuel + 1, rest, hv, hms, hf => by
    simp only [membersFloatless, Bool.and_eq_true] at hms
    rw [membersChars_cons] at hf ⊢
    rw [List.length_append, List.length_cons] at hf
    have hothers := readMembers_chars name' depth fuel rest hms.1 hms.2 (by omega)
    have hlen : (chars (depth + 1) v).length ≤ (memberChars depth name v).length := by
      simp [memberChars]; omega
    have hend := ends_membersChars depth ((name', v') :: members) rest
    rw [membersChars_cons, List.cons_append] at hend
    have hvalue := readValue_chars (depth + 1) fuel _ hv hend (by omega)
    rw [List.append_assoc, List.cons_append, memberChars_append,
      readMembers_next (readString_chars name _) (by rw [skipBlanks_chars _ hv]; exact hvalue)]
    rw [List.append_assoc, memberChars_append, skipBlanks_cons rfl, ← memberChars_append,
      ← List.append_assoc, hothers]
    rfl

end

/-- The document written in front of a text and that text are known from both together. -/
theorem chars_inj {j k : Json} {depth depth' : Nat} {rest rest' : List Char}
    (hj : j.floatless = true) (hk : k.floatless = true) (hr : Ends rest) (hr' : Ends rest')
    (h : chars depth j ++ rest = chars depth' k ++ rest') : j = k ∧ rest = rest' := by
  let fuel := (chars depth j).length + (chars depth' k).length + 1
  have hread := readValue_chars depth fuel _ hj hr (by omega)
  rw [h, readValue_chars depth' fuel _ hk hr' (by omega)] at hread
  cases hread
  exact ⟨rfl, rfl⟩

/-- No two documents without floats have one compact text. -/
theorem text_compact_inj {j k : Json} (hj : j.floatless = true) (hk : k.floatless = true)
    (h : j.text .compact = k.text .compact) : j = k := by
  have hends : Ends [] := nofun
  have hchars : chars 1 j = chars 1 k := congrArg Text.spell (Script.ofPoints_inj h)
  exact (chars_inj hj hk hends hends (by rw [hchars])).1

/-- A document without floats is read back from its compact text, and the halves that belong
    together are joined. -/
theorem parse?_render {j : Json} (hj : j.floatless = true) :
    parse? (j.render .compact) = some j.joined := by
  have hends : Ends [] := nofun
  have hread := readValue_chars 1 ((chars 1 j).length + 1) _ hj hends (Nat.lt_succ_self _)
  have hskip := skipBlanks_chars 1 hj []
  rw [List.append_nil] at hread hskip
  have hlist : (j.render .compact).toList = chars 1 j := String.toList_ofList
  rw [parse?, hlist]
  simp only [hskip, hread, Option.bind_eq_bind, Option.bind_some]
  rfl

end Json

end Verdict
