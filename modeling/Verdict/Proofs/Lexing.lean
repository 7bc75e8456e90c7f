/-
  Verdict.Proofs.Lexing — a spelled expression has the tokens of its symbols.

  The lexemes of spaced pieces are the pieces (`lexemes_spaced`). A lexeme is classified
  as the symbol that it spells if the symbol fits where it stands (`classify_spelled`):
  the name of a call where an operand may begin and in front of a parenthesis, a
  connective where none may, a literal or a path not in front of a parenthesis. In a
  written expression every symbol fits (`Written.placed`).
-/

import Verdict.Proofs.Names

namespace Verdict.Expression

/-! ## Lexemes -/

theorem mark_cases {c : Char} (h : isMark c = true) :
    c = '(' ∨ c = ')' ∨ c = ',' ∨ c = '!' ∨ c = '&' ∨ c = '|' ∨ c = '^' := by
  simpa [isMark] using h

theorem isBlank_of_isMark {c : Char} (h : isMark c = true) : Text.isBlank c = false := by
  rcases mark_cases h with rfl | rfl | rfl | rfl | rfl | rfl | rfl <;> decide

theorem takeWhile_word {w cs : List Char} (hw : ∀ c ∈ w, isWordChar c = true)
    (hcs : cs.head?.any isWordChar = false) :
    (w ++ cs).takeWhile isWordChar = w ∧ (w ++ cs).dropWhile isWordChar = cs := by
  rw [List.takeWhile_append_of_pos hw, List.dropWhile_append_of_pos hw]
  cases cs with
  | nil => exact ⟨List.append_nil w, rfl⟩
  | cons c cs =>
    have hc : isWordChar c = false := hcs
    rw [List.takeWhile_cons, List.dropWhile_cons, hc]
    exact ⟨List.append_nil w, rfl⟩

/-- What is cut out of a text as a word is one. -/
theorem isWord_takeWhile {c : Char} (hblank : ¬Text.isBlank c = true) (hmark : ¬isMark c = true) (cs : List Char) :
    IsWord (c :: cs.takeWhile isWordChar) := by
  have hfirst : isWordChar c = true := by simp [isWordChar, hblank, hmark]
  refine ⟨List.cons_ne_nil _ _, ?_⟩
  rw [List.all_cons, hfirst, List.all_takeWhile]
  rfl

theorem lexemes_blank {c : Char} (hc : Text.isBlank c = true) (position : Nat) (cs : List Char) :
    lexemes position (c :: cs) = lexemes (position + 1) cs := by
  rw [lexemes, if_pos hc]

theorem lexemes_mark {c : Char} (hc : isMark c = true) (position : Nat) (cs : List Char) :
    lexemes position (c :: cs) = ⟨[c], position⟩ :: lexemes (position + 1) cs := by
  have hblank : ¬Text.isBlank c = true := by rw [isBlank_of_isMark hc]; exact Bool.false_ne_true
  rw [lexemes, if_neg hblank, if_pos hc]

theorem lexemes_word {w cs : List Char} (hw : IsWord w) (hnext : cs.head?.any isWordChar = false) (position : Nat) :
    lexemes position (w ++ cs) = ⟨w, position⟩ :: lexemes (position + w.length) cs := by
  obtain ⟨hne, hall⟩ := hw
  rw [List.all_eq_true] at hall
  cases w with
  | nil => exact absurd rfl hne
  | cons c w =>
    have hc : isWordChar c = true := hall c List.mem_cons_self
    simp only [isWordChar, Bool.and_eq_true, Bool.not_eq_true'] at hc
    obtain ⟨htake, hdrop⟩ := takeWhile_word (fun d hd => hall d (List.mem_cons_of_mem c hd)) hnext
    rw [List.cons_append, lexemes, if_neg (by simp [hc.1]), if_neg (by simp [hc.2]), htake, hdrop]

theorem lexemes_spaced {pieces : List (List Char)} {cs : List Char} (h : Spaced pieces cs)
    (position : Nat) : (lexemes position cs).map Lexeme.text = pieces := by
  induction h generalizing position with
  | nil => rw [lexemes]; rfl
  | blank hc _ ih => rw [lexemes_blank hc, ih]
  | mark hc _ ih => rw [lexemes_mark hc, List.map_cons, ih]
  | word hw hnext _ ih => rw [lexemes_word hw hnext, List.map_cons, ih]

/-! ## Symbols and their tokens -/

namespace Symbol

def kind : Symbol → TokenKind
  | literal _ | path _ => .operand
  | not | connective _ => .operator
  | callee _ => .function
  | opening => .opening
  | comma => .comma
  | closing => .closing

/-- Whether the text of a token is that of the symbol. -/
def Denotes (symbol : Symbol) (text : String) : Prop :=
  match symbol with
  | literal s => literal? text = some s
  | path word => text = word ∧ literal? text = none ∧ IsWord text.toList
  | not => text = Builtin.not.key
  | connective op | callee op => text = op.key
  | opening | comma | closing => True

def ReadAs (symbol : Symbol) (t : Token) : Prop := t.kind = symbol.kind ∧ symbol.Denotes t.text

/-- Whether the symbol may stand at a place: `begins` if an operand may begin there, and
    `opens` if an open parenthesis follows. -/
def Fits (r : Registry) (begins opens : Bool) (symbol : Symbol) : Prop :=
  match symbol with
  | literal _ => opens = false
  | path word => IsPath r word ∧ opens = false
  | connective op => (∃ precedence, Joins r op precedence) ∧ begins = false
  | callee op => (∃ count, Takes r op count) ∧ begins = true ∧ opens = true
  | not | opening | comma | closing => True

end Symbol

def opensGroup (symbols : List Symbol) : Bool := symbols.head? == some .opening

/-- Whether every symbol fits, after a symbol of kind `previous`. -/
def Placed (r : Registry) (previous : Option TokenKind) : List Symbol → Prop
  | [] => True
  | symbol :: rest =>
    symbol.Fits r (operandMayBegin previous) (opensGroup rest) ∧ Placed r (some symbol.kind) rest

section

variable {r : Registry}

mutual

/-- An expression fits where an operand may begin, in front of whatever fits where none
    may. -/
theorem Written.placed {level : Int} {t : Tree} {symbols : List Symbol}
    (h : Written r level t symbols) {previous : Option TokenKind} {rest : List Symbol}
    (hprevious : operandMayBegin previous = true) (hopens : opensGroup rest = false)
    (hrest : ∀ kind, operandMayBegin (some kind) = false → Placed r (some kind) rest) :
    Placed r previous (symbols ++ rest) := by
  match h with
  | .literal _ s => exact ⟨hopens, hrest _ rfl⟩
  | .path _ hpath => exact ⟨⟨hpath, hopens⟩, hrest _ rfl⟩
  | .group _ hinner =>
    simp only [List.cons_append, List.append_assoc]
    exact ⟨trivial, hinner.placed rfl rfl fun _ _ => ⟨trivial, hrest _ rfl⟩⟩
  | .not _ hinner => exact ⟨trivial, hinner.placed rfl hopens hrest⟩
  | .connect hjoins _ hleft hright =>
    rw [List.append_assoc]
    refine hleft.placed hprevious rfl fun kind hkind => ⟨⟨⟨_, hjoins⟩, hkind⟩, ?_⟩
    exact hright.placed rfl hopens hrest
  | .bare _ htakes => exact ⟨⟨⟨_, htakes⟩, hprevious, rfl⟩, trivial, trivial, hrest _ rfl⟩
  | .call _ htakes hall =>
    simp only [List.cons_append, List.append_assoc]
    refine ⟨⟨⟨_, htakes⟩, hprevious, rfl⟩, trivial, ?_⟩
    exact hall.placed rfl rfl fun _ _ => ⟨trivial, hrest _ rfl⟩

theorem AllWritten.placed {ts : List Tree} {symbols : List Symbol}
    (h : AllWritten r ts symbols) {previous : Option TokenKind} {rest : List Symbol}
    (hprevious : operandMayBegin previous = true) (hopens : opensGroup rest = false)
    (hrest : ∀ kind, operandMayBegin (some kind) = false → Placed r (some kind) rest) :
    Placed r previous (symbols ++ rest) := by
  match h with
  | .one hone => exact hone.placed hprevious hopens hrest
  | .more hone hothers =>
    rw [List.append_assoc]
    refine hone.placed hprevious rfl fun kind hkind => ⟨trivial, ?_⟩
    exact hothers.placed rfl hopens hrest

end

/-! ## Classification -/

theorem isMark_of_isWordChar {c : Char} (h : isWordChar c = true) : isMark c = false := by
  simp only [isWordChar, Bool.and_eq_true, Bool.not_eq_true'] at h
  exact h.2

/-- A word does not consist of a mark. -/
theorem IsWord.not_mark {cs : List Char} (h : IsWord cs) (c : Char) (hc : cs = [c]) :
    isMark c = false :=
  isMark_of_isWordChar (List.all_eq_true.1 h.2 c (hc ▸ List.mem_cons_self))

theorem classify_of_not_mark {l : Lexeme} (h : ∀ c, l.text = [c] → isMark c = false)
    (mayCall : Bool) :
    r.classify l mayCall = r.classifyWord (String.ofList l.text) mayCall := by
  unfold Registry.classify
  split
  · exact absurd (h '(' ‹_›) (by decide)
  · exact absurd (h ')' ‹_›) (by decide)
  · exact absurd (h ',' ‹_›) (by decide)
  · rw [h _ ‹_›]; rfl
  · rfl

theorem classify_sign {l : Lexeme} {c : Char} (hl : l.text = [c]) (hc : c ∈ ['!', '&', '|', '^'])
    (mayCall : Bool) : r.classify l mayCall = (.operator, keyOf (String.ofList l.text)) := by
  obtain ⟨text, position⟩ := l
  have hl : text = [c] := hl
  subst hl
  simp only [List.mem_cons, List.not_mem_nil, or_false] at hc
  rcases hc with rfl | rfl | rfl | rfl <;> rfl

/-- Only the spellings of operators are marks. -/
theorem sign_of_spelling {b : Builtin} {c : Char} (hc : isMark c = true)
    (h : Text.upper (String.ofList [c]) ∈ b.spellings) :
    c ∈ ['!', '&', '|', '^'] ∧ b.isCallable = false := by
  have hall : ∀ b ∈ Builtin.all, Text.upper (String.ofList [c]) ∈ b.spellings →
      c ∈ ['!', '&', '|', '^'] ∧ b.isCallable = false := by
    rcases mark_cases hc with rfl | rfl | rfl | rfl | rfl | rfl | rfl <;> decide
  exact hall b (by cases b <;> decide) h

theorem isCallableKey_key (b : Builtin) : isCallableKey b.key = b.isCallable := by
  cases b <;> decide

/-- An operator of the language that is not called. -/
theorem classify_builtin (hr : r.Intact) {b : Builtin} {l : Lexeme} {mayCall : Bool}
    (h : Text.upper (String.ofList l.text) ∈ b.spellings) (hcall : (mayCall && b.isCallable) = false) :
    r.classify l mayCall = (.operator, b.key) := by
  by_cases hmark : ∃ c, l.text = [c] ∧ isMark c = true
  · obtain ⟨c, hl, hc⟩ := hmark
    rw [classify_sign hl (sign_of_spelling hc (hl ▸ h)).1, keyOf_spelling h]
  · have hword : ∀ c, l.text = [c] → isMark c = false :=
      fun c hl => Bool.eq_false_iff.2 fun hc => hmark ⟨c, hl, hc⟩
    rw [classify_of_not_mark hword, Registry.classifyWord, keyOf_spelling h, isCallableKey_key,
      hr.function?_key, Option.isSome_none, Bool.or_false, hcall, if_neg Bool.false_ne_true,
      hr.builtin, Option.isSome_some, if_pos rfl]

/-- An operator of the language in the form of a call. -/
theorem classify_call {b : Builtin} {l : Lexeme} (h : Text.upper (String.ofList l.text) ∈ b.spellings)
    (hb : b.isCallable = true) : r.classify l true = (.function, b.key) := by
  have hword : ∀ c, l.text = [c] → isMark c = false := by
    intro c hl
    refine Bool.eq_false_iff.2 fun hc => ?_
    rw [(sign_of_spelling hc (hl ▸ h)).2] at hb
    exact Bool.false_ne_true hb
  rw [classify_of_not_mark hword, Registry.classifyWord, keyOf_spelling h, isCallableKey_key, hb]
  rfl

theorem classifyWord_operand {word : String} (h : r.operator? (keyOf word) = none) :
    r.classifyWord word false = (.operand, word) := by
  rw [Registry.classifyWord, h]
  rfl

theorem classifyWord_operator {word key : String} (h : (r.operator? key).isSome) (hkey : keyOf word = key) :
    r.classifyWord word false = (.operator, key) := by
  rw [Registry.classifyWord, hkey, h]
  rfl

/-- A name in the place of a call is called, unless it is that of an operator only. -/
theorem classifyWord_call {word key : String} (hkey : keyOf word = key) (hliteral : literal? word = none)
    (h : (r.function? key).isSome ∨ r.operator? key = none) :
    r.classifyWord word true = (.function, key) := by
  rw [Registry.classifyWord, hkey, hliteral, Bool.true_and]
  by_cases hcall : (isCallableKey key || (r.function? key).isSome) = true
  · rw [if_pos hcall]
  · have hnone : r.operator? key = none := by
      refine h.resolve_left fun hsome => hcall ?_
      rw [hsome, Bool.or_true]
    rw [if_neg hcall, hnone]
    rfl

theorem Operation.not_paren {op : Operation} : ¬op.SpelledBy ['('] := by
  cases op with
  | builtin b => exact fun h => absurd (sign_of_spelling rfl h).1 (by decide)
  | named key => exact fun h => absurd (h.1.not_mark '(' rfl) (by decide)

/-- An open parenthesis spells nothing else. -/
theorem Symbol.eq_opening {symbol : Symbol} (h : symbol.SpelledBy ['(']) : symbol = .opening := by
  cases symbol with
  | literal s => exact absurd (h.1.not_mark '(' rfl) (by decide)
  | path word => exact absurd (h.1.not_mark '(' rfl) (by decide)
  | not => exact absurd (sign_of_spelling rfl h).1 (by decide)
  | connective op => exact absurd h Operation.not_paren
  | callee op => exact absurd h.1 Operation.not_paren
  | opening => rfl
  | comma => exact absurd h (by decide : ¬['('] = [','])
  | closing => exact absurd h (by decide : ¬['('] = [')'])

theorem opensNext_spelled {symbols : List Symbol} {ls : List Lexeme}
    (h : List.Forall₂ (fun symbol l => symbol.SpelledBy l.text) symbols ls) :
    opensNext ls = opensGroup symbols := by
  cases h with
  | nil => rfl
  | @cons symbol l symbols ls hs _ =>
    rw [Bool.eq_iff_iff]
    simp only [opensNext, opensGroup, List.head?_cons, beq_iff_eq, Option.some.injEq]
    refine ⟨fun hl => Symbol.eq_opening (by rw [← hl]; exact hs), fun hs' => ?_⟩
    subst hs'
    exact hs

theorem classify_connective (hr : r.Intact) {op : Operation} {l : Lexeme} {precedence : Int}
    (hs : op.SpelledBy l.text) (hjoins : Joins r op precedence) :
    r.classify l false = (.operator, op.key) := by
  cases op with
  | builtin b => exact classify_builtin hr hs rfl
  | named key =>
    have hkey := keyOf_unreserved (hr.unreserved_of_joins hjoins) hs.2
    obtain ⟨-, handler, hspec⟩ := hjoins
    have hsome : (r.operator? key).isSome := by rw [hspec]; rfl
    rw [classify_of_not_mark hs.1.not_mark]
    exact classifyWord_operator hsome hkey

theorem classify_callee (hr : r.Intact) {op : Operation} {l : Lexeme} {count : Nat}
    (hs : Symbol.SpelledBy (.callee op) l.text) (htakes : Takes r op count) :
    r.classify l true = (.function, op.key) := by
  obtain ⟨hs, hliteral⟩ := hs
  cases op with
  | builtin b =>
    have hall : ∀ b ∈ [Builtin.majority, .consensus], b.isCallable = true := by decide
    refine classify_call hs ?_
    rcases htakes with ⟨rfl, -⟩ | hb
    · rfl
    · exact hall b hb
  | named key =>
    rw [classify_of_not_mark hs.1.not_mark]
    rcases htakes with hfunction | hfree
    · have hkey := keyOf_unreserved (hr.function key hfunction) hs.2
      exact classifyWord_call hkey (literal?_eq_none hliteral) (.inl hfunction)
    · obtain ⟨hkey, hnone⟩ := keyOf_unnamed (hs.2 ▸ hfree)
      rw [hs.2] at hkey hnone
      exact classifyWord_call hkey (literal?_eq_none hliteral) (.inr hnone)

/-- A lexeme is classified as the symbol that it spells, where the symbol fits. -/
theorem classify_spelled (hr : r.Intact) {symbol : Symbol} {l : Lexeme} {begins opens : Bool}
    (hs : symbol.SpelledBy l.text) (hfits : symbol.Fits r begins opens) :
    ∃ text, r.classify l (begins && opens) = (symbol.kind, text) ∧ symbol.Denotes text := by
  cases symbol with
  | literal s =>
    obtain ⟨hword, hs⟩ := hs
    have hopens : opens = false := hfits
    rw [hopens, Bool.and_false, classify_of_not_mark hword.not_mark,
      classifyWord_operand (hr.operator?_literal hs)]
    exact ⟨_, rfl, literal?_eq_some hs⟩
  | path word =>
    obtain ⟨hword, hs⟩ := hs
    obtain ⟨⟨hname, hliteral⟩, hopens⟩ := hfits
    obtain ⟨hkey, hnone⟩ := keyOf_unnamed hname
    subst hs
    rw [hopens, Bool.and_false, classify_of_not_mark hword.not_mark,
      classifyWord_operand (hkey ▸ hnone)]
    exact ⟨_, rfl, rfl, literal?_eq_none hliteral, by rwa [String.toList_ofList]⟩
  | not => exact ⟨_, classify_builtin hr hs (Bool.and_false _), rfl⟩
  | connective op =>
    obtain ⟨⟨precedence, hjoins⟩, hbegins⟩ := hfits
    rw [hbegins, Bool.false_and]
    exact ⟨_, classify_connective hr hs hjoins, rfl⟩
  | callee op =>
    obtain ⟨⟨count, htakes⟩, hbegins, hopens⟩ := hfits
    rw [hbegins, hopens]
    exact ⟨_, classify_callee hr hs htakes, rfl⟩
  | opening => exact ⟨_, by rw [Registry.classify, show l.text = ['('] from hs]; rfl, trivial⟩
  | comma => exact ⟨_, by rw [Registry.classify, show l.text = [','] from hs]; rfl, trivial⟩
  | closing => exact ⟨_, by rw [Registry.classify, show l.text = [')'] from hs]; rfl, trivial⟩

/-! ## Tokens -/

/-- A token is what some lexeme is classified as. -/
theorem mem_tokensAfter {t : Token} {previous : Option TokenKind} {ls : List Lexeme}
    (h : t ∈ r.tokensAfter previous ls) :
    ∃ l ∈ ls, ∃ mayCall, t = ⟨(r.classify l mayCall).1, (r.classify l mayCall).2, l.position, 0⟩ := by
  induction ls generalizing previous with
  | nil => cases h
  | cons l ls ih =>
    rw [Registry.tokensAfter] at h
    rcases List.mem_cons.1 h with rfl | h
    · exact ⟨l, List.mem_cons_self, _, rfl⟩
    · obtain ⟨l', hl', ht⟩ := ih h
      exact ⟨l', List.mem_cons_of_mem l hl', ht⟩

theorem tokensAfter_read (hr : r.Intact) {symbols : List Symbol} {ls : List Lexeme}
    (h : List.Forall₂ (fun symbol l => symbol.SpelledBy l.text) symbols ls)
    {previous : Option TokenKind} (hplaced : Placed r previous symbols) :
    List.Forall₂ Symbol.ReadAs symbols (r.tokensAfter previous ls) := by
  induction h generalizing previous with
  | nil => exact .nil
  | @cons symbol l symbols ls hs hall ih =>
    obtain ⟨hfits, hplaced⟩ := hplaced
    obtain ⟨text, hpart, hdenotes⟩ := classify_spelled hr hs hfits
    rw [Registry.tokensAfter, opensNext_spelled hall, hpart]
    exact .cons ⟨rfl, hdenotes⟩ (ih hplaced)

/-- The tokens of a text are those of the symbols that it spells. -/
theorem tokenize_read (hr : r.Intact) {level : Int} {t : Tree} {symbols : List Symbol}
    {pieces : List (List Char)} {text : String} (hwritten : Written r level t symbols)
    (hspelled : List.Forall₂ Symbol.SpelledBy symbols pieces) (hspaced : Spaced pieces text.toList) :
    List.Forall₂ Symbol.ReadAs symbols (r.tokenize text) := by
  have hplaced : Placed r none (symbols ++ []) :=
    hwritten.placed rfl rfl fun _ _ => trivial
  rw [List.append_nil] at hplaced
  refine tokensAfter_read hr ?_ hplaced
  rw [← lexemes_spaced hspaced 0, List.forall₂_map_right_iff] at hspelled
  exact hspelled

end

end Verdict.Expression
