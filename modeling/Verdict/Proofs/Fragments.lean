/-
  Verdict.Proofs.Fragments — a text that has a state keeps it in parentheses.

  A fragment is any text that has a state and an operand or a call in it, whatever else is
  in it. In parentheses its tokens are code for that state wherever an operand may stand
  (`Fragment.group`), and so may be put together as expressions are: behind `NOT`, on both
  sides of an operator, and as the arguments of a call (`Registry.fragments_compose`).
-/

import Verdict.Proofs.Arrangement
import Verdict.Proofs.Frames

namespace Verdict.Expression

open Registry (standard)

/-- A text with a state in which an operand or a call stands. -/
structure Fragment (r : Registry) (context : Value) (text : String) (s : State) : Prop where
  state : (r.evaluate text context).result = .ok s
  named : ∃ t ∈ r.tokenize text, t.kind = .operand ∨ t.kind = .function

section

variable {r : Registry} {context : Value} {text expression : String} {s : State}

/-! ## In parentheses -/

/-- The conversion of a text leaves nothing open, and only operators waiting. -/
theorem Reached.closed {tokens : List Token} {yard : Yard} (h : Reached r tokens yard)
    (hclosed : ∀ t ∈ yard.waiting, (t.isOpening || t.isFunction) = false) :
    yard.counts = [] ∧ ∀ t ∈ yard.waiting, t.kind = .operator := by
  obtain ⟨output, above, levels, rfl, hwithin⟩ := h
  cases levels with
  | nil =>
    refine ⟨rfl, fun t ht => (hwithin.operators t ?_).1⟩
    simpa [Yard.at] using ht
  | cons l outer =>
    have hopen := hclosed l.opening (by simp [Yard.at, Level.waiting])
    rw [Token.isOpening, (hwithin.sound l List.mem_cons_self).opening] at hopen
    cases hopen

/-- What a fragment is converted to leaves one term, which resolves to its state. -/
theorem Fragment.run (h : Fragment r context text s) :
    ∃ code term, r.toPostfix (r.tokenize text) = .ok code ∧ Term.resolve context term = .ok s ∧
      code.foldlM (fun stack t => (r.step text context stack t).result) [] = .ok [term] := by
  obtain ⟨hstate, t, ht, hkind⟩ := h
  rw [Registry.evaluate] at hstate
  obtain ⟨code, hcode, hstate⟩ := Outcome.result_bind_eq_ok.1 hstate
  obtain ⟨stack, hrun, hconclude⟩ := Outcome.result_bind_eq_ok.1 hstate
  have hcode : r.toPostfix (r.tokenize text) = .ok code := hcode
  have hconclude : conclude text context stack = .ok s := hconclude
  rw [Outcome.result_foldlM] at hrun
  -- the operand or call is an instruction, so there is something to run
  have hinstruction : t.isInstruction = true := isInstruction_kind (hkind.imp_right .inr)
  have hne : code ≠ [] := by
    rintro rfl
    have hkept := (toPostfix_keeps hcode).kept
    have hmem : t.uncounted ∈ instructions (r.tokenize text) :=
      List.mem_map_of_mem (List.mem_filter.2 ⟨ht, hinstruction⟩)
    exact absurd (hkept.mem_iff.2 hmem) List.not_mem_nil
  rcases stack with _ | ⟨term, _ | ⟨_, _⟩⟩
  · exact absurd rfl (run_ne_nil hrun (.inr hne))
  · exact ⟨code, term, hcode, hconclude, hrun⟩
  · cases hconclude

/-- In parentheses the tokens of a fragment are code for its state, wherever they stand. -/
theorem Fragment.group (hr : r.Registered) (h : Fragment r context text s) {opening closing : Token}
    (hopening : opening.kind = .opening) (hclosing : closing.kind = .closing) (n : Nat) (level : Int) :
    Converted r expression context level [s] (opening :: (r.tokenize text).map (Token.moved n) ++ [closing]) := by
  intro output waiting counts previous hprevious hbelow
  obtain ⟨code, term, hcode, hterm, hrun⟩ := h.run
  obtain ⟨yard, htake, hclosed, rfl⟩ := toPostfix_eq_ok.1 hcode
  have hreached : Reached r (r.tokenize text) yard := by
    have hends := (legible_tokenize hr text).reached (reached_empty r)
    rw [htake] at hends
    exact hends
  obtain ⟨hcounts, hoperators⟩ := hreached.closed hclosed
  have hbase : ∀ u ∈ (opening :: waiting).head?, u.kind = .opening := by
    rintro u ⟨⟩
    exact hopening
  obtain ⟨last, hinner⟩ := Yard.foldlM_framed htake hbase (.inr ⟨rfl, rfl, rfl⟩) n output counts
  have hstart : Yard.empty.framed n output (opening :: waiting) counts (some .opening) =
      ⟨output, opening :: waiting, counts, some .opening⟩ := by
    simp [Yard.framed, Yard.empty]
  have hmoved : ∀ u ∈ yard.waiting.map (Token.moved n), u.kind = .operator := by
    intro u hu
    obtain ⟨v, hv, rfl⟩ := List.mem_map.1 hu
    exact hoperators v hv
  refine ⟨(yard.output ++ yard.waiting).map (Token.moved n), [], .closing, ?_, rfl, List.forall_mem_nil _, [term], ?_,
    fun stack => ?_⟩
  · rw [hstart] at hinner
    rw [List.cons_append, List.foldlM_cons, Yard.take_opening hopening hprevious, ok_bind, List.foldlM_append, hinner,
      ok_bind, List.foldlM_cons, Yard.framed, hcounts,
      Yard.take_closing hclosing hmoved hopening fun u hu => (hbelow u hu).1, List.map_append, List.append_assoc]
    rfl
  · rw [Term.resolveAll, hterm]
    rfl
  · rw [List.append_nil]
    exact run_framed hrun expression n stack

/-- A text in parentheses, and what is behind it. -/
theorem Fragment.tokens (hr : r.Registered) (h : Fragment r context text s) (previous : Option TokenKind)
    (position : Nat) (rest : List Char) :
    ∃ ts position', r.tokensAfter previous (lexemes position ('(' :: (text.toList ++ ')' :: rest))) =
        ts ++ r.tokensAfter (some .closing) (lexemes position' rest) ∧
      ∀ expression level, Converted r expression context level [s] ts := by
  let opening : Token := ⟨.opening, "(", position, 0⟩
  let closing : Token := ⟨.closing, ")", position + 1 + text.toList.length, 0⟩
  refine ⟨opening :: (r.tokenize text).map (Token.moved (position + 1)) ++ [closing],
    position + 1 + text.toList.length + 1, ?_, fun expression level => h.group hr rfl rfl (position + 1) level⟩
  rw [tokensAfter_group, List.append_assoc]
  rfl

/-- A text whose tokens are code for a state has that state. -/
theorem evaluate_converted {level : Int} (h : Converted r text context level [s] (r.tokenize text)) :
    (r.evaluate text context).result = .ok s := by
  obtain ⟨code, hcode, terms, hterms, hrun⟩ := toPostfix_yields h
  rw [Registry.evaluate]
  simp only [Outcome.result_bind, Outcome.result_lift, hcode, ok_bind, Outcome.result_foldlM, hrun, List.append_nil]
  exact conclude_yields hterms

/-! ## What stands between fragments -/

theorem isBlank_space : Text.isBlank ' ' = true := by decide

/-- An operator between two operands. -/
theorem tokens_connective (hr : r.Intact) (b : Builtin) (position : Nat) (rest : List Char) :
    ∃ t position', r.tokensAfter (some .closing) (lexemes position (' ' :: (b.key.toList ++ ' ' :: rest))) =
        t :: r.tokensAfter (some .operator) (lexemes position' rest) ∧
      t.kind = .operator ∧ t.text = b.key := by
  have hword : IsWord b.key.toList := by cases b <;> decide
  have hupper : Text.upper (String.ofList b.key.toList) ∈ b.spellings := by cases b <;> decide
  have hstop : (' ' :: rest).head?.any isWordChar = false := rfl
  have hpart : ∀ opens, r.classify ⟨b.key.toList, position + 1⟩ (operandMayBegin (some .closing) && opens) =
      (.operator, b.key) := fun opens => classify_builtin hr hupper (Bool.and_eq_false_imp.2 nofun)
  refine ⟨⟨.operator, b.key, position + 1, 0⟩, position + 1 + b.key.toList.length + 1, ?_, rfl, rfl⟩
  rw [lexemes_blank isBlank_space, lexemes_word hword hstop, lexemes_blank isBlank_space, Registry.tokensAfter]
  simp only [hpart]

/-- `NOT` in front of a parenthesis is no call. -/
theorem tokens_negation (hr : r.Intact) (previous : Option TokenKind) (position : Nat) (rest : List Char) :
    ∃ t position', r.tokensAfter previous (lexemes position (Builtin.not.key.toList ++ ' ' :: rest)) =
        t :: r.tokensAfter (some .operator) (lexemes position' rest) ∧
      t.kind = .operator ∧ t.text = Builtin.not.key := by
  have hword : IsWord Builtin.not.key.toList := by decide
  have hupper : Text.upper (String.ofList Builtin.not.key.toList) ∈ Builtin.not.spellings := by decide
  have hstop : (' ' :: rest).head?.any isWordChar = false := rfl
  have hpart : ∀ mayCall, r.classify ⟨Builtin.not.key.toList, position⟩ mayCall = (.operator, Builtin.not.key) :=
    fun mayCall => classify_builtin hr hupper (Bool.and_false mayCall)
  refine ⟨⟨.operator, Builtin.not.key, position, 0⟩, position + Builtin.not.key.toList.length + 1, ?_, rfl, rfl⟩
  rw [lexemes_word hword hstop, lexemes_blank isBlank_space, Registry.tokensAfter]
  simp only [hpart]

/-- The name of a conditional and its parenthesis. -/
theorem tokens_conditional (rest : List Char) :
    ∃ t opening position, r.tokensAfter none (lexemes 0 (Builtin.conditional.key.toList ++ '(' :: rest)) =
        t :: opening :: r.tokensAfter (some .opening) (lexemes position rest) ∧
      t.kind = .function ∧ t.text = Builtin.conditional.key ∧ opening.kind = .opening := by
  have hword : IsWord Builtin.conditional.key.toList := by decide
  have hupper : Text.upper (String.ofList Builtin.conditional.key.toList) ∈ Builtin.conditional.spellings := by decide
  have hstop : ('(' :: rest).head?.any isWordChar = false := rfl
  have hpart : r.classify ⟨Builtin.conditional.key.toList, 0⟩ true = (.function, Builtin.conditional.key) :=
    classify_call hupper rfl
  refine ⟨⟨.function, Builtin.conditional.key, 0, 0⟩, ⟨.opening, "(", 2, 0⟩, 3, ?_, rfl, rfl, rfl⟩
  rw [lexemes_word hword hstop, lexemes_mark rfl, Registry.tokensAfter]
  have hcall : ∀ position ls, (operandMayBegin none && opensNext (⟨['('], position⟩ :: ls)) = true := fun _ _ => rfl
  simp only [hcall, hpart]
  rfl

theorem tokens_comma (previous : Option TokenKind) (position : Nat) (rest : List Char) :
    r.tokensAfter previous (lexemes position (',' :: rest)) =
      ⟨.comma, ",", position, 0⟩ :: r.tokensAfter (some .comma) (lexemes (position + 1) rest) := by
  rw [lexemes_mark rfl]
  rfl

theorem tokens_closing (previous : Option TokenKind) (position : Nat) (rest : List Char) :
    r.tokensAfter previous (lexemes position (')' :: rest)) =
      ⟨.closing, ")", position, 0⟩ :: r.tokensAfter (some .closing) (lexemes (position + 1) rest) := by
  rw [lexemes_mark rfl]
  rfl

theorem tokensAfter_end (previous : Option TokenKind) (position : Nat) :
    r.tokensAfter previous (lexemes position []) = [] := by
  rw [lexemes]
  rfl

end

/-! ## Compositions -/

theorem standard_reliable : standard.Reliable := by
  refine ⟨fun spec hspec handler hhandler => ?_, List.forall_mem_nil _⟩
  obtain ⟨b, -, rfl⟩ := List.mem_map.1 hspec
  cases hhandler

section

variable {context : Value} {e f g : String} {s t u : State}

theorem joins_connective {b : Builtin} (hb : b ∈ Builtin.connectives) : Joins standard (.builtin b) b.precedence := by
  have hall : ∀ b ∈ Builtin.connectives,
      b = .and ∧ b.precedence = 2 ∨ b ∈ [Builtin.or, .xor, .majority, .consensus] ∧ b.precedence = 1 := by decide
  exact hall b hb

theorem evaluate_group (he : Fragment standard context e s) :
    (standard.evaluate ("(" ++ e ++ ")") context).result = .ok s := by
  have hchars : ("(" ++ e ++ ")").toList = '(' :: (e.toList ++ ')' :: []) := by
    simp only [String.toList_append]
    rfl
  obtain ⟨ts, position, htokens, hconverted⟩ := he.tokens .standard none 0 []
  have hall : standard.tokenize ("(" ++ e ++ ")") = ts := by
    rw [Registry.tokenize, hchars, htokens, tokensAfter_end, List.append_nil]
  exact evaluate_converted (hall ▸ hconverted _ 0)

theorem evaluate_not (he : Fragment standard context e s) :
    (standard.evaluate ("NOT (" ++ e ++ ")") context).result = .ok s.invert := by
  have hchars : ("NOT (" ++ e ++ ")").toList = Builtin.not.key.toList ++ ' ' :: '(' :: (e.toList ++ ')' :: []) := by
    simp only [String.toList_append]
    rfl
  obtain ⟨t, start, hnot, ht, htext⟩ := tokens_negation Registry.standard_intact none 0 ('(' :: (e.toList ++ ')' :: []))
  obtain ⟨ts, position, htokens, hconverted⟩ := he.tokens .standard (some .operator) start []
  have hall : standard.tokenize ("NOT (" ++ e ++ ")") = t :: ts := by
    rw [Registry.tokenize, hchars, hnot, htokens, tokensAfter_end, List.append_nil]
  have hnegated : Converted standard ("NOT (" ++ e ++ ")") context 4 [s.invert] (t :: ts) :=
    .not Registry.standard_intact (hconverted _ 4) ht htext
  exact evaluate_converted (hall ▸ hnegated)

theorem evaluate_connective (he : Fragment standard context e s) (hf : Fragment standard context f t) {b : Builtin}
    (hb : b ∈ Builtin.connectives) :
    (standard.evaluate ("(" ++ e ++ ") " ++ b.key ++ " (" ++ f ++ ")") context).result = .ok (b.value [s, t]) := by
  let rights := '(' :: (f.toList ++ ')' :: [])
  have hchars : ("(" ++ e ++ ") " ++ b.key ++ " (" ++ f ++ ")").toList =
      '(' :: (e.toList ++ ')' :: ' ' :: (b.key.toList ++ ' ' :: rights)) := by
    simp only [String.toList_append, List.append_assoc]
    rfl
  obtain ⟨ts, start, hlefts, hleft⟩ := he.tokens .standard none 0 (' ' :: (b.key.toList ++ ' ' :: rights))
  obtain ⟨op, next, hop, hkind, htext⟩ := tokens_connective Registry.standard_intact b start rights
  obtain ⟨us, position, hrights, hright⟩ := hf.tokens .standard (some .operator) next []
  have hall : standard.tokenize ("(" ++ e ++ ") " ++ b.key ++ " (" ++ f ++ ")") = ts ++ op :: us := by
    rw [Registry.tokenize, hchars, hlefts, hop, hrights, tokensAfter_end, List.append_nil]
  have hjoined : Converted standard ("(" ++ e ++ ") " ++ b.key ++ " (" ++ f ++ ")") context b.precedence
      [b.value [s, t]] (ts ++ op :: us) :=
    .connect Registry.standard_intact standard_reliable (joins_connective hb) (Int.le_refl _) (hleft _ _) (hright _ _)
      hkind htext
  exact evaluate_converted (hall ▸ hjoined)

theorem evaluate_conditional (he : Fragment standard context e s) (hf : Fragment standard context f t)
    (hg : Fragment standard context g u) :
    (standard.evaluate ("IF((" ++ e ++ "),(" ++ f ++ "),(" ++ g ++ "))") context).result =
      .ok (Builtin.conditional.value [s, t, u]) := by
  let text := "IF((" ++ e ++ "),(" ++ f ++ "),(" ++ g ++ "))"
  let thirds := '(' :: (g.toList ++ ')' :: ')' :: [])
  let seconds := '(' :: (f.toList ++ ')' :: ',' :: thirds)
  let firsts := '(' :: (e.toList ++ ')' :: ',' :: seconds)
  have hchars : text.toList = Builtin.conditional.key.toList ++ '(' :: firsts := by
    simp only [text, String.toList_append, List.append_assoc]
    rfl
  obtain ⟨name, opening, start, hname, hkind, htext, hopening⟩ := tokens_conditional (r := standard) firsts
  obtain ⟨ts, next, hts, hfirst⟩ := he.tokens .standard (some .opening) start (',' :: seconds)
  obtain ⟨us, next', hus, hsecond⟩ := hf.tokens .standard (some .comma) (next + 1) (',' :: thirds)
  obtain ⟨vs, last, hvs, hthird⟩ := hg.tokens .standard (some .comma) (next' + 1) [')']
  let comma : Token := ⟨.comma, ",", next, 0⟩
  let comma' : Token := ⟨.comma, ",", next', 0⟩
  let closing : Token := ⟨.closing, ")", last, 0⟩
  have hall : standard.tokenize text = name :: opening :: (ts ++ comma :: (us ++ comma' :: vs)) ++ [closing] := by
    rw [Registry.tokenize, hchars, hname, hts, tokens_comma, hus, tokens_comma, hvs, tokens_closing, tokensAfter_end]
    simp only [List.cons_append, List.append_assoc]
    rfl
  have harguments : ListConverted standard text context [s, t, u] (ts ++ comma :: (us ++ comma' :: vs)) :=
    .more (List.cons_ne_nil _ _) (hfirst text 0)
      (.more (List.cons_ne_nil _ _) (hsecond text 0) (.one (hthird text 0)) rfl) rfl
  have htakes : Takes standard (.builtin .conditional) [s, t, u].length := .inl ⟨rfl, rfl⟩
  have hcalled : Converted standard text context 0 [Builtin.conditional.value [s, t, u]]
      (name :: opening :: (ts ++ comma :: (us ++ comma' :: vs)) ++ [closing]) :=
    .call Registry.standard_intact standard_reliable htakes (List.cons_ne_nil _ _) harguments hkind htext hopening rfl
  exact evaluate_converted (hall ▸ hcalled)

/-- Whatever texts have a state and an operand or a call in them, in parentheses they are
    joined, inverted, left as they are and chosen from by their states. -/
theorem Registry.fragments_compose (he : Fragment standard context e s) (hf : Fragment standard context f t)
    (hg : Fragment standard context g u) :
    (∀ b ∈ Builtin.connectives,
      (standard.evaluate ("(" ++ e ++ ") " ++ b.key ++ " (" ++ f ++ ")") context).result = .ok (b.value [s, t])) ∧
    (standard.evaluate ("NOT (" ++ e ++ ")") context).result = .ok s.invert ∧
    (standard.evaluate ("(" ++ e ++ ")") context).result = .ok s ∧
    (standard.evaluate ("IF((" ++ e ++ "),(" ++ f ++ "),(" ++ g ++ "))") context).result =
      .ok (match s with
        | .yes => t
        | .no => u
        | .unknown => Builtin.consensus.value [t, u]) := by
  refine ⟨fun b hb => evaluate_connective he hf hb, evaluate_not he, evaluate_group he, ?_⟩
  rw [evaluate_conditional he hf hg]
  cases s <;> cases t <;> cases u <;> rfl

end

/-- An operator behind both operands, a call of a name that nobody registered, and a sign:
    what each leaves on the stacks stays in its parentheses. -/
theorem Registry.fragments_compose_odd :
    let context : Value := .map [(.str "a", .bool true), (.str "b", .bool false)]
    (Fragment standard context "a b OR" .yes ∧ Fragment standard context "nobody(a,b)" .unknown ∧
      Fragment standard context "!a" .no) ∧
    (standard.evaluate "(a b OR) XOR (nobody(a,b))" context).result = .ok .yes ∧
      (standard.evaluate "IF((a b OR),(nobody(a,b)),(!a))" context).result = .ok .unknown := by
  intro context
  have hbehind : lexemes 0 "a b OR".toList = [⟨['a'], 0⟩, ⟨['b'], 2⟩, ⟨['O', 'R'], 4⟩] := by
    rw [show "a b OR".toList = ['a', ' ', 'b', ' ', 'O', 'R'] by decide]
    simp +decide [lexemes]
  have hcall : lexemes 0 "nobody(a,b)".toList = [⟨['n', 'o', 'b', 'o', 'd', 'y'], 0⟩, ⟨['('], 6⟩, ⟨['a'], 7⟩,
      ⟨[','], 8⟩, ⟨['b'], 9⟩, ⟨[')'], 10⟩] := by
    rw [show "nobody(a,b)".toList = ['n', 'o', 'b', 'o', 'd', 'y', '(', 'a', ',', 'b', ')'] by decide]
    simp +decide [lexemes]
  have hsign : lexemes 0 "!a".toList = [⟨['!'], 0⟩, ⟨['a'], 1⟩] := by
    rw [show "!a".toList = ['!', 'a'] by decide]
    simp +decide [lexemes]
  have he : Fragment standard context "a b OR" .yes := by
    refine ⟨by rw [Registry.evaluate, Registry.tokenize, hbehind]; rfl, ⟨.operand, "a", 0, 0⟩, ?_, .inl rfl⟩
    rw [Registry.tokenize, hbehind]
    decide
  have hf : Fragment standard context "nobody(a,b)" .unknown := by
    refine ⟨by rw [Registry.evaluate, Registry.tokenize, hcall]; rfl, ⟨.operand, "a", 7, 0⟩, ?_, .inl rfl⟩
    rw [Registry.tokenize, hcall]
    decide
  have hg : Fragment standard context "!a" .no := by
    refine ⟨by rw [Registry.evaluate, Registry.tokenize, hsign]; rfl, ⟨.operand, "a", 1, 0⟩, ?_, .inl rfl⟩
    rw [Registry.tokenize, hsign]
    decide
  obtain ⟨hjoin, -, -, hchoose⟩ := Registry.fragments_compose he hf hg
  exact ⟨⟨he, hf, hg⟩, hjoin .xor (by decide), hchoose⟩

end Verdict.Expression
