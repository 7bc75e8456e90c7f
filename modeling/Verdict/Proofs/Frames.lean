/-
  Verdict.Proofs.Frames — what stands around a text in parentheses does not matter to it.

  The lexemes of a text within another are its own, further on (`lexemes_append`,
  `lexemes_moved`), and so are the tokens if the text stands between parentheses
  (`tokensAfter_closed`). Their conversion is its own too, on top of what waits under the
  open parenthesis (`Yard.Moves.framed`), and so is the run of what it gives, on top of
  what is on the stack (`Registry.step_framed`).
-/

import Verdict.Proofs.Moves

namespace Verdict.Expression

/-! ## Places -/

def Lexeme.moved (n : Nat) (l : Lexeme) : Lexeme := { l with position := l.position + n }

def Token.moved (n : Nat) (t : Token) : Token := { t with position := t.position + n }

section

variable {ds : List Char} {r : Registry} {previous previous' : Option TokenKind}

theorem lexemes_moved (n position : Nat) (cs : List Char) :
    lexemes (position + n) cs = (lexemes position cs).map (Lexeme.moved n) := by
  fun_induction lexemes position cs with
  | case1 => rw [lexemes]; rfl
  | case2 position c cs hblank ih => rw [lexemes, if_pos hblank, ← ih, Nat.add_right_comm]
  | case3 position c cs hblank hmark ih =>
    rw [lexemes, if_neg hblank, if_pos hmark, Nat.add_right_comm, ih]
    rfl
  | case4 position c cs hblank hmark word ih =>
    rw [lexemes, if_neg hblank, if_neg hmark, List.map_cons, ← ih, Nat.add_right_comm]
    rfl

/-- The lexemes of a text end where no word can go on. -/
theorem lexemes_append (hnext : ds.head?.any isWordChar = false) (position : Nat) (cs : List Char) :
    lexemes position (cs ++ ds) = lexemes position cs ++ lexemes (position + cs.length) ds := by
  fun_induction lexemes position cs with
  | case1 => rfl
  | case2 position c cs hblank ih =>
    rw [List.cons_append, lexemes, if_pos hblank, ih, List.length_cons, Nat.add_assoc, Nat.add_comm 1]
  | case3 position c cs hblank hmark ih =>
    rw [List.cons_append, lexemes, if_neg hblank, if_pos hmark, ih, List.length_cons, Nat.add_assoc, Nat.add_comm 1]
    rfl
  | case4 position c cs hblank hmark word ih =>
    have hsplit := List.takeWhile_append_dropWhile (p := isWordChar) (l := cs)
    have hstop : ((cs.dropWhile isWordChar) ++ ds).head?.any isWordChar = false := by
      cases hdrop : cs.dropWhile isWordChar with
      | nil => exact hnext
      | cons d rest =>
        have hfirst := List.head?_dropWhile_not isWordChar cs
        rw [hdrop] at hfirst
        simpa using hfirst
    have hword : ∀ d ∈ cs.takeWhile isWordChar, isWordChar d = true := fun d hd =>
      List.all_eq_true.1 List.all_takeWhile d hd
    obtain ⟨htake, hdrop⟩ := takeWhile_word hword hstop
    rw [← List.append_assoc, hsplit] at htake hdrop
    have hlength : position + word.length + (cs.dropWhile isWordChar).length = position + (c :: cs).length := by
      have := congrArg List.length hsplit
      rw [List.length_append] at this
      simp only [word, List.length_cons]
      omega
    rw [List.cons_append, lexemes, if_neg hblank, if_neg hmark, htake, hdrop]
    simp only [word] at ih hlength ⊢
    rw [ih, hlength]
    rfl

/-! ## Tokens -/

theorem opensNext_moved (n : Nat) (ls : List Lexeme) : opensNext (ls.map (Lexeme.moved n)) = opensNext ls := by
  cases ls <;> rfl

theorem tokensAfter_moved (n : Nat) (previous : Option TokenKind) (ls : List Lexeme) :
    r.tokensAfter previous (ls.map (Lexeme.moved n)) = (r.tokensAfter previous ls).map (Token.moved n) := by
  induction ls generalizing previous with
  | nil => rfl
  | cons l ls ih =>
    rw [List.map_cons, Registry.tokensAfter, Registry.tokensAfter, opensNext_moved, List.map_cons]
    simp only [ih]
    rfl

/-- What stands in front matters only for whether an operand may begin. -/
theorem tokensAfter_congr (h : operandMayBegin previous = operandMayBegin previous') (ls : List Lexeme) :
    r.tokensAfter previous ls = r.tokensAfter previous' ls := by
  cases ls with
  | nil => rfl
  | cons l ls => rw [Registry.tokensAfter, Registry.tokensAfter, h]

/-- A closing parenthesis separates what is in front of it from what is behind. -/
theorem tokensAfter_closed (previous : Option TokenKind) (ls rest : List Lexeme) (position : Nat) :
    r.tokensAfter previous (ls ++ ⟨[')'], position⟩ :: rest) =
      r.tokensAfter previous ls ++ ⟨.closing, ")", position, 0⟩ :: r.tokensAfter (some .closing) rest := by
  induction ls generalizing previous with
  | nil => rfl
  | cons l ls ih =>
    have hopens : opensNext (ls ++ ⟨[')'], position⟩ :: rest) = opensNext ls := by
      cases ls with
      | nil => rfl
      | cons next ls => rfl
    rw [List.cons_append, Registry.tokensAfter, Registry.tokensAfter, hopens]
    simp only [ih]
    rfl

/-- A text in parentheses has its own tokens between them. -/
theorem tokensAfter_group (previous : Option TokenKind) (position : Nat) (text : String) (rest : List Char) :
    r.tokensAfter previous (lexemes position ('(' :: (text.toList ++ ')' :: rest))) =
      ⟨.opening, "(", position, 0⟩ :: (r.tokenize text).map (Token.moved (position + 1)) ++
        ⟨.closing, ")", position + 1 + text.toList.length, 0⟩ ::
          r.tokensAfter (some .closing) (lexemes (position + 1 + text.toList.length + 1) rest) := by
  have hinner : lexemes (position + 1) text.toList = (lexemes 0 text.toList).map (Lexeme.moved (position + 1)) := by
    rw [← lexemes_moved, Nat.zero_add]
  rw [lexemes_mark rfl, lexemes_append rfl, lexemes_mark rfl, hinner, Registry.tokensAfter]
  have hopening : ∀ mayCall, r.classify ⟨['('], position⟩ mayCall = (.opening, "(") := fun _ => rfl
  simp only [hopening]
  have hbegins : operandMayBegin (some .opening) = operandMayBegin none := rfl
  have hstart : r.tokensAfter (some .opening) (lexemes 0 text.toList) = r.tokenize text := tokensAfter_congr hbegins _
  rw [tokensAfter_closed, tokensAfter_moved, hstart]
  rfl

end

/-! ## Conversion -/

namespace Yard

/-- The conversion further on, on top of what was put out and waits before it. -/
def framed (n : Nat) (output base : List Token) (counts : List Nat) (previous : Option TokenKind) (yard : Yard) :
    Yard :=
  ⟨output ++ yard.output.map (Token.moved n), yard.waiting.map (Token.moved n) ++ base, yard.counts ++ counts, previous⟩

/-- Whether a conversion may go on behind a token of this kind as it does by itself: it
    does not matter that it begins behind an open parenthesis. -/
def Follows (previous : Option TokenKind) (yard : Yard) : Prop :=
  previous = yard.previous ∨ previous = some .opening ∧ yard.previous = none ∧ yard.waiting = []

variable {r : Registry} {n : Nat} {base : List Token} {previous : Option TokenKind} {before after : Yard} {t : Token}

theorem yielding_framed (hbase : ∀ u ∈ base.head?, u.kind = .opening) {precedence : Int}
    {waiting released left : List Token} (h : yielding r precedence waiting = .ok (released, left)) :
    yielding r precedence (waiting.map (Token.moved n) ++ base) =
      .ok (released.map (Token.moved n), left.map (Token.moved n) ++ base) := by
  induction waiting generalizing released with
  | nil =>
    cases h
    cases base with
    | nil => rfl
    | cons u base =>
      have hoperator : ¬u.isOperator = true := by rw [Token.isOperator, hbase u rfl]; decide
      rw [List.map_nil, List.nil_append, yielding, if_neg hoperator]
  | cons t waiting ih =>
    rw [yielding] at h
    rw [List.map_cons, List.cons_append, yielding]
    by_cases hoperator : t.isOperator = true
    · have hmoved : (t.moved n).isOperator = true := hoperator
      rw [if_pos hoperator] at h
      obtain ⟨spec, hspec, h⟩ := bind_eq_ok.1 h
      have hsame : r.operator (t.moved n).text = .ok spec := hspec
      rw [if_pos hmoved, hsame, ok_bind]
      by_cases hlt : spec.precedence < precedence
      · rw [if_pos hlt] at h ⊢
        cases h
        rfl
      · rw [if_neg hlt] at h ⊢
        obtain ⟨parts, hparts, h⟩ := bind_eq_ok.1 h
        cases h
        rw [ih hparts]
        rfl
    · have hmoved : ¬(t.moved n).isOperator = true := hoperator
      rw [if_neg hoperator] at h
      cases h
      rw [if_neg hmoved]
      rfl

/-- A token never looks below an open parenthesis under which the conversion began. -/
theorem Moves.framed (h : Moves r t before after) (hbase : ∀ u ∈ base.head?, u.kind = .opening)
    (hprevious : Follows previous before) (output : List Token) (counts : List Nat) :
    Moves r (t.moved n) (before.framed n output base counts previous)
      (after.framed n output base counts after.previous) := by
  have hmoved : ∀ {above : List Token}, (∀ u ∈ above, u.isOpening = false) →
      ∀ u ∈ above.map (Token.moved n), u.isOpening = false := by
    intro above habove u hu
    obtain ⟨v, hv, rfl⟩ := List.mem_map.1 hu
    exact habove v hv
  cases h with
  | operand ht =>
    simp only [Yard.framed, List.map_append, ← List.append_assoc]
    exact .operand ht
  | function ht => exact .function ht
  | unary ht hspec harity => exact .unary ht hspec harity
  | releasing ht hspec harity hyielding =>
    simp only [Yard.framed, List.map_append, ← List.append_assoc]
    exact .releasing ht hspec harity (yielding_framed hbase hyielding)
  | @opening _ _ counts' previous' ht =>
    have hcall : previous = some .function ↔ previous' = some .function := by
      rcases hprevious with rfl | ⟨rfl, hnone, -⟩
      · rfl
      · rw [show previous' = none from hnone]
        simp
    have hcounts : (if previous' = some .function then 1 :: counts' else counts') ++ counts =
        if previous = some .function then 1 :: (counts' ++ counts) else counts' ++ counts := by
      simp only [hcall]
      split <;> rfl
    simp only [Yard.framed, hcounts]
    exact .opening ht
  | comma ht habove hopening hcall =>
    simp only [Yard.framed, List.map_append, List.map_cons, List.append_assoc, List.cons_append]
    rw [← List.append_assoc]
    exact .comma ht (hmoved habove) hopening hcall
  | @closing _ _ left _ _ _ ht habove hopening hleft =>
    simp only [Yard.framed, List.map_append, List.map_cons, List.append_assoc, List.cons_append]
    rw [← List.append_assoc]
    refine .closing ht (hmoved habove) hopening fun u hu => ?_
    cases left with
    | nil => rw [Token.isFunction, hbase u hu]; rfl
    | cons v left => cases hu; exact hleft v rfl
  | @closingCall _ above _ opening _ _ _ previous' ht habove hopening hcall =>
    have hsame : previous = previous' := by
      rcases hprevious with h | ⟨-, -, hnone⟩
      · exact h
      · exact absurd hnone (by simp)
    simp only [Yard.framed, List.map_append, List.map_cons, List.append_assoc, List.cons_append, hsame]
    rw [← List.append_assoc, ← List.append_assoc]
    exact .closingCall ht (hmoved habove) hopening hcall

theorem foldlM_framed {ts : List Token} (hrun : ts.foldlM (take r) before = .ok after)
    (hbase : ∀ u ∈ base.head?, u.kind = .opening) (hprevious : Follows previous before) (n : Nat)
    (output : List Token) (counts : List Nat) :
    ∃ last, (ts.map (Token.moved n)).foldlM (take r) (before.framed n output base counts previous) =
      .ok (after.framed n output base counts last) := by
  induction ts generalizing before previous with
  | nil =>
    cases hrun
    exact ⟨previous, rfl⟩
  | cons t ts ih =>
    rw [List.foldlM_cons, bind_eq_ok] at hrun
    obtain ⟨next, htake, hrun⟩ := hrun
    have hmoves := (take_eq_ok.1 htake).framed hbase hprevious (n := n) output counts
    obtain ⟨last, hrest⟩ := ih hrun (.inl rfl)
    refine ⟨last, ?_⟩
    rw [List.map_cons, List.foldlM_cons, hmoves.take, ok_bind, hrest]

end Yard

/-! ## Runs -/

section

variable {r : Registry} {expression : String} {context : Value} {t : Token} {stack next : List Term}

theorem popOperands_framed {arity : Int} {operands below : List Term}
    (h : popOperands expression t arity stack = .ok (operands, below)) (expression' : String) (t' : Token)
    (base : List Term) : popOperands expression' t' arity (stack ++ base) = .ok (operands, below ++ base) := by
  unfold popOperands at h
  by_cases hless : (stack.length : Int) < arity
  · rw [if_pos hless] at h
    cases h
  · rw [if_neg hless] at h
    cases h
    have henough : arity.toNat ≤ stack.length := by omega
    have hmore : ¬((stack ++ base).length : Int) < arity := by rw [List.length_append]; omega
    rw [popOperands, if_neg hmore, List.take_append_of_le_length henough, List.drop_append_of_le_length henough]

/-- The place of a call matters for its error only. -/
theorem Registry.call_moved {operands : List Term} {s : State} (h : (r.call context t operands).result = .ok s) (n : Nat) :
    (r.call context (t.moved n) operands).result = .ok s := by
  have htext : (t.moved n).text = t.text := rfl
  rw [call] at h ⊢
  by_cases hconditional : t.text = Builtin.conditional.key
  · rw [if_pos hconditional] at h
    rw [htext, if_pos hconditional]
    by_cases hthree : operands.length ≠ 3
    · rw [if_pos hthree] at h
      cases h
    · rw [if_neg hthree] at h ⊢
      exact h
  · rw [if_neg hconditional] at h
    rw [htext, if_neg hconditional]
    exact h

/-- A token takes nothing from below the stack that suffices for it. -/
theorem Registry.step_framed (h : (r.step expression context stack t).result = .ok next) (expression' : String)
    (n : Nat) (base : List Term) :
    (r.step expression' context (stack ++ base) (t.moved n)).result = .ok (next ++ base) := by
  have hkind : (t.moved n).kind = t.kind := rfl
  unfold Registry.step at h ⊢
  rw [hkind]
  cases ht : t.kind with
  | operand =>
    rw [ht] at h
    cases h
    rfl
  | function =>
    rw [ht] at h
    obtain ⟨parts, hparts, h⟩ := Outcome.result_bind_eq_ok.1 h
    obtain ⟨s, hs, h⟩ := Outcome.result_bind_eq_ok.1 h
    cases h
    have hpop := popOperands_framed hparts expression' (t.moved n) base
    simp only [Outcome.result_bind, Outcome.result_lift]
    rw [show (t.moved n).arguments = t.arguments from rfl, hpop, ok_bind, Registry.call_moved hs n]
    rfl
  | operator | opening | closing | comma =>
    rw [ht] at h
    obtain ⟨spec, hspec, h⟩ := Outcome.result_bind_eq_ok.1 h
    obtain ⟨parts, hparts, h⟩ := Outcome.result_bind_eq_ok.1 h
    obtain ⟨states, hstates, h⟩ := Outcome.result_bind_eq_ok.1 h
    obtain ⟨s, hs, h⟩ := Outcome.result_bind_eq_ok.1 h
    cases h
    have hpop := popOperands_framed hparts expression' (t.moved n) base
    have hsame : r.operator (t.moved n).text = .ok spec := hspec
    have hstates : Term.resolveAll context parts.1 = .ok states := hstates
    simp only [Outcome.result_bind, Outcome.result_lift, hsame, ok_bind, hpop, hstates, hs]
    rfl

theorem run_framed {code : List Token}
    (h : code.foldlM (fun s t => (r.step expression context s t).result) stack = .ok next) (expression' : String)
    (n : Nat) (base : List Term) :
    (code.map (Token.moved n)).foldlM (fun s t => (r.step expression' context s t).result) (stack ++ base) =
      .ok (next ++ base) := by
  induction code generalizing stack with
  | nil =>
    cases h
    rfl
  | cons t code ih =>
    rw [List.foldlM_cons, bind_eq_ok] at h
    obtain ⟨after, hstep, h⟩ := h
    rw [List.map_cons, List.foldlM_cons, Registry.step_framed hstep, ok_bind, ih h]

/-- What a run of some code leaves is never nothing. -/
theorem run_ne_nil {code : List Token}
    (h : code.foldlM (fun s t => (r.step expression context s t).result) stack = .ok next)
    (hne : stack ≠ [] ∨ code ≠ []) : next ≠ [] := by
  induction code generalizing stack with
  | nil =>
    cases h
    exact hne.resolve_right fun hnil => hnil rfl
  | cons t code ih =>
    rw [List.foldlM_cons, bind_eq_ok] at h
    obtain ⟨after, hstep, h⟩ := h
    refine ih h (.inl ?_)
    rintro rfl
    unfold Registry.step at hstep
    split at hstep
    · cases hstep
    · obtain ⟨parts, -, hstep⟩ := Outcome.result_bind_eq_ok.1 hstep
      obtain ⟨s, -, hstep⟩ := Outcome.result_bind_eq_ok.1 hstep
      cases hstep
    · obtain ⟨spec, -, hstep⟩ := Outcome.result_bind_eq_ok.1 hstep
      obtain ⟨parts, -, hstep⟩ := Outcome.result_bind_eq_ok.1 hstep
      obtain ⟨states, -, hstep⟩ := Outcome.result_bind_eq_ok.1 hstep
      obtain ⟨s, -, hstep⟩ := Outcome.result_bind_eq_ok.1 hstep
      cases hstep

end

end Verdict.Expression
