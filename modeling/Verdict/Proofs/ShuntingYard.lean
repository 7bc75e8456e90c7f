/-
  Verdict.Proofs.ShuntingYard — an expression has the state of its tree.

  Whatever waits when an expression begins binds less strongly than it (`Below`), and is
  still there when the expression ends; above it wait only operators that bind as strongly
  as the expression or as `NOT` (`Binds`). The output with these operators behind it is
  code for the state of the tree (`Converted`). Each way of writing a tree keeps this, so
  every written expression has it (`Written.converted`), and the conversion followed by the
  run gives the state (`evaluate_spelled`).
-/

import Verdict.Proofs.Lexing
import Verdict.Proofs.StackMachine

namespace Verdict.Expression

/-! ## Waiting tokens -/

section

variable (r : Registry)

/-- An operator of at least this precedence. -/
def Binds (precedence : Int) (t : Token) : Prop :=
  t.kind = .operator ∧ ∃ spec, r.operator? t.text = some spec ∧ precedence ≤ spec.precedence

/-- Whether the token is an operator that is registered. -/
def Token.Operates (t : Token) : Prop := t.kind = .operator ∧ (r.operator? t.text).isSome

/-- The last of the waiting tokens is no call without its arguments, and an operator only
    if its precedence is below `level`. -/
def Below (level : Int) (waiting : List Token) : Prop :=
  ∀ t ∈ waiting.head?, t.kind ≠ .function ∧
    (t.kind = .operator → ∃ spec, r.operator? t.text = some spec ∧ spec.precedence < level)

end

variable {r : Registry}

theorem Binds.weaken {precedence weaker : Int} {t : Token} (h : Binds r precedence t)
    (hle : weaker ≤ precedence) : Binds r weaker t := by
  obtain ⟨hkind, spec, hspec, hprecedence⟩ := h
  exact ⟨hkind, spec, hspec, by omega⟩

theorem Below.strengthen {level stronger : Int} {waiting : List Token} (h : Below r level waiting)
    (hle : level ≤ stronger) : Below r stronger waiting := by
  intro t ht
  refine ⟨(h t ht).1, fun hkind => ?_⟩
  obtain ⟨spec, hspec, hlt⟩ := (h t ht).2 hkind
  exact ⟨spec, hspec, by omega⟩

theorem below_opening {opening : Token} (h : opening.kind = .opening) (level : Int) (rest : List Token) :
    Below r level (opening :: rest) := by
  intro t ht
  cases ht
  rw [h]
  exact ⟨by decide, fun hkind => absurd hkind (by decide)⟩

theorem below_operator {t : Token} {spec : OperatorSpec} {level : Int} (hkind : t.kind = .operator)
    (hspec : r.operator? t.text = some spec) (hlt : spec.precedence < level) (rest : List Token) :
    Below r level (t :: rest) := by
  intro u hu
  cases hu
  exact ⟨by rw [hkind]; decide, fun _ => ⟨spec, hspec, hlt⟩⟩

namespace Yard

theorem yielding_released {precedence : Int} {released left : List Token}
    (hreleased : ∀ t ∈ released, Binds r precedence t) (hleft : Below r precedence left) :
    yielding r precedence (released ++ left) = .ok (released, left) := by
  induction released with
  | nil =>
    cases left with
    | nil => rfl
    | cons t left =>
      obtain ⟨-, hlast⟩ := hleft t rfl
      rw [List.nil_append, yielding]
      by_cases hkind : t.isOperator = true
      · obtain ⟨spec, hspec, hlt⟩ := hlast (eq_of_beq hkind)
        simp only [if_pos hkind, Registry.operator_of_operator? hspec, ok_bind, if_pos hlt]
        rfl
      · rw [if_neg hkind]
  | cons t released ih =>
    obtain ⟨hkind, spec, hspec, hle⟩ := hreleased t List.mem_cons_self
    have hoperator : t.isOperator = true := beq_iff_eq.2 hkind
    have hnot : ¬spec.precedence < precedence := by omega
    have hrest := ih fun u hu => hreleased u (List.mem_cons_of_mem t hu)
    rw [List.cons_append, yielding, if_pos hoperator]
    simp only [Registry.operator_of_operator? hspec, ok_bind, if_neg hnot, hrest]
    rfl

/-- The waiting operators that yield are the uppermost ones, whatever waits below. -/
theorem yielding_uppermost (precedence : Int) {above : List Token} (habove : ∀ t ∈ above, t.Operates r) :
    ∃ released kept, above = released ++ kept ∧
      ∀ left : List Token, (∀ t ∈ left.head?, t.kind ≠ .operator) →
        yielding r precedence (above ++ left) = .ok (released, kept ++ left) := by
  induction above with
  | nil =>
    refine ⟨[], [], rfl, fun left hleft => ?_⟩
    cases left with
    | nil => rfl
    | cons t left =>
      have hkind : ¬t.isOperator = true := fun h => hleft t rfl (eq_of_beq h)
      rw [List.nil_append, yielding, if_neg hkind]
  | cons t above ih =>
    obtain ⟨⟨hkind, hknown⟩, habove⟩ := List.forall_mem_cons.1 habove
    obtain ⟨spec, hspec⟩ := Option.isSome_iff_exists.1 hknown
    have hoperator : t.isOperator = true := beq_iff_eq.2 hkind
    by_cases hlt : spec.precedence < precedence
    · refine ⟨[], t :: above, rfl, fun left _ => ?_⟩
      rw [List.cons_append, yielding, if_pos hoperator, Registry.operator_of_operator? hspec, ok_bind]
      exact if_pos hlt
    · obtain ⟨released, kept, rfl, hrest⟩ := ih habove
      refine ⟨t :: released, kept, rfl, fun left hleft => ?_⟩
      rw [List.cons_append, yielding, if_pos hoperator, Registry.operator_of_operator? hspec, ok_bind,
        if_neg hlt, hrest left hleft]
      rfl

/-- Everything above the innermost open parenthesis is released. -/
theorem closeGroup_above (cause : Token) {opening : Token} {above left output : List Token} {counts : List Nat}
    {previous : Option TokenKind} (habove : ∀ t ∈ above, t.isOpening = false) (hopening : opening.isOpening = true) :
    closeGroup cause ⟨output, above ++ opening :: left, counts, previous⟩ =
      .ok ⟨output ++ above, opening :: left, counts, previous⟩ := by
  have hout : ∀ t ∈ above, (!t.isOpening) = true := fun t ht => by rw [habove t ht]; rfl
  have hstop : (!opening.isOpening) = false := by rw [hopening]; rfl
  rw [closeGroup]
  simp only [List.takeWhile_append_of_pos hout, List.dropWhile_append_of_pos hout, List.takeWhile_cons,
    List.dropWhile_cons, hstop, Bool.false_eq_true, if_false, List.append_nil]

theorem closeGroup_open {cause opening : Token} {above left output : List Token} {counts : List Nat}
    {previous : Option TokenKind} (habove : ∀ t ∈ above, t.kind = .operator)
    (hopening : opening.kind = .opening) :
    closeGroup cause ⟨output, above ++ opening :: left, counts, previous⟩ =
      .ok ⟨output ++ above, opening :: left, counts, previous⟩ := by
  refine closeGroup_above cause (fun t ht => ?_) (beq_iff_eq.2 hopening)
  rw [Token.isOpening, habove t ht]
  rfl

/-! ## One token -/

section

variable {t : Token} {output waiting above : List Token} {counts : List Nat} {n : Nat}
  {previous : Option TokenKind}

theorem take_operand (ht : t.kind = .operand) :
    take r ⟨output, waiting, counts, previous⟩ t =
      .ok ⟨output ++ [t], waiting, counts, some .operand⟩ := by
  rw [take, ht]
  rfl

theorem take_function (ht : t.kind = .function) :
    take r ⟨output, waiting, counts, previous⟩ t =
      .ok ⟨output, t :: waiting, counts, some .function⟩ := by
  rw [take, ht]
  rfl

/-- An operator of one operand waits for it. -/
theorem take_unary {spec : OperatorSpec} (ht : t.kind = .operator) (hspec : r.operator? t.text = some spec)
    (harity : spec.arity ≤ 1) :
    take r ⟨output, waiting, counts, previous⟩ t =
      .ok ⟨output, t :: waiting, counts, some .operator⟩ := by
  rw [take, ht]
  simp only [pushOperator, Registry.operator_of_operator? hspec, ok_bind, if_pos harity]
  rfl

/-- An operator of more operands releases the waiting ones that yield to it. -/
theorem take_releasing {spec : OperatorSpec} {released left : List Token} (ht : t.kind = .operator)
    (hspec : r.operator? t.text = some spec) (harity : ¬spec.arity ≤ 1)
    (hyielding : yielding r spec.precedence waiting = .ok (released, left)) :
    take r ⟨output, waiting, counts, previous⟩ t =
      .ok ⟨output ++ released, t :: left, counts, some .operator⟩ := by
  rw [take, ht]
  simp only [pushOperator, Registry.operator_of_operator? hspec, ok_bind, if_neg harity, hyielding]
  rfl

/-- An operator between operands releases what binds as strongly. -/
theorem take_connective {spec : OperatorSpec} (ht : t.kind = .operator)
    (hspec : r.operator? t.text = some spec) (harity : ¬spec.arity ≤ 1)
    (habove : ∀ u ∈ above, Binds r spec.precedence u) (hbelow : Below r spec.precedence waiting) :
    take r ⟨output, above ++ waiting, counts, previous⟩ t =
      .ok ⟨output ++ above, t :: waiting, counts, some .operator⟩ :=
  take_releasing ht hspec harity (yielding_released habove hbelow)

theorem take_opening (ht : t.kind = .opening) (hprevious : previous ≠ some .function) :
    take r ⟨output, waiting, counts, previous⟩ t =
      .ok ⟨output, t :: waiting, counts, some .opening⟩ := by
  rw [take, ht]
  simp only [openGroup, if_neg hprevious]
  rfl

theorem take_opening_call (ht : t.kind = .opening) :
    take r ⟨output, waiting, counts, some .function⟩ t =
      .ok ⟨output, t :: waiting, 1 :: counts, some .opening⟩ := by
  rw [take, ht]
  rfl

theorem take_comma {opening call : Token} (ht : t.kind = .comma)
    (habove : ∀ u ∈ above, u.kind = .operator) (hopening : opening.kind = .opening)
    (hcall : call.kind = .function) :
    take r ⟨output, above ++ opening :: call :: waiting, n :: counts, previous⟩ t =
      .ok ⟨output ++ above, opening :: call :: waiting, (n + 1) :: counts, some .comma⟩ := by
  have hfunction : call.isFunction = true := beq_iff_eq.2 hcall
  rw [take, ht]
  simp only [nextArgument, closeGroup_open habove hopening, ok_bind, if_pos hfunction]
  rfl

theorem take_closing {opening : Token} (ht : t.kind = .closing) (habove : ∀ u ∈ above, u.kind = .operator)
    (hopening : opening.kind = .opening) (hwaiting : ∀ u ∈ waiting.head?, u.kind ≠ .function) :
    take r ⟨output, above ++ opening :: waiting, counts, previous⟩ t =
      .ok ⟨output ++ above, waiting, counts, some .closing⟩ := by
  rw [take, ht]
  simp only [endGroup, closeGroup_open habove hopening, ok_bind, List.drop_one, List.tail_cons]
  cases waiting with
  | nil => rfl
  | cons u waiting =>
    have hfunction : ¬u.isFunction = true := fun h => hwaiting u rfl (eq_of_beq h)
    simp only [if_neg hfunction]
    rfl

theorem take_closing_call {opening call : Token} (ht : t.kind = .closing)
    (habove : ∀ u ∈ above, u.kind = .operator) (hopening : opening.kind = .opening)
    (hcall : call.kind = .function) :
    take r ⟨output, above ++ opening :: call :: waiting, n :: counts, previous⟩ t =
      .ok ⟨output ++ above ++ [{ call with arguments := if previous = some .opening then 0 else n }],
        waiting, counts, some .closing⟩ := by
  have hfunction : call.isFunction = true := beq_iff_eq.2 hcall
  rw [take, ht]
  simp only [endGroup, closeGroup_open habove hopening, ok_bind, List.drop_one, List.tail_cons,
    if_pos hfunction]
  rfl

end

end Yard

/-! ## One expression -/

section

variable (r : Registry) (expression : String) (context : Value)

/-- Above tokens that bind less strongly than `level`, the tokens become code for the
    states; the end of it may still wait. What waits has the precedence of the expression
    or that of `NOT`, hence `min level 3`. -/
def Converted (level : Int) (states : List State) (tokens : List Token) : Prop :=
  ∀ output waiting counts previous, previous ≠ some .function → Below r level waiting →
    ∃ out above kind,
      tokens.foldlM (Yard.take r) ⟨output, waiting, counts, previous⟩ =
        .ok ⟨output ++ out, above ++ waiting, counts, some kind⟩ ∧
      operandMayBegin (some kind) = false ∧ (∀ t ∈ above, Binds r (min level 3) t) ∧
      Yields r expression context (out ++ above) states

/-- The same for the arguments of a call, which are counted. -/
def ListConverted (states : List State) (tokens : List Token) : Prop :=
  ∀ output waiting n counts previous (opening call : Token),
    previous ≠ some .function → opening.kind = .opening → call.kind = .function →
    ∃ out above kind,
      tokens.foldlM (Yard.take r) ⟨output, opening :: call :: waiting, n :: counts, previous⟩ =
        .ok ⟨output ++ out, above ++ opening :: call :: waiting, (n + (states.length - 1)) :: counts, some kind⟩ ∧
      operandMayBegin (some kind) = false ∧ (∀ t ∈ above, t.kind = .operator) ∧
      Yields r expression context (out ++ above) states

end

variable {expression : String} {context : Value} {level : Int} {t : Token} {tokens : List Token}

theorem Converted.operand {s : State} (ht : t.kind = .operand)
    (hs : resolveWord context t.text = .ok s) : Converted r expression context level [s] [t] := by
  intro output waiting counts previous _ _
  refine ⟨[t], [], .operand, ?_, rfl, fun u hu => absurd hu List.not_mem_nil, .operand ht hs⟩
  rw [List.foldlM_cons, Yard.take_operand ht]
  rfl

theorem Converted.group {inner : Int} {states : List State} {opening closing : Token}
    (h : Converted r expression context inner states tokens) (hopening : opening.kind = .opening)
    (hclosing : closing.kind = .closing) :
    Converted r expression context level states (opening :: tokens ++ [closing]) := by
  intro output waiting counts previous hprevious hbelow
  obtain ⟨out, above, kind, hrun, -, habove, hyields⟩ :=
    h output (opening :: waiting) counts (some .opening) (by decide) (below_opening hopening inner waiting)
  refine ⟨out ++ above, [], .closing, ?_, rfl, fun u hu => absurd hu List.not_mem_nil, ?_⟩
  · have hoperators : ∀ u ∈ above, u.kind = .operator := fun u hu => (habove u hu).1
    have hcall : ∀ u ∈ waiting.head?, u.kind ≠ .function := fun u hu => (hbelow u hu).1
    rw [List.cons_append, List.foldlM_cons, Yard.take_opening hopening hprevious, ok_bind,
      List.foldlM_append, hrun, ok_bind, List.foldlM_cons,
      Yard.take_closing hclosing hoperators hopening hcall, List.append_assoc]
    rfl
  · rwa [List.append_nil]

/-- `NOT` waits for its operand and for nothing else. -/
theorem Converted.not (hr : r.Intact) {s : State} (h : Converted r expression context 4 [s] tokens)
    (ht : t.kind = .operator) (htext : t.text = Builtin.not.key) :
    Converted r expression context level [s.invert] (t :: tokens) := by
  intro output waiting counts previous _ _
  have hspec : r.operator? t.text = some Builtin.not.spec := by rw [htext, hr.builtin]
  have hbelow : Below r 4 (t :: waiting) := below_operator ht hspec (by decide) waiting
  obtain ⟨out, above, kind, hrun, hkind, habove, hyields⟩ :=
    h output (t :: waiting) counts (some .operator) (by decide) hbelow
  refine ⟨out, above ++ [t], kind, ?_, hkind, ?_, ?_⟩
  · rw [List.foldlM_cons, Yard.take_unary ht hspec (by decide), ok_bind, hrun, List.append_assoc]
    rfl
  · intro u hu
    rcases List.mem_append.1 hu with hu | hu
    · exact (habove u hu).weaken (by omega)
    · cases List.mem_singleton.1 hu
      exact ⟨ht, _, hspec, Int.min_le_right level 3⟩
  · rw [← List.append_assoc]
    exact hyields.operator ht hspec rfl rfl

theorem Joins.le_three {op : Operation} {precedence : Int} (h : Joins r op precedence) :
    precedence ≤ 3 := by
  cases op with
  | builtin b => rcases h with ⟨-, rfl⟩ | ⟨-, rfl⟩ <;> decide
  | named key => exact h.1

/-- A connective releases what of its left operand still waits, and waits itself below
    what of its right operand does. -/
theorem Converted.connect (hr : r.Intact) (hreliable : r.Reliable) {op : Operation} {precedence : Int}
    {a b : State} {lefts rights : List Token} (hjoins : Joins r op precedence) (hlevel : level ≤ precedence)
    (hleft : Converted r expression context precedence [a] lefts)
    (hright : Converted r expression context (precedence + 1) [b] rights)
    (ht : t.kind = .operator) (htext : t.text = op.key) :
    Converted r expression context level [op.joined r [a, b]] (lefts ++ t :: rights) := by
  intro output waiting counts previous hprevious hbelow
  obtain ⟨spec, hspec, hprecedence, harity, happly⟩ := hjoins.spec hr hreliable
  rw [← htext] at hspec
  have hthree := hjoins.le_three
  have hbelow := hbelow.strengthen hlevel
  obtain ⟨out, above, kind, hrun, -, habove, hyields⟩ := hleft output waiting counts previous hprevious hbelow
  -- a `NOT` of the left operand is released too: no connective binds more strongly
  have habove : ∀ u ∈ above, Binds r spec.precedence u := fun u hu => (habove u hu).weaken (by omega)
  have hwait : Below r (precedence + 1) (t :: waiting) := below_operator ht hspec (by omega) waiting
  obtain ⟨out', above', kind', hrun', hkind', habove', hyields'⟩ :=
    hright (output ++ out ++ above) (t :: waiting) counts (some .operator) (by decide) hwait
  refine ⟨out ++ above ++ out', above' ++ [t], kind', ?_, hkind', ?_, ?_⟩
  · rw [List.foldlM_append, hrun, ok_bind, List.foldlM_cons,
      Yard.take_connective ht hspec (by omega) habove (hprecedence ▸ hbelow), ok_bind, hrun']
    simp only [List.append_assoc, List.singleton_append]
  · intro u hu
    rcases List.mem_append.1 hu with hu | hu
    · exact (habove' u hu).weaken (by omega)
    · cases List.mem_singleton.1 hu
      exact ⟨ht, spec, hspec, by omega⟩
  · have hcode := (hyields.append hyields').operator ht hspec (by rw [harity]; rfl) (happly a b)
    simpa only [List.append_assoc] using hcode

/-! ## Calls -/

theorem Converted.bare (hr : r.Intact) (hreliable : r.Reliable) {op : Operation} {opening closing : Token}
    (htakes : Takes r op 0) (ht : t.kind = .function) (htext : t.text = op.key)
    (hopening : opening.kind = .opening) (hclosing : closing.kind = .closing) :
    Converted r expression context level [op.called r []] [t, opening, closing] := by
  intro output waiting counts previous _ _
  have hnone : ∀ u ∈ ([] : List Token), u.kind = .operator := fun u hu => absurd hu List.not_mem_nil
  refine ⟨[{ t with arguments := 0 }], [], .closing, ?_, rfl, fun u hu => absurd hu List.not_mem_nil, ?_⟩
  · rw [List.foldlM_cons, Yard.take_function ht, ok_bind, List.foldlM_cons,
      Yard.take_opening_call hopening, ok_bind, List.foldlM_cons, ← List.nil_append (opening :: _),
      Yard.take_closing_call hclosing hnone hopening ht, List.append_nil]
    rfl
  · have hcode : Yields r expression context [] [] := ⟨[], rfl, fun stack => rfl⟩
    exact hcode.call ht rfl fun terms hterms => call_result hr hreliable htakes htext hterms

theorem Converted.call (hr : r.Intact) (hreliable : r.Reliable) {op : Operation} {states : List State}
    {opening closing : Token} (htakes : Takes r op states.length) (hne : states ≠ [])
    (h : ListConverted r expression context states tokens) (ht : t.kind = .function)
    (htext : t.text = op.key) (hopening : opening.kind = .opening) (hclosing : closing.kind = .closing) :
    Converted r expression context level [op.called r states] (t :: opening :: tokens ++ [closing]) := by
  intro output waiting counts previous _ _
  obtain ⟨out, above, kind, hrun, hkind, habove, hyields⟩ :=
    h output waiting 1 counts (some .opening) opening t (by decide) hopening ht
  have hcount : 1 + (states.length - 1) = states.length := by
    have := List.length_pos_iff.2 hne
    omega
  -- the closing parenthesis does not follow the open one, so the count stands
  have hprevious : some kind ≠ some TokenKind.opening := by
    intro heq
    cases heq
    cases hkind
  refine ⟨out ++ above ++ [{ t with arguments := states.length }], [], .closing, ?_, rfl,
    fun u hu => absurd hu List.not_mem_nil, ?_⟩
  · rw [List.cons_append, List.cons_append, List.foldlM_cons, Yard.take_function ht, ok_bind,
      List.foldlM_cons, Yard.take_opening_call hopening, ok_bind, List.foldlM_append, hrun, ok_bind,
      List.foldlM_cons, Yard.take_closing_call hclosing habove hopening ht, if_neg hprevious, hcount,
      List.append_assoc, List.append_assoc, List.append_assoc]
    rfl
  · rw [List.append_nil]
    exact hyields.call ht rfl fun terms hterms => call_result hr hreliable htakes htext hterms

theorem ListConverted.one {s : State} (h : Converted r expression context level [s] tokens) :
    ListConverted r expression context [s] tokens := by
  intro output waiting n counts previous opening call hprevious hopening _
  obtain ⟨out, above, kind, hrun, hkind, habove, hyields⟩ :=
    h output (opening :: call :: waiting) (n :: counts) previous hprevious (below_opening hopening level _)
  exact ⟨out, above, kind, hrun, hkind, fun u hu => (habove u hu).1, hyields⟩

/-- A comma releases what of the argument before it still waits. -/
theorem ListConverted.more {s : State} {states : List State} {firsts others : List Token} (hne : states ≠ [])
    (h : Converted r expression context level [s] firsts)
    (h' : ListConverted r expression context states others) (ht : t.kind = .comma) :
    ListConverted r expression context (s :: states) (firsts ++ t :: others) := by
  intro output waiting n counts previous opening call hprevious hopening hcall
  obtain ⟨out, above, kind, hrun, -, habove, hyields⟩ :=
    h output (opening :: call :: waiting) (n :: counts) previous hprevious (below_opening hopening level _)
  have habove : ∀ u ∈ above, u.kind = .operator := fun u hu => (habove u hu).1
  obtain ⟨out', above', kind', hrun', hkind', habove', hyields'⟩ :=
    h' (output ++ out ++ above) waiting (n + 1) counts (some .comma) opening call (by decide) hopening hcall
  have hcount : n + 1 + (states.length - 1) = n + ((s :: states).length - 1) := by
    have := List.length_pos_iff.2 hne
    rw [List.length_cons]
    omega
  refine ⟨out ++ above ++ out', above', kind', ?_, hkind', habove', ?_⟩
  · rw [List.foldlM_append, hrun, ok_bind, List.foldlM_cons, Yard.take_comma ht habove hopening hcall,
      ok_bind, hrun', hcount]
    simp only [List.append_assoc]
  · have hcode : Yields r expression context (out ++ above ++ (out' ++ above')) (s :: states) :=
      hyields.append hyields'
    simpa only [List.append_assoc] using hcode

/-! ## Whole expressions -/

theorem forall₂_append {α β : Type} {R : α → β → Prop} {as bs : List α} {cs : List β}
    (h : List.Forall₂ R (as ++ bs) cs) :
    ∃ ds es, cs = ds ++ es ∧ List.Forall₂ R as ds ∧ List.Forall₂ R bs es := by
  induction as generalizing cs with
  | nil => exact ⟨[], cs, rfl, .nil, h⟩
  | cons a as ih =>
    obtain ⟨c, rest, hc, hrest, rfl⟩ := List.forall₂_cons_left_iff.1 h
    obtain ⟨ds, es, rfl, hds, hes⟩ := ih hrest
    exact ⟨c :: ds, es, rfl, .cons hc hds, hes⟩

theorem Tree.length_values (ts : List Tree) : (Tree.values r context ts).length = ts.length := by
  induction ts with
  | nil => rfl
  | cons t ts ih => rw [Tree.values, List.length_cons, List.length_cons, ih]

theorem AllWritten.values_ne_nil {ts : List Tree} {symbols : List Symbol} (h : AllWritten r ts symbols) :
    Tree.values r context ts ≠ [] := by
  cases h <;> exact List.cons_ne_nil _ _

-- By induction on the derivation; `match` and not `cases`, for the recursion to be structural.
mutual

/-- Tokens that write an expression become code for the state of its tree. -/
theorem Written.converted {level : Int} {t : Tree} {symbols : List Symbol} (h : Written r level t symbols)
    (hr : r.Intact) (hreliable : r.Reliable) (hoffers : ∀ path ∈ t.paths, Offers context path)
    {tokens : List Token} (htokens : List.Forall₂ Symbol.ReadAs symbols tokens) :
    Converted r expression context level [t.value r context] tokens := by
  match h with
  | .literal _ s =>
    obtain ⟨t, rest, ⟨hkind, hliteral⟩, hrest, rfl⟩ := List.forall₂_cons_left_iff.1 htokens
    cases hrest
    refine .operand hkind ?_
    rw [resolveWord, show literal? t.text = some s from hliteral]
    rfl
  | .path _ _ =>
    obtain ⟨t, rest, ⟨hkind, htext, hliteral, hword⟩, hrest, rfl⟩ := List.forall₂_cons_left_iff.1 htokens
    cases hrest
    subst htext
    exact .operand hkind (resolveWord_path hword hliteral (hoffers _ (List.mem_singleton_self _)))
  | .group _ hinner =>
    obtain ⟨opening, rest, ⟨hopening, -⟩, hrest, rfl⟩ := List.forall₂_cons_left_iff.1 htokens
    obtain ⟨inner, last, rfl, hinners, hlast⟩ := forall₂_append hrest
    obtain ⟨closing, rest, ⟨hclosing, -⟩, hnil, rfl⟩ := List.forall₂_cons_left_iff.1 hlast
    cases hnil
    exact (hinner.converted hr hreliable hoffers hinners).group hopening hclosing
  | .not _ hinner =>
    obtain ⟨t, rest, ⟨hkind, htext⟩, hrest, rfl⟩ := List.forall₂_cons_left_iff.1 htokens
    exact (hinner.converted hr hreliable hoffers hrest).not hr hkind htext
  | .connect hjoins hlevel hleft hright =>
    obtain ⟨lefts, rest, rfl, hlefts, hrest⟩ := forall₂_append htokens
    obtain ⟨t, rights, ⟨hkind, htext⟩, hrights, rfl⟩ := List.forall₂_cons_left_iff.1 hrest
    obtain ⟨hoffers, hoffers'⟩ := List.forall_mem_append.1 hoffers
    exact .connect hr hreliable hjoins hlevel (hleft.converted hr hreliable hoffers hlefts)
      (hright.converted hr hreliable hoffers' hrights) hkind htext
  | .bare _ htakes =>
    obtain ⟨t, rest, ⟨hkind, htext⟩, hrest, rfl⟩ := List.forall₂_cons_left_iff.1 htokens
    obtain ⟨opening, rest, ⟨hopening, -⟩, hend, rfl⟩ := List.forall₂_cons_left_iff.1 hrest
    obtain ⟨closing, rest, ⟨hclosing, -⟩, hnil, rfl⟩ := List.forall₂_cons_left_iff.1 hend
    cases hnil
    exact .bare hr hreliable htakes hkind htext hopening hclosing
  | .call _ htakes hall =>
    obtain ⟨t, rest, ⟨hkind, htext⟩, hrest, rfl⟩ := List.forall₂_cons_left_iff.1 htokens
    obtain ⟨opening, rest, ⟨hopening, -⟩, hend, rfl⟩ := List.forall₂_cons_left_iff.1 hrest
    obtain ⟨arguments, last, rfl, harguments, hlast⟩ := forall₂_append hend
    obtain ⟨closing, rest, ⟨hclosing, -⟩, hnil, rfl⟩ := List.forall₂_cons_left_iff.1 hlast
    cases hnil
    exact .call hr hreliable (by rwa [Tree.length_values]) hall.values_ne_nil
      (hall.converted hr hreliable hoffers harguments) hkind htext hopening hclosing

theorem AllWritten.converted {ts : List Tree} {symbols : List Symbol} (h : AllWritten r ts symbols)
    (hr : r.Intact) (hreliable : r.Reliable) (hoffers : ∀ path ∈ Tree.allPaths ts, Offers context path)
    {tokens : List Token} (htokens : List.Forall₂ Symbol.ReadAs symbols tokens) :
    ListConverted r expression context (Tree.values r context ts) tokens := by
  match h with
  | .one hone =>
    obtain ⟨hoffers, -⟩ := List.forall_mem_append.1 hoffers
    exact .one (hone.converted hr hreliable hoffers htokens)
  | .more hone hothers =>
    obtain ⟨firsts, rest, rfl, hfirsts, hrest⟩ := forall₂_append htokens
    obtain ⟨t, others, ⟨hkind, -⟩, hothers', rfl⟩ := List.forall₂_cons_left_iff.1 hrest
    obtain ⟨hoffers, hoffers'⟩ := List.forall_mem_append.1 hoffers
    exact .more hothers.values_ne_nil (hone.converted hr hreliable hoffers hfirsts)
      (hothers.converted hr hreliable hoffers' hothers') hkind

end

namespace Yard

/-- Operators are released, whatever becomes of what waits below them. -/
theorem release_above {above : List Token} (h : ∀ t ∈ above, t.kind = .operator) (left : List Token) :
    release (above ++ left) = (above ++ ·) <$> release left := by
  induction above with
  | nil => exact (id_map _).symm
  | cons t above ih =>
    obtain ⟨ht, habove⟩ := List.forall_mem_cons.1 h
    have hclosed : ¬(t.isOpening || t.isFunction) = true := by
      rw [Token.isOpening, Token.isFunction, ht]
      decide
    rw [List.cons_append, release, if_neg hclosed, ih habove, bind_pure_comp, Functor.map_map]
    rfl

theorem release_operators {waiting : List Token} (h : ∀ t ∈ waiting, t.kind = .operator) :
    release waiting = .ok waiting := by
  have hall : release (waiting ++ []) = .ok (waiting ++ []) := release_above h []
  rwa [List.append_nil] at hall

/-- The parenthesis that was opened last and is not closed. -/
theorem release_unclosed {above : List Token} {opening : Token} (h : ∀ t ∈ above, t.kind = .operator)
    (hopening : opening.kind = .opening) (left : List Token) :
    release (above ++ opening :: left) = .error (.malformed (.unclosed opening.position)) := by
  have hopen : (opening.isOpening || opening.isFunction) = true := by
    rw [Token.isOpening, hopening]
    rfl
  rw [release_above h, release, if_pos hopen]
  rfl

end Yard

theorem toPostfix_yields {states : List State} {tokens : List Token}
    (h : Converted r expression context level states tokens) :
    ∃ code, r.toPostfix tokens = .ok code ∧ Yields r expression context code states := by
  have hbelow : Below r level [] := fun t ht => nomatch ht
  obtain ⟨out, above, kind, hrun, -, habove, hyields⟩ := h [] [] [] none (by decide) hbelow
  refine ⟨out ++ above, ?_, hyields⟩
  rw [Registry.toPostfix, Yard.empty, hrun, ok_bind]
  simp only [List.append_nil, List.nil_append, Yard.release_operators fun t ht => (habove t ht).1, ok_bind]
  rfl

theorem conclude_yields {s : State} {terms : List Term} (h : Term.resolveAll context terms = .ok [s]) :
    conclude expression context terms.reverse = .ok s := by
  match terms, Term.length_resolveAll h with
  | [t], _ =>
    rw [Term.resolveAll, Term.resolveAll, bind_eq_ok] at h
    obtain ⟨s', hs', heq⟩ := h
    cases heq
    exact hs'

/-- However an expression is spelled, its state is that of its tree. -/
theorem Registry.evaluate_spelled (hr : r.Grown) (hreliable : r.Reliable) {tree : Tree} {text : String}
    (hspelled : tree.SpelledBy r text) (hoffers : ∀ path ∈ tree.paths, Offers context path) :
    (r.evaluate text context).result = .ok (tree.value r context) := by
  obtain ⟨level, symbols, pieces, hwritten, hsymbols, hspaced⟩ := hspelled
  have htokens := tokenize_read hr.intact hwritten hsymbols hspaced
  have hconverted : Converted r text context level [tree.value r context] (r.tokenize text) :=
    hwritten.converted hr.intact hreliable hoffers htokens
  obtain ⟨code, hcode, terms, hterms, hrun⟩ := toPostfix_yields hconverted
  rw [Registry.evaluate]
  simp only [Outcome.result_bind, Outcome.result_lift, hcode, ok_bind, Outcome.result_foldlM, hrun,
    List.append_nil]
  exact conclude_yields hterms

/-- A registered connective, a registered function and other spellings. -/
theorem Registry.evaluate_spelled_registered :
    let nand : Handler := fun states => pure (.state (Vote.all states).invert)
    let butNot : Handler := fun states => pure (.trit (Vote.lead states).toTrit)
    let r := (Registry.standard.registerFunction "nand" nand).registerOperator "butNot" butNot 3 2
    let tree : Tree := .connect (.builtin .or)
      (.connect (.named "BUTNOT") (.not (.path "a")) (.path "b.c"))
      (.call (.named "NAND") [.path "a", .literal .yes])
    let context : Value := .map [(.str "a", .bool true)]
    let text := "!a BUTNOT b.c|nand( a,(tRuE) )"
    (r.Grown ∧ r.Reliable ∧ tree.SpelledBy r text ∧ ∀ path ∈ tree.paths, Offers context path) ∧
      (r.evaluate text context).result = .ok .no := by
  intro nand butNot r tree context text
  have hnand : ¬Reserved (Text.upper "nand") := not_reserved (by intro b; cases b <;> decide) (by decide)
  have hbutNot : ¬Reserved (Text.upper "butNot") := not_reserved (by intro b; cases b <;> decide) (by decide)
  have hgrown : r.Grown := .operator _ _ _ _ (.function _ _ .standard hnand) hbutNot
  have hreliable : r.Reliable := by
    refine ⟨fun spec hspec handler hhandler => ?_, fun f hf => ?_⟩
    · rcases List.mem_cons.1 hspec with rfl | hspec
      · cases hhandler
        exact fun states => ⟨_, _, rfl, rfl⟩
      · obtain ⟨b, -, rfl⟩ := List.mem_map.1 hspec
        cases hhandler
    · cases List.mem_singleton.1 hf
      exact fun states => ⟨_, _, rfl, rfl⟩
  have ha : IsPath r "a" := by decide
  have hb : IsPath r "b.c" := by decide
  have hor : Joins r (.builtin .or) 1 := .inr ⟨by decide, rfl⟩
  have hjoins : Joins r (.named "BUTNOT") 3 := ⟨by decide, butNot, rfl⟩
  have htakes : Takes r (.named "NAND") 2 := .inl rfl
  let symbols : List Symbol := [.not, .path "a", .connective (.named "BUTNOT"), .path "b.c",
    .connective (.builtin .or), .callee (.named "NAND"), .opening, .path "a", .comma, .opening,
    .literal .yes, .closing, .closing]
  let pieces := ["!", "a", "BUTNOT", "b.c", "|", "nand", "(", "a", ",", "(", "tRuE", ")", ")"].map String.toList
  have hwritten : Written r 1 tree symbols :=
    .connect hor (by decide) (.connect hjoins (by decide) (.not _ (.path _ ha)) (.path _ hb))
      (.call _ htakes (.more (.path 0 ha) (.one (.group 0 (.literal 0 _)))))
  have hsymbols : ∀ p ∈ symbols.zip pieces, p.1.SpelledBy p.2 := by decide
  have hchars : text.toList = '!' :: (['a'] ++ ' ' :: ("BUTNOT".toList ++ ' ' :: ("b.c".toList ++ '|' ::
      ("nand".toList ++ '(' :: ' ' :: (['a'] ++ ',' :: '(' :: ("tRuE".toList ++ [')', ' ', ')'])))))) := by
    decide
  have hspaced : Spaced pieces text.toList := by
    rw [hchars]
    refine .mark rfl (.word (by decide) (by decide) (.blank rfl (.word (by decide) (by decide) (.blank rfl
      (.word (by decide) (by decide) (.mark rfl (.word (by decide) (by decide) (.mark rfl (.blank rfl
      (.word (by decide) (by decide) (.mark rfl (.mark rfl (.word (by decide) (by decide) ?_)))))))))))))
    exact .mark rfl (.blank rfl (.mark rfl .nil))
  have hspelled : tree.SpelledBy r text :=
    ⟨1, symbols, pieces, hwritten, List.forall₂_iff_zip.2 ⟨rfl, fun h => hsymbols _ h⟩, hspaced⟩
  have hoffers : ∀ path ∈ tree.paths, Offers context path := by
    have hfound : context.resolve? "a" = some (.bool true) := rfl
    have habsent : context.resolve? "b.c" = none := rfl
    intro path hpath v hv
    have hcases : path = "a" ∨ path = "b.c" ∨ path = "a" := by
      simpa only [List.mem_cons, List.not_mem_nil, or_false] using (show path ∈ ["a", "b.c", "a"] from hpath)
    rcases hcases with rfl | rfl | rfl
    · exact ⟨.yes, by rw [← Option.some.inj (hfound.symm.trans hv)]; rfl⟩
    · exact absurd (habsent.symm.trans hv) (by simp)
    · exact ⟨.yes, by rw [← Option.some.inj (hfound.symm.trans hv)]; rfl⟩
  refine ⟨⟨hgrown, hreliable, hspelled, hoffers⟩, ?_⟩
  rw [Registry.evaluate_spelled hgrown hreliable hspelled hoffers]
  rfl

end Verdict.Expression
