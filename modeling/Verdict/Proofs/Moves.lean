/-
  Verdict.Proofs.Moves — all that one token can do to a conversion.

  `Moves r t before after` has one case for each thing that happens to waiting tokens when
  `t` is taken, and `take_eq_ok` says that these are all. It asks nothing of the tokens:
  they need not be those of a text.
-/

import Verdict.Proofs.ShuntingYard

namespace Verdict.Expression

theorem Registry.operator_eq_ok {r : Registry} {key : String} {spec : OperatorSpec} :
    r.operator key = .ok spec ↔ r.operator? key = some spec := by
  rw [operator]
  cases r.operator? key <;> simp

namespace Yard

/-- What the token makes of a conversion. -/
inductive Moves (r : Registry) (t : Token) : Yard → Yard → Prop
  | operand {output waiting : List Token} {counts : List Nat} {previous : Option TokenKind} :
      t.kind = .operand →
      Moves r t ⟨output, waiting, counts, previous⟩ ⟨output ++ [t], waiting, counts, some .operand⟩
  | function {output waiting : List Token} {counts : List Nat} {previous : Option TokenKind} :
      t.kind = .function →
      Moves r t ⟨output, waiting, counts, previous⟩ ⟨output, t :: waiting, counts, some .function⟩
  | unary {output waiting : List Token} {counts : List Nat} {previous : Option TokenKind} {spec : OperatorSpec} :
      t.kind = .operator → r.operator? t.text = some spec → spec.arity ≤ 1 →
      Moves r t ⟨output, waiting, counts, previous⟩ ⟨output, t :: waiting, counts, some .operator⟩
  | releasing {output waiting released left : List Token} {counts : List Nat} {previous : Option TokenKind}
      {spec : OperatorSpec} :
      t.kind = .operator → r.operator? t.text = some spec → ¬spec.arity ≤ 1 →
      yielding r spec.precedence waiting = .ok (released, left) →
      Moves r t ⟨output, waiting, counts, previous⟩ ⟨output ++ released, t :: left, counts, some .operator⟩
  | opening {output waiting : List Token} {counts : List Nat} {previous : Option TokenKind} :
      t.kind = .opening →
      Moves r t ⟨output, waiting, counts, previous⟩
        ⟨output, t :: waiting, if previous = some .function then 1 :: counts else counts, some .opening⟩
  | comma {output above left : List Token} {opening call : Token} {n : Nat} {counts : List Nat}
      {previous : Option TokenKind} :
      t.kind = .comma → (∀ u ∈ above, u.isOpening = false) → opening.isOpening = true → call.isFunction = true →
      Moves r t ⟨output, above ++ opening :: call :: left, n :: counts, previous⟩
        ⟨output ++ above, opening :: call :: left, (n + 1) :: counts, some .comma⟩
  | closing {output above left : List Token} {opening : Token} {counts : List Nat} {previous : Option TokenKind} :
      t.kind = .closing → (∀ u ∈ above, u.isOpening = false) → opening.isOpening = true →
      (∀ u ∈ left.head?, u.isFunction = false) →
      Moves r t ⟨output, above ++ opening :: left, counts, previous⟩ ⟨output ++ above, left, counts, some .closing⟩
  | closingCall {output above left : List Token} {opening call : Token} {n : Nat} {counts : List Nat}
      {previous : Option TokenKind} :
      t.kind = .closing → (∀ u ∈ above, u.isOpening = false) → opening.isOpening = true → call.isFunction = true →
      Moves r t ⟨output, above ++ opening :: call :: left, n :: counts, previous⟩
        ⟨output ++ above ++ [{ call with arguments := if previous = some .opening then 0 else n }], left, counts,
          some .closing⟩

variable {r : Registry} {t : Token} {before after : Yard}

/-- The waiting operators that yield are the uppermost ones. -/
theorem yielding_splits {precedence : Int} {waiting released left : List Token}
    (h : yielding r precedence waiting = .ok (released, left)) :
    waiting = released ++ left ∧ ∀ t ∈ released, t.isOperator = true := by
  induction waiting generalizing released with
  | nil =>
    cases h
    exact ⟨rfl, List.forall_mem_nil _⟩
  | cons t waiting ih =>
    rw [yielding] at h
    by_cases hoperator : t.isOperator = true
    · rw [if_pos hoperator] at h
      obtain ⟨spec, -, h⟩ := bind_eq_ok.1 h
      by_cases hlt : spec.precedence < precedence
      · rw [if_pos hlt] at h
        cases h
        exact ⟨rfl, List.forall_mem_nil _⟩
      · rw [if_neg hlt] at h
        obtain ⟨parts, hparts, h⟩ := bind_eq_ok.1 h
        cases h
        obtain ⟨rfl, hall⟩ := ih hparts
        exact ⟨rfl, List.forall_mem_cons.2 ⟨hoperator, hall⟩⟩
    · rw [if_neg hoperator] at h
      cases h
      exact ⟨rfl, List.forall_mem_nil _⟩

/-- A group is closed down to the innermost open parenthesis. -/
theorem closeGroup_eq_ok {cause : Token} :
    closeGroup cause before = .ok after ↔
      ∃ above opening left, before.waiting = above ++ opening :: left ∧ (∀ u ∈ above, u.isOpening = false) ∧
        opening.isOpening = true ∧
        after = { before with output := before.output ++ above, waiting := opening :: left } := by
  constructor
  · intro h
    have hsplit := List.takeWhile_append_dropWhile (p := fun u : Token => !u.isOpening) (l := before.waiting)
    have habove : ∀ u ∈ before.waiting.takeWhile fun u => !u.isOpening, u.isOpening = false := fun u hu =>
      Bool.not_eq_true' _ ▸ List.all_eq_true.1 List.all_takeWhile u hu
    rw [closeGroup] at h
    split at h
    · cases h
    · next hne =>
      cases h
      obtain ⟨opening, left, hdrop⟩ := List.exists_cons_of_ne_nil hne
      refine ⟨_, opening, left, by rw [← hdrop, hsplit], habove, ?_, by rw [← hdrop]⟩
      have hfirst := List.head?_dropWhile_not (fun u : Token => !u.isOpening) before.waiting
      rw [hdrop] at hfirst
      simpa using hfirst
  · rintro ⟨above, opening, left, hwaiting, habove, hopening, rfl⟩
    obtain ⟨output, waiting, counts, previous⟩ := before
    obtain rfl : waiting = above ++ opening :: left := hwaiting
    exact closeGroup_above cause habove hopening

theorem moves_of_pushOperator (ht : t.kind = .operator) {next : Yard} (h : before.pushOperator r t = .ok next) :
    Moves r t before { next with previous := some .operator } := by
  obtain ⟨output, waiting, counts, previous⟩ := before
  obtain ⟨spec, hspec, h⟩ := bind_eq_ok.1 h
  rw [Registry.operator_eq_ok] at hspec
  by_cases harity : spec.arity ≤ 1
  · rw [if_pos harity] at h
    cases h
    exact .unary ht hspec harity
  · rw [if_neg harity] at h
    obtain ⟨parts, hparts, h⟩ := bind_eq_ok.1 h
    cases h
    exact .releasing ht hspec harity hparts

theorem moves_of_nextArgument (ht : t.kind = .comma) {next : Yard} (h : before.nextArgument t = .ok next) :
    Moves r t before { next with previous := some .comma } := by
  obtain ⟨output, waiting, counts, previous⟩ := before
  obtain ⟨closed, hclosed, h⟩ := bind_eq_ok.1 h
  obtain ⟨above, opening, left, rfl, habove, hopening, rfl⟩ := closeGroup_eq_ok.1 hclosed
  match left, counts with
  | [], _ => cases h
  | call :: left, counts =>
    by_cases hcall : call.isFunction = true
    · simp only [if_pos hcall] at h
      cases counts with
      | nil => cases h
      | cons n counts =>
        cases h
        exact .comma ht habove hopening hcall
    · simp only [if_neg hcall] at h
      cases h

theorem moves_of_endGroup (ht : t.kind = .closing) {next : Yard} (h : before.endGroup t = .ok next) :
    Moves r t before { next with previous := some .closing } := by
  obtain ⟨output, waiting, counts, previous⟩ := before
  obtain ⟨closed, hclosed, h⟩ := bind_eq_ok.1 h
  obtain ⟨above, opening, left, rfl, habove, hopening, rfl⟩ := closeGroup_eq_ok.1 hclosed
  simp only [List.drop_one, List.tail_cons] at h
  match left, counts with
  | [], _ =>
    cases h
    exact .closing ht habove hopening nofun
  | call :: left, counts =>
    by_cases hcall : call.isFunction = true
    · simp only [if_pos hcall] at h
      cases counts with
      | nil => cases h
      | cons n counts =>
        cases h
        exact .closingCall ht habove hopening hcall
    · simp only [if_neg hcall] at h
      cases h
      refine .closing ht habove hopening fun u hu => ?_
      cases hu
      exact Bool.eq_false_iff.2 hcall

theorem moves_of_take (h : take r before t = .ok after) : Moves r t before after := by
  rw [Yard.take] at h
  cases ht : t.kind with
  | operand => rw [ht] at h; cases h; exact .operand ht
  | function => rw [ht] at h; cases h; exact .function ht
  | opening => rw [ht] at h; cases h; exact .opening ht
  | operator =>
    rw [ht] at h
    obtain ⟨next, hnext, h⟩ := bind_eq_ok.1 h
    cases h
    exact moves_of_pushOperator ht hnext
  | comma =>
    rw [ht] at h
    obtain ⟨next, hnext, h⟩ := bind_eq_ok.1 h
    cases h
    exact moves_of_nextArgument ht hnext
  | closing =>
    rw [ht] at h
    obtain ⟨next, hnext, h⟩ := bind_eq_ok.1 h
    cases h
    exact moves_of_endGroup ht hnext

theorem Moves.take (h : Moves r t before after) : take r before t = .ok after := by
  cases h with
  | operand ht => exact take_operand ht
  | function ht => exact take_function ht
  | unary ht hspec harity => exact take_unary ht hspec harity
  | releasing ht hspec harity hyielding => exact take_releasing ht hspec harity hyielding
  | opening ht => rw [Yard.take, ht]; rfl
  | comma ht habove hopening hcall =>
    rw [Yard.take, ht]
    simp only [nextArgument, closeGroup_above t habove hopening, ok_bind, if_pos hcall]
    rfl
  | @closing output above left opening counts previous ht habove hopening hleft =>
    rw [Yard.take, ht]
    simp only [endGroup, closeGroup_above t habove hopening, ok_bind, List.drop_one, List.tail_cons]
    cases left with
    | nil => rfl
    | cons call left => simp only [hleft call rfl, Bool.false_eq_true, if_false]; rfl
  | closingCall ht habove hopening hcall =>
    rw [Yard.take, ht]
    simp only [endGroup, closeGroup_above t habove hopening, ok_bind, List.drop_one, List.tail_cons, if_pos hcall]
    rfl

theorem take_eq_ok : take r before t = .ok after ↔ Moves r t before after := ⟨moves_of_take, Moves.take⟩

/-- At the end nothing but operators and operands may wait, and all of it is released. -/
theorem release_eq_ok {waiting released : List Token} :
    release waiting = .ok released ↔ released = waiting ∧ ∀ t ∈ waiting, (t.isOpening || t.isFunction) = false := by
  induction waiting generalizing released with
  | nil => exact ⟨fun h => by cases h; exact ⟨rfl, List.forall_mem_nil _⟩, fun h => by rw [h.1]; rfl⟩
  | cons t waiting ih =>
    rw [release, List.forall_mem_cons]
    cases ht : t.isOpening || t.isFunction with
    | true =>
      refine iff_of_false (fun h => ?_) fun h => absurd h.2.1 (by decide)
      cases h
    | false =>
      simp only [Bool.false_eq_true, if_false, bind_eq_ok]
      constructor
      · rintro ⟨rest, hrest, heq⟩
        cases heq
        obtain ⟨rfl, hall⟩ := ih.1 hrest
        exact ⟨rfl, trivial, hall⟩
      · rintro ⟨rfl, -, hall⟩
        exact ⟨waiting, ih.2 ⟨rfl, hall⟩, rfl⟩

end Yard

/-- What the conversion gives is what was put out, and behind it what still waits. -/
theorem toPostfix_eq_ok {r : Registry} {tokens code : List Token} :
    r.toPostfix tokens = .ok code ↔
      ∃ yard, tokens.foldlM (Yard.take r) Yard.empty = .ok yard ∧
        (∀ t ∈ yard.waiting, (t.isOpening || t.isFunction) = false) ∧ code = yard.output ++ yard.waiting := by
  simp only [Registry.toPostfix, bind_eq_ok, Yard.release_eq_ok]
  constructor
  · rintro ⟨yard, hyard, released, ⟨rfl, hall⟩, heq⟩
    cases heq
    exact ⟨yard, hyard, hall, rfl⟩
  · rintro ⟨yard, hyard, hall, rfl⟩
    exact ⟨yard, hyard, _, ⟨rfl, hall⟩, rfl⟩

end Verdict.Expression
