/-
  Verdict.Proofs.Conversion — what the conversion knows of the tokens that it has taken.

  Each token, whether it stands in its place or not, leaves waiting what belongs under the
  open parentheses (`Open`) and keeps the height to which the tokens lead abreast of a
  beginning of an expression (`Midway.operand`, `Midway.comma`, …). So a whole run does
  (`Lexed.midway`), and what comes out at its end has the height of an expression only if
  the tokens are one (`toPostfix_ends`). All that stops a run is a malformed expression.
-/

import Verdict.Proofs.Balance
import Mathlib.Algebra.GroupWithZero.Nat
import Mathlib.Data.List.TakeWhile

namespace Verdict.Expression

open Registry (standard)

/-! ## What waits -/

/-- Waiting tokens under open parentheses: operators between them, and in front of the
    parenthesis of a call its name. `counts` has the arguments of each call. -/
inductive Open : List Bracket → List Nat → List Token → Prop
  | bottom {above : List Token} : (∀ t ∈ above, t.IsBuiltin) → Open [] [] above
  | group {within : List Bracket} {counts : List Nat} {above left : List Token} {opening : Token} :
      (∀ t ∈ above, t.IsBuiltin) → opening.kind = .opening → Open within counts left →
      Open (.group :: within) counts (above ++ opening :: left)
  | call {within : List Bracket} {n : Nat} {counts : List Nat} {above left : List Token}
      {opening name : Token} :
      (∀ t ∈ above, t.IsBuiltin) → opening.kind = .opening → name.kind = .function →
      name.arguments = 0 → Open within counts left →
      Open (.call :: within) (n :: counts) (above ++ opening :: name :: left)

namespace Open

variable {within : List Bracket} {counts : List Nat} {waiting : List Token} {t : Token}

theorem operator (h : Open within counts waiting) (ht : t.IsBuiltin) : Open within counts (t :: waiting) := by
  cases h with
  | bottom habove => exact .bottom (List.forall_mem_cons.2 ⟨ht, habove⟩)
  | group habove hopening hleft => exact .group (List.forall_mem_cons.2 ⟨ht, habove⟩) hopening hleft
  | call habove hopening hname harguments hleft =>
    exact .call (List.forall_mem_cons.2 ⟨ht, habove⟩) hopening hname harguments hleft

theorem opening (h : Open within counts waiting) (ht : t.kind = .opening) :
    Open (.group :: within) counts (t :: waiting) := .group (List.forall_mem_nil _) ht h

theorem head_ne_function (h : Open within counts waiting) : ∀ u ∈ waiting.head?, u.kind ≠ .function := by
  have hfront : ∀ {above left : List Token} {opening : Token}, (∀ t ∈ above, t.IsBuiltin) →
      opening.kind = .opening → ∀ u ∈ (above ++ opening :: left).head?, u.kind ≠ .function := by
    intro above left opening habove hopening u hu
    cases above with
    | nil =>
      cases hu
      rw [hopening]
      decide
    | cons t above =>
      cases hu
      rw [(habove u List.mem_cons_self).1]
      decide
  cases h with
  | bottom habove =>
    intro u hu
    rw [(habove u (List.mem_of_mem_head? hu)).1]
    decide
  | group habove hopening _ => exact hfront habove hopening
  | call habove hopening _ _ _ => exact hfront habove hopening

end Open

theorem Token.IsBuiltin.operates {t : Token} (h : t.IsBuiltin) : t.Operates standard := by
  obtain ⟨hkind, b, htext⟩ := h
  exact ⟨hkind, by rw [htext, Registry.standard_intact.builtin b]; rfl⟩

theorem Open.yielding {within : List Bracket} {counts : List Nat} {waiting : List Token}
    (h : Open within counts waiting) (precedence : Int) :
    ∃ released left, Yard.yielding standard precedence waiting = .ok (released, left) ∧
      waiting = released ++ left ∧ (∀ t ∈ released, t.IsBuiltin) ∧ Open within counts left := by
  have hopening : ∀ {opening : Token} {left : List Token}, opening.kind = .opening →
      ∀ t ∈ (opening :: left).head?, t.kind ≠ .operator := by
    intro opening left hkind t ht
    cases ht
    rw [hkind]
    decide
  cases h with
  | @bottom above habove =>
    obtain ⟨released, kept, rfl, hyielding⟩ := Yard.yielding_uppermost precedence fun t ht => (habove t ht).operates
    obtain ⟨hreleased, hkept⟩ := List.forall_mem_append.1 habove
    have hyielding := hyielding [] fun t ht => absurd ht (Option.not_mem_none t)
    simp only [List.append_nil] at hyielding
    exact ⟨released, kept, hyielding, rfl, hreleased, .bottom hkept⟩
  | group habove hkind hleft =>
    obtain ⟨released, kept, rfl, hyielding⟩ := Yard.yielding_uppermost precedence fun t ht => (habove t ht).operates
    obtain ⟨hreleased, hkept⟩ := List.forall_mem_append.1 habove
    exact ⟨released, _, hyielding _ (hopening hkind), List.append_assoc .., hreleased, .group hkept hkind hleft⟩
  | call habove hkind hname harguments hleft =>
    obtain ⟨released, kept, rfl, hyielding⟩ := Yard.yielding_uppermost precedence fun t ht => (habove t ht).operates
    obtain ⟨hreleased, hkept⟩ := List.forall_mem_append.1 habove
    exact ⟨released, _, hyielding _ (hopening hkind), List.append_assoc .., hreleased,
      .call hkept hkind hname harguments hleft⟩

def IsMalformed (e : Error) : Prop := e.family = .malformedExpression

/-! ## One token -/

namespace Yard

variable {r : Registry} {output waiting above : List Token} {counts : List Nat} {t : Token}
  {previous : Option TokenKind}

/-- A comma or closing parenthesis needs an open parenthesis. -/
theorem take_unopened (ht : t.kind = .comma ∨ t.kind = .closing) (h : ∀ u ∈ waiting, u.kind = .operator) :
    take r ⟨output, waiting, counts, previous⟩ t = .error (.malformed (.unexpected t.text t.position)) := by
  have hnone : (waiting.dropWhile fun u => !u.isOpening) = [] := by
    refine List.dropWhile_eq_nil_iff.2 fun u hu => ?_
    rw [Token.isOpening, h u hu]
    rfl
  have hclose : closeGroup t ⟨output, waiting, counts, previous⟩ =
      .error (.malformed (.unexpected t.text t.position)) := by
    rw [closeGroup]
    simp only [hnone]
  unfold take
  rcases ht with ht | ht
  · simp only [ht, nextArgument, hclose]
    rfl
  · simp only [ht, endGroup, hclose]
    rfl

theorem take_comma_group {opening : Token} (ht : t.kind = .comma) (habove : ∀ u ∈ above, u.kind = .operator)
    (hopening : opening.kind = .opening) (hwaiting : ∀ u ∈ waiting.head?, u.kind ≠ .function) :
    take r ⟨output, above ++ opening :: waiting, counts, previous⟩ t =
      .error (.malformed (.commaOutsideCall t.position)) := by
  rw [take, ht]
  simp only [nextArgument, closeGroup_open habove hopening, ok_bind]
  cases waiting with
  | nil => rfl
  | cons u waiting =>
    have hfunction : ¬u.isFunction = true := fun h => hwaiting u rfl (eq_of_beq h)
    simp only [if_neg hfunction]
    rfl

/-- The height of the stack to which the tokens lead, were nothing more to come. -/
def balance (yard : Yard) : Int := gains yard.output + gains yard.waiting - (yard.counts.sum : Nat)

end Yard

/-- Whether the token may stand in postfix order. -/
def Token.IsCode (t : Token) : Prop := t.kind = .operand ∨ t.kind = .function ∨ t.IsBuiltin

/-- What is known of the conversion of tokens within open parentheses. -/
structure Midway (within : List Bracket) (tokens : List Token) (yard : Yard) : Prop where
  waiting : Open within yard.counts yard.waiting
  output : ∀ t ∈ yard.output, t.IsCode
  previous : yard.previous = tokens.getLast?.map Token.kind
  settled : yard.previous ≠ some .function
  /-- The count of a call begins with one. -/
  counted : yard.previous = some .opening → within.head? = some .call → yard.counts.head? = some 1
  kept : (∃ t ∈ tokens, ¬t.IsParenthesis) → ∃ t ∈ yard.output ++ yard.waiting, t.kind ≠ .opening
  abreast : Separated tokens → Abreast yard.balance within yard.previous tokens

def Reaches (tokens : List Token) (yard : Yard) : Prop := ∃ within, Midway within tokens yard

theorem midway_empty : Midway [] [] Yard.empty where
  waiting := .bottom (List.forall_mem_nil _)
  output := List.forall_mem_nil _
  previous := rfl
  settled := by decide
  counted h := nomatch h
  kept h := by simp at h
  abreast _ := ⟨by decide, fun _ => Opened.start.awaits⟩

namespace Midway

variable {within : List Bracket} {tokens : List Token} {yard : Yard} {t : Token}

theorem before (h : Midway within tokens yard) (hseparated : Separated (tokens ++ [t])) :
    Abreast yard.balance within yard.previous tokens ∧
      (t.BeginsOperand → operandMayBegin yard.previous = true) := by
  rw [h.previous]
  exact ⟨h.previous ▸ h.abreast hseparated.before.1, hseparated.before.2⟩

theorem kept_before (h : Midway within tokens yard) (ht : t.IsParenthesis)
    (hsome : ∃ u ∈ tokens ++ [t], ¬u.IsParenthesis) : ∃ u ∈ yard.output ++ yard.waiting, u.kind ≠ .opening := by
  obtain ⟨u, hu, hnot⟩ := hsome
  rcases List.mem_append.1 hu with hu | hu
  · exact h.kept ⟨u, hu, hnot⟩
  · exact absurd (List.mem_singleton.1 hu ▸ ht) hnot

theorem operand (h : Midway within tokens yard) (ht : t.kind = .operand) :
    Ends IsMalformed (Reaches (tokens ++ [t])) (yard.take standard t) := by
  obtain ⟨output, waiting, counts, previous⟩ := yard
  rw [Yard.take_operand ht]
  refine ⟨within, h.waiting, ?_, by simp [ht], by simp, by simp, ?_, fun hseparated => ?_⟩
  · exact List.forall_mem_append.2 ⟨h.output, List.forall_mem_singleton.2 (.inl ht)⟩
  · exact fun _ => ⟨t, by simp, by simp [ht]⟩
  · obtain ⟨habreast, hbegins⟩ := h.before hseparated
    refine habreast.after_awaited (hbegins (.inl (by simp [ht]))) ?_ fun hawaits => hawaits.operand ht
    simp [Yard.balance, gain_operand ht, level, operandMayBegin]
    omega

/-- `NOT` waits for its operand. -/
theorem negation (h : Midway within tokens yard) (ht : t.IsNegation) :
    Ends IsMalformed (Reaches (tokens ++ [t])) (yard.take standard t) := by
  obtain ⟨output, waiting, counts, previous⟩ := yard
  have hspec : standard.operator? t.text = some Builtin.not.spec := by rw [ht.2]; rfl
  have hgain : t.gain = 0 := gain_builtin ht.1 ht.2
  rw [Yard.take_unary ht.1 hspec (by decide)]
  refine ⟨within, h.waiting.operator ⟨ht.1, .not, ht.2⟩, h.output, by simp [ht.1], by simp, by simp, ?_,
    fun hseparated => ?_⟩
  · exact fun _ => ⟨t, by simp, by simp [ht.1]⟩
  · obtain ⟨habreast, hbegins⟩ := h.before hseparated
    refine habreast.after_awaited (hbegins (.inr ht)) ?_ fun hawaits => hawaits.negation ht
    simp [Yard.balance, hgain, level, operandMayBegin]

/-- An operator of more operands; of two, if it is a connective. -/
theorem connective (h : Midway within tokens yard) {b : Builtin} (ht : t.kind = .operator)
    (htext : t.text = b.key) (hb : b ≠ .not) :
    Ends IsMalformed (Reaches (tokens ++ [t])) (yard.take standard t) := by
  obtain ⟨output, waiting, counts, previous⟩ := yard
  have hspec : standard.operator? t.text = some b.spec := htext ▸ Registry.standard_intact.builtin b
  have harity : ¬b.spec.arity ≤ 1 := by
    by_cases hconnective : b ∈ Builtin.connectives
    · rw [show b.spec.arity = 2 from Builtin.arity_connective hconnective]
      decide
    · rw [show b.spec.arity = 3 from Builtin.arity_other hb hconnective]
      decide
  have hgain := gain_builtin ht htext
  obtain ⟨released, left, hyielding, rfl, hreleased, hleft⟩ := h.waiting.yielding b.spec.precedence
  have hbuiltin : t.IsBuiltin := ⟨ht, b, htext⟩
  rw [Yard.take_releasing ht hspec harity hyielding]
  refine ⟨within, hleft.operator hbuiltin, ?_, by simp [ht], by simp, by simp, ?_, fun hseparated => ?_⟩
  · exact List.forall_mem_append.2 ⟨h.output, fun u hu => .inr (.inr (hreleased u hu))⟩
  · exact fun _ => ⟨t, by simp, by simp [ht]⟩
  · obtain ⟨habreast, -⟩ := h.before hseparated
    by_cases hconnective : b ∈ Builtin.connectives
    · refine habreast.after_completed ?_ fun hcompletes => hcompletes.connective ⟨ht, b, hconnective, htext⟩
      have htwo : b.arity = 2 := Builtin.arity_connective hconnective
      simp [Yard.balance, hgain, htwo, level, operandMayBegin]
      omega
    · -- the conditional takes three operands but stands between two at most
      have hthree : b.arity = 3 := Builtin.arity_other hb hconnective
      refine habreast.behind ?_
      simp [Yard.balance, hgain, hthree, level, operandMayBegin]
      omega

theorem operator (h : Midway within tokens yard) (ht : t.IsBuiltin) :
    Ends IsMalformed (Reaches (tokens ++ [t])) (yard.take standard t) := by
  obtain ⟨hkind, b, htext⟩ := ht
  by_cases hb : b = .not
  · exact h.negation ⟨hkind, hb ▸ htext⟩
  · exact h.connective hkind htext hb

theorem opening (h : Midway within tokens yard) (ht : t.kind = .opening) :
    Ends IsMalformed (Reaches (tokens ++ [t])) (yard.take standard t) := by
  obtain ⟨output, waiting, counts, previous⟩ := yard
  rw [Yard.take_opening ht h.settled]
  refine ⟨.group :: within, h.waiting.opening ht, h.output, by simp [ht], by simp, by simp, ?_,
    fun hseparated => ?_⟩
  · intro hsome
    obtain ⟨u, hu, hkind⟩ := h.kept_before (.inl ht) hsome
    refine ⟨u, ?_, hkind⟩
    simp only [List.mem_append, List.mem_cons] at hu ⊢
    tauto
  · obtain ⟨habreast, hbegins⟩ := h.before hseparated
    refine habreast.after_awaited (hbegins (.inl (by simp [ht]))) ?_ fun hawaits => hawaits.opening ht
    simp [Yard.balance, gain_opening ht, level, operandMayBegin]

/-- The name of a call and its parenthesis. -/
theorem call {name : Token} (h : Midway within tokens yard) (hname : name.kind = .function)
    (harguments : name.arguments = 0) (ht : t.kind = .opening) :
    Ends IsMalformed (Reaches (tokens ++ [name, t])) (yard.take standard name >>= (Yard.take standard · t)) := by
  obtain ⟨output, waiting, counts, previous⟩ := yard
  have hgain := gain_uncounted hname harguments
  rw [Yard.take_function hname, ok_bind, Yard.take_opening_call ht]
  refine ⟨.call :: within, .call (List.forall_mem_nil _) ht hname harguments h.waiting, h.output, by simp [ht],
    by simp, by simp, fun _ => ⟨name, by simp, by simp [hname]⟩, fun hseparated => ?_⟩
  have hseparated : Separated (tokens ++ [name] ++ [t]) := by simpa using hseparated
  obtain ⟨habreast, hbegins⟩ := h.before hseparated.before.1
  refine habreast.after_awaited (hbegins (.inl (by simp [hname]))) ?_ fun hawaits => hawaits.call hname ht
  simp [Yard.balance, hgain, gain_opening ht, level, operandMayBegin]
  omega

theorem comma (h : Midway within tokens yard) (ht : t.kind = .comma) :
    Ends IsMalformed (Reaches (tokens ++ [t])) (yard.take standard t) := by
  obtain ⟨output, waiting, counts, previous⟩ := yard
  have hwaiting : Open within counts waiting := h.waiting
  cases hwaiting with
  | bottom habove =>
    rw [Yard.take_unopened (.inl ht) fun u hu => (habove u hu).1]
    rfl
  | group habove hopening hleft =>
    rw [Yard.take_comma_group ht (fun u hu => (habove u hu).1) hopening hleft.head_ne_function]
    rfl
  | @call within n counts above left opening name habove hopening hname harguments hleft =>
    rw [Yard.take_comma ht (fun u hu => (habove u hu).1) hopening hname]
    refine ⟨.call :: within, .call (List.forall_mem_nil _) hopening hname harguments hleft, ?_, by simp [ht],
      by simp, by simp, fun _ => ⟨name, by simp, by simp [hname]⟩, fun hseparated => ?_⟩
    · exact List.forall_mem_append.2 ⟨h.output, fun u hu => .inr (.inr (habove u hu))⟩
    · obtain ⟨habreast, -⟩ := h.before hseparated
      refine habreast.after_completed ?_ fun hcompletes => hcompletes.comma ht
      simp [Yard.balance, level, operandMayBegin]
      omega

section

variable {output above left : List Token} {counts : List Nat} {previous : Option TokenKind} {opening : Token}

theorem closing_group (ht : t.kind = .closing) (habove : ∀ u ∈ above, u.IsBuiltin)
    (hopening : opening.kind = .opening) (hleft : Open within counts left)
    (h : Midway (.group :: within) tokens ⟨output, above ++ opening :: left, counts, previous⟩) :
    Ends IsMalformed (Reaches (tokens ++ [t]))
      (Yard.take standard ⟨output, above ++ opening :: left, counts, previous⟩ t) := by
  rw [Yard.take_closing ht (fun u hu => (habove u hu).1) hopening hleft.head_ne_function]
  refine ⟨within, hleft, ?_, by simp [ht], by simp, by simp, ?_, fun hseparated => ?_⟩
  · exact List.forall_mem_append.2 ⟨h.output, fun u hu => .inr (.inr (habove u hu))⟩
  · intro hsome
    obtain ⟨u, hu, hkind⟩ := h.kept_before (.inr ht) hsome
    refine ⟨u, ?_, hkind⟩
    have hne : u ≠ opening := fun heq => hkind (heq ▸ hopening)
    simp only [List.mem_append, List.mem_cons] at hu ⊢
    tauto
  · obtain ⟨habreast, -⟩ := h.before hseparated
    refine habreast.after_completed ?_ fun hcompletes => hcompletes.closing ht
    simp [Yard.balance, gain_opening hopening, level, operandMayBegin]
    omega

theorem closing_call {n : Nat} {name : Token} (ht : t.kind = .closing)
    (habove : ∀ u ∈ above, u.IsBuiltin) (hopening : opening.kind = .opening)
    (hname : name.kind = .function) (harguments : name.arguments = 0) (hleft : Open within counts left)
    (h : Midway (.call :: within) tokens
      ⟨output, above ++ opening :: name :: left, n :: counts, previous⟩) :
    Ends IsMalformed (Reaches (tokens ++ [t]))
      (Yard.take standard ⟨output, above ++ opening :: name :: left, n :: counts, previous⟩ t) := by
  rw [Yard.take_closing_call ht (fun u hu => (habove u hu).1) hopening hname]
  have hname' := gain_uncounted hname harguments
  refine ⟨within, hleft, ?_, by simp [ht], by simp, by simp, ?_, fun hseparated => ?_⟩
  · simp only [List.forall_mem_append, List.forall_mem_singleton]
    exact ⟨⟨h.output, fun u hu => .inr (.inr (habove u hu))⟩, .inr (.inl hname)⟩
  · intro _
    refine ⟨_, List.mem_append_left _ (List.mem_append_right _ (List.mem_singleton_self _)), ?_⟩
    rw [hname]
    decide
  · obtain ⟨habreast, -⟩ := h.before hseparated
    by_cases hbare : previous = some .opening
    · -- no argument, though the count began with one
      subst hbare
      obtain rfl : n = 1 := Option.some.inj (h.counted rfl rfl)
      have hgain : ({ name with arguments := 0 } : Token).gain = 1 := gain_uncounted hname rfl
      refine habreast.after_opened ?_ fun hopened => hopened.closing ht
      simp [Yard.balance, gain_opening hopening, hgain, hname', level, operandMayBegin]
      omega
    · have hgain : ({ name with arguments := n } : Token).gain = 1 - n := gain_function hname
      refine habreast.after_completed ?_ fun hcompletes => hcompletes.closing ht
      simp [Yard.balance, gain_opening hopening, hgain, hname', hbare, level, operandMayBegin]
      omega

end

theorem closing (h : Midway within tokens yard) (ht : t.kind = .closing) :
    Ends IsMalformed (Reaches (tokens ++ [t])) (yard.take standard t) := by
  obtain ⟨output, waiting, counts, previous⟩ := yard
  have hwaiting : Open within counts waiting := h.waiting
  cases hwaiting with
  | bottom habove =>
    rw [Yard.take_unopened (.inr ht) fun u hu => (habove u hu).1]
    rfl
  | group habove hopening hleft => exact closing_group ht habove hopening hleft h
  | call habove hopening hname harguments hleft =>
    exact closing_call ht habove hopening hname harguments hleft h

end Midway

/-! ## Whole runs -/

section

variable {tokens ts : List Token} {yard : Yard}

theorem foldlM_step {t : Token} (hstep : Ends IsMalformed (Reaches (tokens ++ [t])) (yard.take standard t))
    (hrest : ∀ {within : List Bracket} {yard : Yard}, Midway within (tokens ++ [t]) yard →
      Ends IsMalformed (Reaches (tokens ++ [t] ++ ts)) (ts.foldlM (Yard.take standard) yard)) :
    Ends IsMalformed (Reaches (tokens ++ t :: ts)) ((t :: ts).foldlM (Yard.take standard) yard) := by
  rw [List.foldlM_cons, List.append_cons]
  refine hstep.bind fun next hnext => ?_
  obtain ⟨within, hmidway⟩ := hnext
  exact hrest hmidway

/-- By induction on how the tokens are read, a call with its parenthesis at once. -/
theorem Lexed.midway (hts : Lexed ts) {within : List Bracket} (h : Midway within tokens yard) :
    Ends IsMalformed (Reaches (tokens ++ ts)) (ts.foldlM (Yard.take standard) yard) := by
  induction hts generalizing within tokens yard with
  | nil =>
    rw [List.append_nil]
    exact ⟨within, h⟩
  | operand ht _ ih => exact foldlM_step (h.operand ht) ih
  | operator ht _ ih => exact foldlM_step (h.operator ht) ih
  | opening ht _ ih => exact foldlM_step (h.opening ht) ih
  | comma ht _ ih => exact foldlM_step (h.comma ht) ih
  | closing ht _ ih => exact foldlM_step (h.closing ht) ih
  | @call name opening ts hname harguments hopening _ ih =>
    have hstep := h.call hname harguments hopening
    rw [List.foldlM_cons]
    simp only [List.foldlM_cons, ← bind_assoc]
    refine hstep.bind fun next hnext => ?_
    obtain ⟨within, hmidway⟩ := hnext
    have hrest := ih hmidway
    rwa [List.append_assoc] at hrest

end

/-- What a finished conversion says of its tokens. -/
structure Code (tokens code : List Token) : Prop where
  isCode : ∀ t ∈ code, t.IsCode
  ne_nil : (∃ t ∈ tokens, ¬t.IsParenthesis) → code ≠ []
  abreast : Separated tokens → Abreast (gains code) [] (tokens.getLast?.map Token.kind) tokens

/-- At the end nothing may be open. -/
theorem Midway.code {tokens : List Token} {within : List Bracket} {yard : Yard} (h : Midway within tokens yard) :
    Ends IsMalformed (Code tokens) (do return yard.output ++ (← Yard.release yard.waiting)) := by
  obtain ⟨output, waiting, counts, previous⟩ := yard
  have hwaiting : Open within counts waiting := h.waiting
  cases hwaiting with
  | bottom habove =>
    have hrelease := Yard.release_operators fun t ht => (habove t ht).1
    simp only [hrelease, ok_bind]
    refine ⟨List.forall_mem_append.2 ⟨h.output, fun t ht => .inr (.inr (habove t ht))⟩, ?_, ?_⟩
    · intro hsome hnil
      obtain ⟨t, ht, -⟩ := h.kept hsome
      rw [hnil] at ht
      cases ht
    · intro hseparated
      have habreast := h.abreast hseparated
      rw [h.previous] at habreast
      simpa [Yard.balance] using habreast
  | group habove hopening _ | call habove hopening _ _ _ =>
    simp only [Yard.release_unclosed (fun t ht => (habove t ht).1) hopening]
    rfl

theorem toPostfix_ends {tokens : List Token} (h : Lexed tokens) :
    Ends IsMalformed (Code tokens) (standard.toPostfix tokens) := by
  refine (h.midway midway_empty).bind fun yard hyard => ?_
  obtain ⟨within, hmidway⟩ := hyard
  exact hmidway.code

end Verdict.Expression
