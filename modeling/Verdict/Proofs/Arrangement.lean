/-
  Verdict.Proofs.Arrangement — the conversion rearranges its tokens and nothing else.

  Whatever the tokens are, each operand, operator and name of a call that was taken has
  been put out or still waits, and operands never wait (`Keeps`). So what is given in the
  end is a rearrangement of the tokens taken that keeps the operands in their order.

  In a text the name of a call leaves its level with the count of its arguments. What a
  level still owes is known from the tokens to come (`owed`): the operators below it, and
  the name with the commas counted so far and those directly within it that follow. By
  induction on these tokens, every name has in the end as many arguments as stand in the
  parentheses behind it (`Legible.pays`).
-/

import Verdict.Proofs.Levels
import Verdict.Proofs.Moves

namespace Verdict.Expression

/-! ## Instructions -/

namespace Token

def isOperand (t : Token) : Bool := t.kind == .operand

/-- Whether the token stands in postfix order too. -/
def isInstruction (t : Token) : Bool := t.isOperand || t.isOperator || t.isFunction

/-- The token, without its count if it is the name of a call. -/
def uncounted (t : Token) : Token := if t.isFunction then { t with arguments := 0 } else t

end Token

/-- The instructions among the tokens, without counts. -/
def instructions (tokens : List Token) : List Token := (tokens.filter Token.isInstruction).map Token.uncounted

def operands (tokens : List Token) : List Token := tokens.filter Token.isOperand

section

variable {t : Token} {ts us : List Token}

theorem instructions_cons (t : Token) (ts : List Token) :
    instructions (t :: ts) = instructions [t] ++ instructions ts := by
  rw [instructions, ← List.singleton_append, List.filter_append, List.map_append]
  rfl

theorem instructions_append (ts us : List Token) :
    instructions (ts ++ us) = instructions ts ++ instructions us := by
  rw [instructions, List.filter_append, List.map_append]
  rfl

/-- Parentheses and commas are no instructions. -/
theorem isInstruction_mark (ht : t.kind = .opening ∨ t.kind = .comma ∨ t.kind = .closing) :
    t.isInstruction = false := by
  rw [Token.isInstruction, Token.isOperand, Token.isOperator, Token.isFunction]
  rcases ht with ht | ht | ht <;> rw [ht] <;> rfl

theorem isInstruction_kind (ht : t.kind = .operand ∨ t.kind = .operator ∨ t.kind = .function) :
    t.isInstruction = true := by
  rw [Token.isInstruction, Token.isOperand, Token.isOperator, Token.isFunction]
  rcases ht with ht | ht | ht <;> rw [ht] <;> rfl

theorem instructions_mark (ht : t.kind = .opening ∨ t.kind = .comma ∨ t.kind = .closing) :
    instructions [t] = [] := by
  rw [instructions, List.filter_cons_of_neg (by rw [isInstruction_mark ht]; exact Bool.false_ne_true)]
  rfl

theorem instructions_counted (ht : t.isFunction = true) (n : Nat) :
    instructions [{ t with arguments := n }] = instructions [t] := by
  have hcounted : Token.isFunction { t with arguments := n } = true := ht
  simp only [instructions, List.filter_cons, List.filter_nil, Token.isInstruction, ht, hcounted, Bool.or_true, if_true,
    List.map_cons, Token.uncounted]

theorem operands_append (ts us : List Token) : operands (ts ++ us) = operands ts ++ operands us :=
  List.filter_append ts us

theorem operands_eq_nil (h : ∀ t ∈ ts, t.kind ≠ .operand) : operands ts = [] :=
  List.filter_eq_nil_iff.2 fun t ht hoperand => h t ht (eq_of_beq hoperand)

theorem operands_concat (ht : t.kind ≠ .operand) : operands (ts ++ [t]) = operands ts := by
  rw [operands_append, operands_eq_nil (List.forall_mem_singleton.2 ht), List.append_nil]

end

/-- Another instruction may stand wherever it likes. -/
theorem instructions_insert {tokens output waiting : List Token} (t : Token)
    (h : (instructions (output ++ waiting)).Perm (instructions tokens)) :
    (instructions (output ++ t :: waiting)).Perm (instructions (tokens ++ [t])) := by
  rw [instructions_append, instructions_cons, instructions_append tokens]
  refine (List.perm_append_comm.append_left _).trans ?_
  rw [← List.append_assoc, ← instructions_append]
  exact h.append_right _

/-! ## Any tokens -/

/-- Whether what was put out and what waits are the tokens that were taken. -/
structure Keeps (tokens output waiting : List Token) : Prop where
  kept : (instructions (output ++ waiting)).Perm (instructions tokens)
  ordered : operands output = operands tokens
  output : ∀ t ∈ output, t.isInstruction = true
  held : ∀ t ∈ waiting, t.kind = .operator ∨ t.kind = .function ∨ t.kind = .opening

namespace Keeps

variable {tokens output waiting released left : List Token} {t : Token}

theorem nil : Keeps [] [] [] := ⟨.refl _, rfl, List.forall_mem_nil _, List.forall_mem_nil _⟩

theorem operand (h : Keeps tokens output waiting) (ht : t.kind = .operand) :
    Keeps (tokens ++ [t]) (output ++ [t]) waiting := by
  refine ⟨?_, by rw [operands_append, operands_append, h.ordered], List.forall_mem_append.2 ⟨h.output, ?_⟩, h.held⟩
  · rw [← List.append_cons]
    exact instructions_insert t h.kept
  · exact List.forall_mem_singleton.2 (isInstruction_kind (.inl ht))

/-- No operand waits. -/
theorem wait (h : Keeps tokens output waiting) (ht : t.kind = .operator ∨ t.kind = .function ∨ t.kind = .opening) :
    Keeps (tokens ++ [t]) output (t :: waiting) := by
  have hoperand : t.kind ≠ .operand := by rcases ht with ht | ht | ht <;> rw [ht] <;> decide
  exact ⟨instructions_insert t h.kept, by rw [operands_concat hoperand, h.ordered], h.output,
    List.forall_mem_cons.2 ⟨ht, h.held⟩⟩

theorem skip (h : Keeps tokens output waiting) (ht : t.kind = .comma ∨ t.kind = .closing) :
    Keeps (tokens ++ [t]) output waiting := by
  have hoperand : t.kind ≠ .operand := by rcases ht with ht | ht <;> rw [ht] <;> decide
  refine ⟨?_, by rw [operands_concat hoperand, h.ordered], h.output, h.held⟩
  rw [instructions_append tokens, instructions_mark (.inr ht), List.append_nil]
  exact h.kept

theorem release (h : Keeps tokens output (released ++ left)) (hreleased : ∀ u ∈ released, u.isOpening = false) :
    Keeps tokens (output ++ released) left := by
  obtain ⟨hall, hleft⟩ := List.forall_mem_append.1 h.held
  refine ⟨by rw [List.append_assoc]; exact h.kept, ?_, List.forall_mem_append.2 ⟨h.output, fun u hu => ?_⟩, hleft⟩
  · have hnone : operands released = [] := operands_eq_nil fun u hu => by
      rcases hall u hu with hkind | hkind | hkind <;> rw [hkind] <;> decide
    rw [operands_append, hnone, List.append_nil, h.ordered]
  · have hclosed := hreleased u hu
    rcases hall u hu with hkind | hkind | hkind
    · exact isInstruction_kind (.inr (.inl hkind))
    · exact isInstruction_kind (.inr (.inr hkind))
    · simp [Token.isOpening, hkind] at hclosed

/-- A parenthesis is left out. -/
theorem close {opening : Token} (h : Keeps tokens output (opening :: left)) (hopening : opening.isOpening = true) :
    Keeps tokens output left := by
  refine ⟨?_, h.ordered, h.output, (List.forall_mem_cons.1 h.held).2⟩
  have hkept := h.kept
  rwa [instructions_append, instructions_cons, instructions_mark (.inl (eq_of_beq hopening)), List.nil_append,
    ← instructions_append] at hkept

/-- The name of a call is put out with a count. -/
theorem call {call : Token} (h : Keeps tokens output (call :: left)) (hcall : call.isFunction = true) (n : Nat) :
    Keeps tokens (output ++ [{ call with arguments := n }]) left := by
  have hcounted : Token.isFunction { call with arguments := n } = true := hcall
  have hoperand : Token.kind { call with arguments := n } ≠ .operand := by rw [eq_of_beq hcounted]; decide
  refine ⟨?_, (operands_concat hoperand).trans h.ordered, List.forall_mem_append.2 ⟨h.output, ?_⟩,
    (List.forall_mem_cons.1 h.held).2⟩
  · have hkept := h.kept
    rwa [instructions_append, instructions_cons, ← List.append_assoc, ← instructions_counted hcall n,
      ← instructions_append, ← instructions_append] at hkept
  · exact List.forall_mem_singleton.2 (isInstruction_kind (.inr (.inr (eq_of_beq hcounted))))

/-- Whatever a token does, it is kept. -/
theorem moves {r : Registry} {before after : Yard} (h : Keeps tokens before.output before.waiting)
    (hmoves : Yard.Moves r t before after) : Keeps (tokens ++ [t]) after.output after.waiting := by
  cases hmoves with
  | operand ht => exact h.operand ht
  | function ht => exact h.wait (.inr (.inl ht))
  | unary ht _ _ => exact h.wait (.inl ht)
  | releasing ht _ _ hyielding =>
    obtain ⟨rfl, hoperators⟩ := Yard.yielding_splits hyielding
    refine (h.release fun u hu => ?_).wait (.inl ht)
    rw [Token.isOpening, eq_of_beq (hoperators u hu)]
    rfl
  | opening ht => exact h.wait (.inr (.inr ht))
  | comma ht habove _ _ => exact (h.release habove).skip (.inl ht)
  | closing ht habove hopening _ => exact ((h.release habove).close hopening).skip (.inr ht)
  | closingCall ht habove hopening hcall =>
    exact (((h.release habove).close hopening).call hcall _).skip (.inr ht)

theorem foldlM {r : Registry} {before after : Yard} {ts : List Token} (h : Keeps tokens before.output before.waiting)
    (hrun : ts.foldlM (Yard.take r) before = .ok after) : Keeps (tokens ++ ts) after.output after.waiting := by
  induction ts generalizing tokens before with
  | nil =>
    cases hrun
    rwa [List.append_nil]
  | cons t ts ih =>
    rw [List.foldlM_cons, bind_eq_ok] at hrun
    obtain ⟨next, htake, hrun⟩ := hrun
    rw [List.append_cons]
    exact ih (h.moves (Yard.take_eq_ok.1 htake)) hrun

end Keeps

/-- What is given has all instructions among the tokens, and no others. -/
theorem toPostfix_keeps {r : Registry} {tokens code : List Token} (h : r.toPostfix tokens = .ok code) :
    Keeps tokens code [] := by
  obtain ⟨yard, hrun, hclosed, rfl⟩ := toPostfix_eq_ok.1 h
  have hempty : Keeps [] Yard.empty.output Yard.empty.waiting := .nil
  have hkeeps : Keeps tokens yard.output yard.waiting := hempty.foldlM hrun
  rw [← List.append_nil yard.waiting] at hkeeps
  exact hkeeps.release fun t ht => (Bool.or_eq_false_iff.1 (hclosed t ht)).1

/-! ## Counts -/

/-- The commas that stand directly within the parentheses that opened in front of the
    tokens, `depth` more having opened within them. -/
def commasWithin (depth : Nat) : List Token → Nat
  | [] => 0
  | t :: ts =>
    match t.kind, depth with
    | .opening, depth => commasWithin (depth + 1) ts
    | .closing, 0 => 0
    | .closing, depth + 1 => commasWithin depth ts
    | .comma, 0 => commasWithin 0 ts + 1
    | _, depth => commasWithin depth ts

def closesNext (ts : List Token) : Bool := ts.head?.any fun t => t.kind == .closing

/-- The number of arguments in the parentheses that are open in front of the tokens. -/
def argumentCount (ts : List Token) : Nat := if closesNext ts then 0 else commasWithin 0 ts + 1

/-- The tokens, where the name of each call has the number of arguments in the parentheses
    that open behind it. -/
def countArguments : List Token → List Token
  | [] => []
  | t :: ts => (if t.isFunction then { t with arguments := argumentCount ts.tail } else t) :: countArguments ts

/-- The instructions among the tokens, with the numbers of arguments. -/
def counted (ts : List Token) : List Token := (countArguments ts).filter Token.isInstruction

section

variable {t : Token} {ts us : List Token} {depth : Nat}

theorem commasWithin_opening (ht : t.kind = .opening) : commasWithin depth (t :: ts) = commasWithin (depth + 1) ts := by
  simp only [commasWithin, ht]

theorem commasWithin_closing (ht : t.kind = .closing) : commasWithin 0 (t :: ts) = 0 := by
  simp only [commasWithin, ht]

theorem commasWithin_closing_succ (ht : t.kind = .closing) :
    commasWithin (depth + 1) (t :: ts) = commasWithin depth ts := by
  simp only [commasWithin, ht]

theorem commasWithin_comma (ht : t.kind = .comma) : commasWithin 0 (t :: ts) = commasWithin 0 ts + 1 := by
  simp only [commasWithin, ht]

theorem commasWithin_comma_succ (ht : t.kind = .comma) :
    commasWithin (depth + 1) (t :: ts) = commasWithin (depth + 1) ts := by
  simp only [commasWithin, ht]

theorem commasWithin_instruction (ht : t.isInstruction = true) : commasWithin depth (t :: ts) = commasWithin depth ts := by
  cases hkind : t.kind <;> simp_all [commasWithin, Token.isInstruction, Token.isOperand, Token.isOperator, Token.isFunction]

theorem counted_instruction (ht : t.isInstruction = true) (hcall : t.isFunction = false) :
    counted (t :: ts) = t :: counted ts := by
  simp only [counted, countArguments, hcall, Bool.false_eq_true, if_false, List.filter_cons, ht, if_true]

theorem counted_mark (ht : t.isInstruction = false) : counted (t :: ts) = counted ts := by
  have hcall : t.isFunction = false := (Bool.or_eq_false_iff.1 ht).2
  simp only [counted, countArguments, hcall, Bool.false_eq_true, if_false, List.filter_cons, ht]

theorem counted_call {name : Token} (hname : name.isFunction = true) (ht : t.isInstruction = false) :
    counted (name :: t :: ts) = { name with arguments := argumentCount ts } :: counted ts := by
  have hcounted : ∀ n, Token.isInstruction { name with arguments := n } = true :=
    fun n => isInstruction_kind (.inr (.inr (eq_of_beq hname)))
  have hrest : counted (t :: ts) = counted ts := counted_mark ht
  rw [← hrest, counted, countArguments, if_pos hname, List.filter_cons, if_pos (hcounted _)]
  rfl

end

/-! ## What the levels owe -/

/-- The arguments of the innermost call, of which `n` have begun: none if it is closed at
    once. -/
def argumentsAhead (previous : Option TokenKind) (ts : List Token) (n : Nat) : Nat :=
  if previous = some .opening ∧ closesNext ts = true then 0 else n + commasWithin 0 ts

/-- What a level gives back when it is closed. -/
def Level.owed (arguments : Nat → Nat) (l : Level) : List Token :=
  match l.call? with
  | some (name, n) => { name with arguments := arguments n } :: l.operators
  | none => l.operators

def owedFrom (ts : List Token) (depth : Nat) : List Level → List Token
  | [] => []
  | l :: outer => l.owed (· + commasWithin depth ts) ++ owedFrom ts (depth + 1) outer

/-- What the levels give back when the tokens that are still to come close them. -/
def owed (previous : Option TokenKind) (ts : List Token) : List Level → List Token
  | [] => []
  | l :: outer => l.owed (argumentsAhead previous ts) ++ owedFrom ts 1 outer

section

variable {r : Registry} {t : Token} {ts us : List Token} {previous : Option TokenKind} {levels : List Level}

theorem owedFrom_congr {depth depth' : Nat} (h : ∀ n, commasWithin (depth + n) ts = commasWithin (depth' + n) us)
    (levels : List Level) : owedFrom ts depth levels = owedFrom us depth' levels := by
  induction levels generalizing depth depth' with
  | nil => rfl
  | cons l outer ih =>
    have hdeeper : ∀ n, commasWithin (depth + 1 + n) ts = commasWithin (depth' + 1 + n) us := fun n => by
      rw [Nat.add_assoc, Nat.add_assoc]
      exact h (1 + n)
    rw [owedFrom, owedFrom, ih hdeeper, show commasWithin depth ts = commasWithin depth' us from h 0]

/-- Unless the innermost call is closed at once. -/
theorem owed_eq (h : ¬(previous = some .opening ∧ closesNext ts = true)) :
    owed previous ts levels = owedFrom ts 0 levels := by
  cases levels with
  | nil => rfl
  | cons l outer =>
    have hahead : argumentsAhead previous ts = (· + commasWithin 0 ts) := funext fun n => if_neg h
    rw [owed, owedFrom, hahead]

theorem not_closesNext (ht : t.kind ≠ .closing) : ¬(previous = some .opening ∧ closesNext (t :: ts) = true) :=
  fun h => ht (eq_of_beq h.2)

theorem owed_instruction (ht : t.isInstruction = true) : owed previous (t :: ts) levels = owed (some t.kind) ts levels := by
  have hopening : t.kind ≠ .opening := fun hkind => by rw [isInstruction_mark (.inl hkind)] at ht; cases ht
  have hclosing : t.kind ≠ .closing := fun hkind => by rw [isInstruction_mark (.inr (.inr hkind))] at ht; cases ht
  rw [owed_eq (not_closesNext hclosing), owed_eq fun h => hopening (Option.some.inj h.1)]
  exact owedFrom_congr (fun n => commasWithin_instruction ht) levels

theorem owed_opening (ht : t.kind = .opening) : owed previous (t :: ts) levels = owedFrom ts 1 levels := by
  rw [owed_eq (not_closesNext (by rw [ht]; decide))]
  exact owedFrom_congr (fun n => by rw [commasWithin_opening ht, Nat.zero_add, Nat.add_comm]) levels

theorem owedFrom_closing (ht : t.kind = .closing) : owedFrom (t :: ts) 1 levels = owed (some .closing) ts levels := by
  rw [owed_eq (by simp)]
  exact owedFrom_congr (fun n => by rw [Nat.add_comm, commasWithin_closing_succ ht, Nat.zero_add]) levels

theorem owedFrom_comma (ht : t.kind = .comma) : owedFrom (t :: ts) 1 levels = owedFrom ts 1 levels :=
  owedFrom_congr (fun n => by rw [Nat.add_comm, commasWithin_comma_succ ht]) levels

end

/-! ## Texts -/

theorem perm_later {α : Type} (a : α) (as bs cs ds : List α) :
    (as ++ a :: bs ++ cs ++ ds).Perm (as ++ bs ++ cs ++ a :: ds) := by
  simp only [List.append_assoc, List.cons_append]
  refine List.Perm.append_left as ?_
  rw [← List.append_assoc bs, ← List.append_assoc bs]
  exact List.perm_middle.symm

section

variable {r : Registry} {t : Token} {ts output above : List Token} {previous : Option TokenKind} {levels : List Level}
  {yard : Yard}

/-- Whether what a conversion ends with is what it has put out, what waits above its
    levels, what the levels owe, and the instructions to come. -/
def Pays (yard : Yard) (output above : List Token) (previous : Option TokenKind) (ts : List Token)
    (levels : List Level) : Prop :=
  (yard.output ++ yard.waiting).Perm (output ++ above ++ owed previous ts levels ++ counted ts)

namespace Pays

theorem operand (ht : t.kind = .operand) (h : Pays yard (output ++ [t]) above (some .operand) ts levels) :
    Pays yard output above previous (t :: ts) levels := by
  have hinstruction := isInstruction_kind (.inl ht)
  have hcall : t.isFunction = false := by rw [Token.isFunction, ht]; rfl
  rw [Pays, owed_instruction hinstruction, counted_instruction hinstruction hcall, ht]
  refine List.Perm.trans h ?_
  rw [← List.append_cons]
  exact perm_later ..

theorem operator {released kept : List Token} (ht : t.kind = .operator)
    (h : Pays yard (output ++ released) (t :: kept) (some .operator) ts levels) :
    Pays yard output (released ++ kept) previous (t :: ts) levels := by
  have hinstruction := isInstruction_kind (.inr (.inl ht))
  have hcall : t.isFunction = false := by rw [Token.isFunction, ht]; rfl
  rw [Pays, owed_instruction hinstruction, counted_instruction hinstruction hcall, ht, ← List.append_assoc]
  exact List.Perm.trans h (perm_later ..)

theorem opening (ht : t.kind = .opening)
    (h : Pays yard output [] (some .opening) ts (⟨t, none, above⟩ :: levels)) :
    Pays yard output above previous (t :: ts) levels := by
  rw [Pays, owed_opening ht, counted_mark (isInstruction_mark (.inl ht))]
  simpa only [Pays, owed, Level.owed, List.append_assoc, List.nil_append] using h

theorem call {name : Token} (hname : name.kind = .function) (ht : t.kind = .opening)
    (h : Pays yard output [] (some .opening) ts (⟨t, some (name, 1), above⟩ :: levels)) :
    Pays yard output above previous (name :: t :: ts) levels := by
  have hcount : argumentsAhead (some .opening) ts 1 = argumentCount ts := by
    simp only [argumentsAhead, argumentCount, true_and, Nat.add_comm]
  rw [Pays, owed_instruction (isInstruction_kind (.inr (.inr hname))), owed_opening ht,
    counted_call (beq_iff_eq.2 hname) (isInstruction_mark (.inl ht))]
  refine List.Perm.trans h ?_
  simp only [owed, Level.owed, hcount, List.append_nil]
  have hlater := perm_later { name with arguments := argumentCount ts } output above (owedFrom ts 1 levels) (counted ts)
  simpa only [List.append_assoc, List.cons_append] using hlater

section

variable {operators : List Token} {outer : List Level} {opening : Token}

theorem comma {name : Token} {n : Nat} (ht : t.kind = .comma)
    (h : Pays yard (output ++ above) [] (some .comma) ts (⟨opening, some (name, n + 1), operators⟩ :: outer)) :
    Pays yard output above previous (t :: ts) (⟨opening, some (name, n), operators⟩ :: outer) := by
  have hcount : argumentsAhead previous (t :: ts) n = argumentsAhead (some .comma) ts (n + 1) := by
    rw [argumentsAhead, argumentsAhead, if_neg (not_closesNext (by rw [ht]; decide)), if_neg (by simp),
      commasWithin_comma ht]
    omega
  rw [Pays, counted_mark (isInstruction_mark (.inr (.inl ht)))]
  simpa only [Pays, owed, Level.owed, hcount, owedFrom_comma ht, List.append_nil] using h

theorem closing (ht : t.kind = .closing)
    (h : Pays yard (output ++ above) operators (some .closing) ts outer) :
    Pays yard output above previous (t :: ts) (⟨opening, none, operators⟩ :: outer) := by
  rw [Pays, counted_mark (isInstruction_mark (.inr (.inr ht)))]
  simpa only [Pays, owed, Level.owed, owedFrom_closing ht, List.append_assoc] using h

theorem closing_call {name : Token} {n : Nat} (ht : t.kind = .closing)
    (h : Pays yard (output ++ above ++ [{ name with arguments := if previous = some .opening then 0 else n }])
      operators (some .closing) ts outer) :
    Pays yard output above previous (t :: ts) (⟨opening, some (name, n), operators⟩ :: outer) := by
  have hcount : argumentsAhead previous (t :: ts) n = if previous = some .opening then 0 else n := by
    have hcloses : closesNext (t :: ts) = true := beq_iff_eq.2 ht
    simp only [argumentsAhead, hcloses, and_true, commasWithin_closing ht, Nat.add_zero]
  rw [Pays, counted_mark (isInstruction_mark (.inr (.inr ht)))]
  simpa only [Pays, owed, Level.owed, hcount, owedFrom_closing ht, List.append_assoc, List.cons_append,
    List.nil_append] using h

end

end Pays

/-- By induction on the tokens to come: what each of them moves is paid back in the end. -/
theorem Legible.pays (hts : Legible r ts) (habove : ∀ t ∈ above, t.Operates r) (hlevels : ∀ l ∈ levels, l.Sound r)
    (hprevious : previous ≠ some .function)
    (hrun : ts.foldlM (Yard.take r) (.at output above levels previous) = .ok yard)
    (hclosed : ∀ t ∈ yard.waiting, (t.isOpening || t.isFunction) = false) :
    Pays yard output above previous ts levels := by
  induction hts generalizing output above levels previous with
  | nil =>
    cases hrun
    cases levels with
    | nil => simp [Pays, Yard.at, owed, counted, countArguments]
    | cons l outer =>
      have hopen := hclosed l.opening (by simp [Yard.at, Level.waiting])
      rw [Token.isOpening, (hlevels l List.mem_cons_self).opening] at hopen
      cases hopen
  | @cons t ts hkind hknown _ ih =>
    rw [List.foldlM_cons] at hrun
    cases ht : t.kind with
    | operand =>
      rw [Yard.take_at_operand ht, ok_bind] at hrun
      exact .operand ht (ih habove hlevels (by decide) hrun)
    | operator =>
      have hoperates : t.Operates r := ⟨ht, hknown ht⟩
      obtain ⟨released, kept, rfl, htake⟩ := Yard.take_at_operator hoperates habove
      obtain ⟨-, hkept⟩ := List.forall_mem_append.1 habove
      rw [htake _ _ _ hlevels, ok_bind] at hrun
      exact .operator ht (ih (List.forall_mem_cons.2 ⟨hoperates, hkept⟩) hlevels (by decide) hrun)
    | function => exact absurd ht hkind
    | opening =>
      rw [Yard.take_at_opening ht hprevious, ok_bind] at hrun
      have hlevels := List.forall_mem_cons.2 ⟨Level.sound_group ht habove, hlevels⟩
      exact .opening ht (ih (List.forall_mem_nil _) hlevels (by decide) hrun)
    | comma =>
      rcases levels with _ | ⟨⟨opening, _ | ⟨name, n⟩, operators⟩, outer⟩
      · rw [Yard.take_at_unopened (.inl ht) habove] at hrun
        cases hrun
      · obtain ⟨hlevel, houter⟩ := List.forall_mem_cons.1 hlevels
        rw [Yard.take_at_comma_group ht habove hlevel houter] at hrun
        cases hrun
      · obtain ⟨hlevel, houter⟩ := List.forall_mem_cons.1 hlevels
        rw [Yard.take_at_comma ht habove hlevel, ok_bind] at hrun
        exact .comma ht (ih (List.forall_mem_nil _) (List.forall_mem_cons.2 ⟨hlevel.counted (n + 1), houter⟩)
          (by decide) hrun)
    | closing =>
      rcases levels with _ | ⟨⟨opening, _ | ⟨name, n⟩, operators⟩, outer⟩
      · rw [Yard.take_at_unopened (.inr ht) habove] at hrun
        cases hrun
      · obtain ⟨hlevel, houter⟩ := List.forall_mem_cons.1 hlevels
        rw [Yard.take_at_closing ht habove hlevel houter, ok_bind] at hrun
        exact .closing ht (ih hlevel.operators houter (by decide) hrun)
      · obtain ⟨hlevel, houter⟩ := List.forall_mem_cons.1 hlevels
        rw [Yard.take_at_closing_call ht habove hlevel, ok_bind] at hrun
        exact .closing_call ht (ih hlevel.operators houter (by decide) hrun)
  | @call name opening ts hname hopening _ ih =>
    simp only [List.foldlM_cons, ← bind_assoc] at hrun
    rw [Yard.take_at_call hname hopening, ok_bind] at hrun
    have hlevels := List.forall_mem_cons.2 ⟨Level.sound_call hname hopening habove 1, hlevels⟩
    exact .call hname hopening (ih (List.forall_mem_nil _) hlevels (by decide) hrun)

end

theorem toPostfix_counted {r : Registry} {tokens code : List Token} (htokens : Legible r tokens)
    (h : r.toPostfix tokens = .ok code) : code.Perm (counted tokens) := by
  obtain ⟨yard, hrun, hclosed, rfl⟩ := toPostfix_eq_ok.1 h
  have hempty : tokens.foldlM (Yard.take r) (.at [] [] [] none) = .ok yard := hrun
  exact htokens.pays (List.forall_mem_nil _) (List.forall_mem_nil _) (by decide) hempty hclosed

/-- Whatever tokens are converted, the outcome has the same operands, operators and names
    of calls, and the operands in the same order. In that of a text, the name of each call
    has the number of its arguments. -/
theorem Registry.toPostfix_rearranges {r : Registry} {tokens code : List Token}
    (h : r.toPostfix tokens = .ok code) :
    (code.map Token.uncounted).Perm ((tokens.filter Token.isInstruction).map Token.uncounted) ∧
      code.filter Token.isOperand = tokens.filter Token.isOperand ∧
      ∀ text, r.Registered → tokens = r.tokenize text →
        code.Perm ((countArguments tokens).filter Token.isInstruction) := by
  have hkeeps := toPostfix_keeps h
  refine ⟨?_, hkeeps.ordered, fun text hr htokens => ?_⟩
  · have hall : code.filter Token.isInstruction = code := List.filter_eq_self.2 hkeeps.output
    have hkept := hkeeps.kept
    rwa [List.append_nil, instructions, hall] at hkept
  · have hlegible : Legible r tokens := htokens ▸ legible_tokenize hr text
    exact toPostfix_counted hlegible h

/-- A call of two arguments, the second of which is one without any. -/
theorem Registry.toPostfix_rearranges_nested :
    let text := "f(a OR b,g())"
    let code : List Token := [⟨.operand, "a", 2, 0⟩, ⟨.operand, "b", 7, 0⟩, ⟨.operator, "OR", 4, 0⟩,
      ⟨.function, "G", 9, 0⟩, ⟨.function, "F", 0, 2⟩]
    (Registry.standard.Registered ∧ Registry.standard.toPostfix (Registry.standard.tokenize text) = .ok code) ∧
      code.filter Token.isOperand = (Registry.standard.tokenize text).filter Token.isOperand ∧
      code.Perm ((countArguments (Registry.standard.tokenize text)).filter Token.isInstruction) := by
  intro text code
  have hlexemes : lexemes 0 text.toList = [⟨['f'], 0⟩, ⟨['('], 1⟩, ⟨['a'], 2⟩, ⟨['O', 'R'], 4⟩, ⟨['b'], 7⟩, ⟨[','], 8⟩,
      ⟨['g'], 9⟩, ⟨['('], 10⟩, ⟨[')'], 11⟩, ⟨[')'], 12⟩] := by
    rw [show text.toList = ['f', '(', 'a', ' ', 'O', 'R', ' ', 'b', ',', 'g', '(', ')', ')'] by decide]
    simp +decide [lexemes]
  have hcode : Registry.standard.toPostfix (Registry.standard.tokenize text) = .ok code := by
    rw [Registry.tokenize, hlexemes]
    rfl
  obtain ⟨-, hordered, hcounted⟩ := Registry.toPostfix_rearranges hcode
  exact ⟨⟨.standard, hcode⟩, hordered, hcounted text .standard rfl⟩

end Verdict.Expression
