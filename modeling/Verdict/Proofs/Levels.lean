/-
  Verdict.Proofs.Levels — the conversion of a text within its open parentheses.

  What waits during the conversion lies in levels, one for each open parenthesis
  (`Level`): the operators that wait below it, and the name of its call with the arguments
  counted so far. A token moves operators of the uppermost level only, and a parenthesis
  puts a level on or takes one off (`take_at_operator`, `take_at_comma`, …). So the levels
  are the parentheses that are open in the text, a token is refused exactly where it
  strays (`Reached.take`), and the whole text is converted exactly if its tokens nest and
  leave nothing open (`Registry.toPostfix_nests`).
-/

import Verdict.Proofs.Acceptance
import Verdict.Proofs.Nesting

namespace Verdict.Expression

open Registry (standard)

/-! ## Levels -/

/-- An open parenthesis with what waits below it. -/
structure Level where
  opening : Token
  /-- The name of the call and its arguments so far, if the parenthesis is that of one. -/
  call? : Option (Token × Nat)
  operators : List Token

namespace Level

def waiting (l : Level) : List Token := l.opening :: (l.call?.map Prod.fst).toList ++ l.operators

def counts (l : Level) : List Nat := (l.call?.map Prod.snd).toList

def paren (l : Level) : Paren := ⟨if l.call?.isSome then .call else .group, l.opening.position⟩

structure Sound (r : Registry) (l : Level) : Prop where
  opening : l.opening.kind = .opening
  call : ∀ c ∈ l.call?, c.1.kind = .function
  operators : ∀ t ∈ l.operators, t.Operates r

section

variable {r : Registry} {opening name : Token} {n : Nat} {operators : List Token}

theorem sound_group (hopening : opening.kind = .opening) (hoperators : ∀ t ∈ operators, t.Operates r) :
    Sound r ⟨opening, none, operators⟩ :=
  ⟨hopening, fun c hc => absurd hc (Option.not_mem_none c), hoperators⟩

theorem sound_call (hname : name.kind = .function) (hopening : opening.kind = .opening)
    (hoperators : ∀ t ∈ operators, t.Operates r) (n : Nat) : Sound r ⟨opening, some (name, n), operators⟩ := by
  refine ⟨hopening, fun c hc => ?_, hoperators⟩
  cases hc
  exact hname

/-- However many arguments are counted. -/
theorem Sound.counted (h : Sound r ⟨opening, some (name, n), operators⟩) (m : Nat) :
    Sound r ⟨opening, some (name, m), operators⟩ :=
  sound_call (h.call (name, n) rfl) h.opening h.operators m

end

end Level

/-- The conversion within the levels, with operators waiting above them. -/
def Yard.at (output above : List Token) (levels : List Level) (previous : Option TokenKind) : Yard :=
  ⟨output, above ++ levels.flatMap Level.waiting, levels.flatMap Level.counts, previous⟩

section

variable {r : Registry} {above : List Token} {levels : List Level}

/-- Below operators is a parenthesis, if anything. -/
theorem head_waiting (hlevels : ∀ l ∈ levels, l.Sound r) :
    ∀ t ∈ (levels.flatMap Level.waiting).head?, t.kind = .opening := by
  cases levels with
  | nil => exact fun t ht => nomatch ht
  | cons l outer =>
    intro t ht
    cases ht
    exact (hlevels l List.mem_cons_self).opening

theorem head_ne_function (habove : ∀ t ∈ above, t.Operates r) (hlevels : ∀ l ∈ levels, l.Sound r) :
    ∀ t ∈ (above ++ levels.flatMap Level.waiting).head?, t.kind ≠ .function := by
  intro t ht
  cases above with
  | nil => rw [head_waiting hlevels t ht]; decide
  | cons u above => cases ht; rw [(habove _ List.mem_cons_self).1]; decide

end

/-! ## One token -/

namespace Yard

variable {r : Registry}

section

variable {t : Token} {output above operators : List Token} {levels outer : List Level}
  {previous : Option TokenKind} {opening name : Token} {n : Nat}

theorem take_at_operand (ht : t.kind = .operand) :
    take r (.at output above levels previous) t = .ok (.at (output ++ [t]) above levels (some .operand)) :=
  take_operand ht

/-- An operator releases some of those above the innermost parenthesis. -/
theorem take_at_operator (ht : t.Operates r) (habove : ∀ u ∈ above, u.Operates r) :
    ∃ released kept, above = released ++ kept ∧
      ∀ output levels previous, (∀ l ∈ levels, l.Sound r) →
        take r (.at output above levels previous) t =
          .ok (.at (output ++ released) (t :: kept) levels (some .operator)) := by
  obtain ⟨hkind, hknown⟩ := ht
  obtain ⟨spec, hspec⟩ := Option.isSome_iff_exists.1 hknown
  by_cases harity : spec.arity ≤ 1
  · refine ⟨[], above, rfl, fun output levels previous _ => ?_⟩
    rw [List.append_nil]
    exact take_unary hkind hspec harity
  · obtain ⟨released, kept, rfl, hyielding⟩ := yielding_uppermost spec.precedence habove
    refine ⟨released, kept, rfl, fun output levels previous hlevels => ?_⟩
    refine take_releasing hkind hspec harity (hyielding _ fun u hu => ?_)
    rw [head_waiting hlevels u hu]
    decide

theorem take_at_opening (ht : t.kind = .opening) (hprevious : previous ≠ some .function) :
    take r (.at output above levels previous) t =
      .ok (.at output [] (⟨t, none, above⟩ :: levels) (some .opening)) := take_opening ht hprevious

/-- The name of a call and its parenthesis. -/
theorem take_at_call (hname : name.kind = .function) (ht : t.kind = .opening) :
    (take r (.at output above levels previous) name >>= (take r · t)) =
      .ok (.at output [] (⟨t, some (name, 1), above⟩ :: levels) (some .opening)) := by
  rw [Yard.at, take_function hname, ok_bind, take_opening_call ht]
  rfl

theorem take_at_unopened (ht : t.kind = .comma ∨ t.kind = .closing) (habove : ∀ u ∈ above, u.Operates r) :
    take r (.at output above [] previous) t = .error (.malformed (.unexpected t.text t.position)) := by
  refine take_unopened ht fun u hu => ?_
  rw [List.flatMap_nil, List.append_nil] at hu
  exact (habove u hu).1

theorem take_at_comma (ht : t.kind = .comma) (habove : ∀ u ∈ above, u.Operates r)
    (hlevel : Level.Sound r ⟨opening, some (name, n), operators⟩) :
    take r (.at output above (⟨opening, some (name, n), operators⟩ :: outer) previous) t =
      .ok (.at (output ++ above) [] (⟨opening, some (name, n + 1), operators⟩ :: outer) (some .comma)) :=
  take_comma ht (fun u hu => (habove u hu).1) hlevel.opening (hlevel.call _ rfl)

theorem take_at_comma_group (ht : t.kind = .comma) (habove : ∀ u ∈ above, u.Operates r)
    (hlevel : Level.Sound r ⟨opening, none, operators⟩) (houter : ∀ l ∈ outer, l.Sound r) :
    take r (.at output above (⟨opening, none, operators⟩ :: outer) previous) t =
      .error (.malformed (.commaOutsideCall t.position)) :=
  take_comma_group ht (fun u hu => (habove u hu).1) hlevel.opening (head_ne_function hlevel.operators houter)

theorem take_at_closing (ht : t.kind = .closing) (habove : ∀ u ∈ above, u.Operates r)
    (hlevel : Level.Sound r ⟨opening, none, operators⟩) (houter : ∀ l ∈ outer, l.Sound r) :
    take r (.at output above (⟨opening, none, operators⟩ :: outer) previous) t =
      .ok (.at (output ++ above) operators outer (some .closing)) :=
  take_closing ht (fun u hu => (habove u hu).1) hlevel.opening (head_ne_function hlevel.operators houter)

theorem take_at_closing_call (ht : t.kind = .closing) (habove : ∀ u ∈ above, u.Operates r)
    (hlevel : Level.Sound r ⟨opening, some (name, n), operators⟩) :
    take r (.at output above (⟨opening, some (name, n), operators⟩ :: outer) previous) t =
      .ok (.at (output ++ above ++ [{ name with arguments := if previous = some .opening then 0 else n }])
        operators outer (some .closing)) :=
  take_closing_call ht (fun u hu => (habove u hu).1) hlevel.opening (hlevel.call _ rfl)

theorem release_at (habove : ∀ u ∈ above, u.Operates r) : release above = .ok above :=
  release_operators fun u hu => (habove u hu).1

theorem release_at_unclosed {l : Level} (habove : ∀ u ∈ above, u.Operates r) (hlevel : l.Sound r)
    (left : List Token) :
    release (above ++ (l.waiting ++ left)) = .error (.malformed (.unclosed l.opening.position)) :=
  release_unclosed (fun u hu => (habove u hu).1) hlevel.opening _

end

end Yard

/-! ## The levels of a text -/

/-- What is known of the conversion of tokens of a text, up to `tokens`. -/
structure Within (r : Registry) (tokens above : List Token) (levels : List Level) : Prop where
  operators : ∀ t ∈ above, t.Operates r
  sound : ∀ l ∈ levels, l.Sound r
  settled : lastKind tokens ≠ some .function
  parens : levels.map Level.paren = enclosing tokens
  nests : Nests tokens

def Reached (r : Registry) (tokens : List Token) (yard : Yard) : Prop :=
  ∃ output above levels, yard = .at output above levels (lastKind tokens) ∧ Within r tokens above levels

/-- An expression is malformed at a place. -/
def RefusedAt (position : Nat) (e : Error) : Prop :=
  e.family = .malformedExpression ∧ e.details = [("position", .int position)]

/-- The next token is refused because it strays. -/
def StraysWith (tokens : List Token) (t : Token) (e : Error) : Prop :=
  t.Strays (enclosing tokens) ∧ RefusedAt t.position e

theorem within_nil (r : Registry) : Within r [] [] [] where
  operators := List.forall_mem_nil _
  sound := List.forall_mem_nil _
  settled := nofun
  parens := rfl
  nests := nests_nil

namespace Within

variable {r : Registry} {tokens above output : List Token} {levels : List Level} {t : Token}
  (h : Within r tokens above levels)

include h

theorem operand (ht : t.kind = .operand) :
    Ends (StraysWith tokens t) (Reached r (tokens ++ [t])) (Yard.take r (.at output above levels (lastKind tokens)) t) := by
  rw [Yard.take_at_operand ht]
  refine ⟨output ++ [t], above, levels, by rw [lastKind_concat, ht], h.operators, h.sound, by simp [ht], ?_, ?_⟩
  · simp only [enclosing_concat, Token.nest, ht, h.parens]
  · exact nests_concat h.nests (not_strays (by simp [ht]) (by simp [ht]))

theorem operator (ht : t.Operates r) :
    Ends (StraysWith tokens t) (Reached r (tokens ++ [t])) (Yard.take r (.at output above levels (lastKind tokens)) t) := by
  obtain ⟨released, kept, rfl, htake⟩ := Yard.take_at_operator ht h.operators
  obtain ⟨-, hkept⟩ := List.forall_mem_append.1 h.operators
  have hkind := ht.1
  rw [htake _ _ _ h.sound]
  refine ⟨output ++ released, t :: kept, levels, by rw [lastKind_concat, hkind], List.forall_mem_cons.2 ⟨ht, hkept⟩,
    h.sound, by simp [hkind], ?_, ?_⟩
  · simp only [enclosing_concat, Token.nest, hkind, h.parens]
  · exact nests_concat h.nests (not_strays (by simp [hkind]) (by simp [hkind]))

theorem opening (ht : t.kind = .opening) :
    Ends (StraysWith tokens t) (Reached r (tokens ++ [t])) (Yard.take r (.at output above levels (lastKind tokens)) t) := by
  rw [Yard.take_at_opening ht h.settled]
  refine ⟨output, [], ⟨t, none, above⟩ :: levels, by rw [lastKind_concat, ht], List.forall_mem_nil _,
    List.forall_mem_cons.2 ⟨Level.sound_group ht h.operators, h.sound⟩, by simp [ht], ?_, ?_⟩
  · simp only [enclosing_concat, Token.nest, ht, if_neg h.settled, ← h.parens]
    rfl
  · exact nests_concat h.nests (not_strays (by simp [ht]) (by simp [ht]))

/-- The name of a call and its parenthesis. -/
theorem call {name : Token} (hname : name.kind = .function) (ht : t.kind = .opening) (output : List Token) :
    ∃ yard, (Yard.take r (.at output above levels (lastKind tokens)) name >>= (Yard.take r · t)) = .ok yard ∧
      Reached r (tokens ++ [name, t]) yard := by
  refine ⟨_, Yard.take_at_call hname ht, output, [], ⟨t, some (name, 1), above⟩ :: levels, ?_, List.forall_mem_nil _,
    List.forall_mem_cons.2 ⟨Level.sound_call hname ht h.operators 1, h.sound⟩, ?_, ?_, ?_⟩
  · rw [List.append_cons, lastKind_concat, ht]
  · rw [List.append_cons, lastKind_concat, ht]
    decide
  · rw [List.append_cons]
    simp only [enclosing_concat, lastKind_concat, Token.nest, ht, hname, if_true, ← h.parens]
    rfl
  · rw [List.append_cons]
    refine nests_concat (nests_concat h.nests ?_) (not_strays (by simp [ht]) (by simp [ht]))
    exact not_strays (by simp [hname]) (by simp [hname])

theorem comma (ht : t.kind = .comma) :
    Ends (StraysWith tokens t) (Reached r (tokens ++ [t])) (Yard.take r (.at output above levels (lastKind tokens)) t) := by
  obtain ⟨habove, hlevels, hsettled, hparens, hnests⟩ := h
  match levels with
  | [] =>
    rw [Yard.take_at_unopened (.inl ht) habove]
    exact ⟨.inr ⟨ht, by rw [← hparens]; nofun⟩, rfl, rfl⟩
  | ⟨opening, none, operators⟩ :: outer =>
    obtain ⟨hlevel, houter⟩ := List.forall_mem_cons.1 hlevels
    rw [Yard.take_at_comma_group ht habove hlevel houter]
    exact ⟨.inr ⟨ht, by rw [← hparens]; nofun⟩, rfl, rfl⟩
  | ⟨opening, some (name, n), operators⟩ :: outer =>
    obtain ⟨hlevel, houter⟩ := List.forall_mem_cons.1 hlevels
    rw [Yard.take_at_comma ht habove hlevel]
    refine ⟨output ++ above, [], ⟨opening, some (name, n + 1), operators⟩ :: outer, by rw [lastKind_concat, ht],
      List.forall_mem_nil _, List.forall_mem_cons.2 ⟨hlevel.counted (n + 1), houter⟩, by simp [ht], ?_,
      nests_concat hnests ?_⟩
    · simp only [enclosing_concat, Token.nest, ht, ← hparens]
      rfl
    · rintro (⟨hclosing, -⟩ | ⟨-, hcall⟩)
      · rw [ht] at hclosing
        cases hclosing
      · exact hcall (by rw [← hparens]; rfl)

theorem closing (ht : t.kind = .closing) :
    Ends (StraysWith tokens t) (Reached r (tokens ++ [t])) (Yard.take r (.at output above levels (lastKind tokens)) t) := by
  obtain ⟨habove, hlevels, hsettled, hparens, hnests⟩ := h
  match levels with
  | [] =>
    rw [Yard.take_at_unopened (.inr ht) habove]
    exact ⟨.inl ⟨ht, by rw [← hparens]; rfl⟩, rfl, rfl⟩
  | ⟨opening, call?, operators⟩ :: outer =>
    obtain ⟨hlevel, houter⟩ := List.forall_mem_cons.1 hlevels
    have hafter : Within r (tokens ++ [t]) operators outer := by
      refine ⟨hlevel.operators, houter, by simp [ht], ?_, nests_concat hnests ?_⟩
      · simp only [enclosing_concat, Token.nest, ht, ← hparens]
        rfl
      · rintro (⟨-, hnone⟩ | ⟨hcomma, -⟩)
        · rw [← hparens] at hnone
          cases hnone
        · rw [ht] at hcomma
          cases hcomma
    have hkind : lastKind (tokens ++ [t]) = some .closing := by rw [lastKind_concat, ht]
    cases call? with
    | none =>
      rw [Yard.take_at_closing ht habove hlevel houter]
      exact ⟨_, _, _, by rw [hkind], hafter⟩
    | some call =>
      rw [Yard.take_at_closing_call ht habove hlevel]
      exact ⟨_, _, _, by rw [hkind], hafter⟩

/-- A token is refused exactly where it strays. -/
theorem take (hkind : t.kind ≠ .function) (hknown : t.Known r) :
    Ends (StraysWith tokens t) (Reached r (tokens ++ [t])) (Yard.take r (.at output above levels (lastKind tokens)) t) := by
  cases ht : t.kind with
  | operand => exact h.operand ht
  | operator => exact h.operator ⟨ht, hknown ht⟩
  | function => exact absurd ht hkind
  | opening => exact h.opening ht
  | comma => exact h.comma ht
  | closing => exact h.closing ht

end Within

/-! ## Whole texts -/

/-- An error that tells where the tokens fail to nest. -/
def RefusesNesting (tokens : List Token) (e : Error) : Prop :=
  ∃ position, Misnests tokens position ∧ RefusedAt position e

section

variable {r : Registry} {tokens ts : List Token} {yard : Yard}

/-- By induction on how the tokens are read, a call with its parenthesis at once. -/
theorem Legible.reached (hts : Legible r ts) (h : Reached r tokens yard) :
    Ends (RefusesNesting (tokens ++ ts)) (Reached r (tokens ++ ts)) (ts.foldlM (Yard.take r) yard) := by
  induction hts generalizing tokens yard with
  | nil =>
    rw [List.append_nil]
    exact h
  | @cons t ts hkind hknown _ ih =>
    obtain ⟨output, above, levels, rfl, hwithin⟩ := h
    rw [List.foldlM_cons]
    refine ((hwithin.take hkind hknown).weaken fun e he => ?_).bind fun next hnext => ?_
    · exact ⟨t.position, .stray rfl hwithin.nests he.1, he.2⟩
    · rw [List.append_cons]
      exact ih hnext
  | @call name opening ts hname hopening _ ih =>
    obtain ⟨output, above, levels, rfl, hwithin⟩ := h
    obtain ⟨next, hcall, hnext⟩ := hwithin.call hname hopening output
    simp only [List.foldlM_cons, ← bind_assoc, hcall, ok_bind]
    have hrest := ih hnext
    rwa [List.append_assoc] at hrest

theorem Reached.release (h : Reached r tokens yard) :
    Ends (RefusesNesting tokens) (fun _ => Nests tokens ∧ enclosing tokens = [])
      (do return yard.output ++ (← Yard.release yard.waiting)) := by
  obtain ⟨output, above, levels, rfl, hwithin⟩ := h
  have hparens := hwithin.parens
  cases levels with
  | nil =>
    simp only [Yard.at, List.flatMap_nil, List.append_nil, Yard.release_at hwithin.operators]
    exact ⟨hwithin.nests, hparens.symm⟩
  | cons l outer =>
    simp only [Yard.at, List.flatMap_cons,
      Yard.release_at_unclosed hwithin.operators (hwithin.sound l List.mem_cons_self)]
    exact ⟨l.opening.position, .unclosed hwithin.nests hparens.symm, rfl, rfl⟩

theorem reached_empty (r : Registry) : Reached r [] Yard.empty := ⟨[], [], [], rfl, within_nil r⟩

theorem toPostfix_reached (hts : Legible r ts) :
    Ends (RefusesNesting ts) (fun _ => Nests ts ∧ enclosing ts = []) (r.toPostfix ts) :=
  (hts.reached (reached_empty r)).bind fun _ hyard => hyard.release

theorem Misnests.not_nested {position : Nat} (h : Misnests ts position) : ¬(Nests ts ∧ enclosing ts = []) := by
  rintro ⟨hnests, hnone⟩
  cases h with
  | stray heq _ hstrays => exact hnests _ _ _ heq hstrays
  | unclosed _ hsome => rw [hnone] at hsome; cases hsome

end

/-- The standard language gives a text a state or refuses it. -/
theorem evaluate_ends (text : String) (context : Value) :
    FailsAs IsRefusal (standard.evaluate text context).result := by
  rw [Registry.evaluate]
  simp only [Outcome.result_bind, Outcome.result_lift]
  refine ((toPostfix_ends (lexed_tokenize text)).weaken fun _ h => .inl h).bind fun code hcode => ?_
  refine (run_ends hcode.isCode).bind fun stack _ => ?_
  rcases stack with _ | ⟨t, _ | ⟨_, _⟩⟩
  · trivial
  · exact t.resolve_ends
  · exact .inl rfl

/-- Under any registrations a text is converted exactly if its tokens nest and leave no
    parenthesis open, and is refused at the place where they fail to. The standard language
    refuses whatever it gives no state. -/
theorem Registry.toPostfix_nests {r : Registry} (hr : r.Registered) (text : String) :
    ((∃ code, r.toPostfix (r.tokenize text) = .ok code) ↔
        Nests (r.tokenize text) ∧ enclosing (r.tokenize text) = []) ∧
      (∀ e, r.toPostfix (r.tokenize text) = .error e →
        ∃ position, Misnests (r.tokenize text) position ∧
          e.family = .malformedExpression ∧ e.details = [("position", .int position)]) ∧
      ∀ context e, (standard.evaluate text context).result = .error e →
        e.family = .malformedExpression ∨ e.family = .unsupportedValue := by
  have hends := toPostfix_reached (legible_tokenize hr text)
  refine ⟨⟨?_, fun hnested => ?_⟩, fun e he => ?_, fun context e he => ?_⟩
  · rintro ⟨code, hcode⟩
    rw [hcode] at hends
    exact hends
  · cases hresult : r.toPostfix (r.tokenize text) with
    | ok code => exact ⟨code, rfl⟩
    | error e =>
      rw [hresult] at hends
      obtain ⟨position, hmisnests, -⟩ := hends
      exact absurd hnested hmisnests.not_nested
  · rw [he] at hends
    exact hends
  · have hrefusal := evaluate_ends text context
    rw [he] at hrefusal
    exact hrefusal

/-- A comma in a call is in its place, and one in a group within the call is not, even when
    an operator of the language has been hidden. -/
theorem Registry.toPostfix_nests_comma :
    let handler : Handler := fun _ => pure (.state .unknown)
    let r := (standard.registerOperator "and" handler 7 5).registerFunction "f" handler
    r.Registered ∧ (∃ code, r.toPostfix (r.tokenize "f(a,!(b))") = .ok code) ∧
      ¬∃ code, r.toPostfix (r.tokenize "f((a,b))") = .ok code := by
  intro handler r
  have hr : r.Registered := .function _ _ (.operator _ _ _ _ .standard)
  have hcall : lexemes 0 "f(a,!(b))".toList = [⟨['f'], 0⟩, ⟨['('], 1⟩, ⟨['a'], 2⟩, ⟨[','], 3⟩, ⟨['!'], 4⟩,
      ⟨['('], 5⟩, ⟨['b'], 6⟩, ⟨[')'], 7⟩, ⟨[')'], 8⟩] := by
    rw [show "f(a,!(b))".toList = ['f', '(', 'a', ',', '!', '(', 'b', ')', ')'] by decide]
    simp +decide [lexemes]
  have hgroup : lexemes 0 "f((a,b))".toList = [⟨['f'], 0⟩, ⟨['('], 1⟩, ⟨['('], 2⟩, ⟨['a'], 3⟩, ⟨[','], 4⟩,
      ⟨['b'], 5⟩, ⟨[')'], 6⟩, ⟨[')'], 7⟩] := by
    rw [show "f((a,b))".toList = ['f', '(', '(', 'a', ',', 'b', ')', ')'] by decide]
    simp +decide [lexemes]
  have hnests : Nests (r.tokenize "f(a,!(b))") ∧ enclosing (r.tokenize "f(a,!(b))") = [] := by
    rw [Registry.tokenize, hcall]
    decide
  have hstrays : ¬Nests (r.tokenize "f((a,b))") := by
    rw [Registry.tokenize, hgroup]
    decide
  exact ⟨hr, (Registry.toPostfix_nests hr _).1.2 hnests, fun h => hstrays ((Registry.toPostfix_nests hr _).1.1 h).1⟩

end Verdict.Expression
