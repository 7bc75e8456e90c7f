/-
  Verdict.Proofs.Words — an expression looks into its context by its words only.

  A token is what a lexeme is read as (`reads_of_tokenize`), and an operand is a word, so no
  sign stands in front of the path that it is (`isWord_of_operand`). What holds of all
  tokens of a text holds of them in postfix order too (`toPostfix_holds`), and what stands
  on the stack of a run are words among them, or states. So two contexts in which each word
  of an expression has the same state, or the same error, give it the same outcome
  (`Registry.evaluate_agrees`).
-/

import Verdict.Proofs.Moves

namespace Verdict.Expression

/-! ## Words among the lexemes -/

/-- A lexeme is a mark or a word. -/
theorem lexemes_cases (position : Nat) (cs : List Char) :
    ∀ l ∈ lexemes position cs, (∃ c, l.text = [c] ∧ isMark c = true) ∨ IsWord l.text := by
  fun_induction lexemes position cs with
  | case1 => exact List.forall_mem_nil _
  | case2 position c cs hblank ih => exact ih
  | case3 position c cs hblank hmark ih => exact List.forall_mem_cons.2 ⟨.inl ⟨c, rfl, hmark⟩, ih⟩
  | case4 position c cs hblank hmark word ih =>
    exact List.forall_mem_cons.2 ⟨.inr (isWord_takeWhile hblank hmark cs), ih⟩

/-- Whether a token of this kind and with this text is what the characters are read as. -/
def TokenKind.Reads (cs : List Char) (text : String) : TokenKind → Prop
  | .opening => cs = ['('] ∧ text = String.ofList cs
  | .closing => cs = [')'] ∧ text = String.ofList cs
  | .comma => cs = [','] ∧ text = String.ofList cs
  | .operator => ((∃ c ∈ ['!', '&', '|', '^'], cs = [c]) ∨ IsWord cs) ∧ text = keyOf (String.ofList cs)
  | .function => IsWord cs ∧ text = keyOf (String.ofList cs)
  | .operand => IsWord cs ∧ text = String.ofList cs

section

variable {r : Registry}

theorem classifyWord_reads {cs : List Char} (hcs : IsWord cs) (mayCall : Bool) :
    (r.classifyWord (String.ofList cs) mayCall).1.Reads cs (r.classifyWord (String.ofList cs) mayCall).2 := by
  unfold Registry.classifyWord
  dsimp only
  generalize hkey : keyOf (String.ofList cs) = key
  split
  · exact ⟨hcs, hkey.symm⟩
  · split
    · exact ⟨.inr hcs, hkey.symm⟩
    · split
      · exact ⟨hcs, hkey.symm⟩
      · exact ⟨hcs, rfl⟩

theorem classify_reads {l : Lexeme} (hl : (∃ c, l.text = [c] ∧ isMark c = true) ∨ IsWord l.text) (mayCall : Bool) :
    (r.classify l mayCall).1.Reads l.text (r.classify l mayCall).2 := by
  rcases hl with ⟨c, htext, hmark⟩ | hword
  · have hsign : c ∈ ['!', '&', '|', '^'] → (r.classify l mayCall).1.Reads l.text (r.classify l mayCall).2 := by
      intro hc
      rw [classify_sign htext hc]
      dsimp only [TokenKind.Reads]
      exact ⟨.inl ⟨c, hc, htext⟩, rfl⟩
    rcases mark_cases hmark with rfl | rfl | rfl | rfl | rfl | rfl | rfl
    · simp only [Registry.classify, htext, TokenKind.Reads, and_self]
    · simp only [Registry.classify, htext, TokenKind.Reads, and_self]
    · simp only [Registry.classify, htext, TokenKind.Reads, and_self]
    all_goals exact hsign (by decide)
  · rw [classify_of_not_mark hword.not_mark]
    exact classifyWord_reads hword mayCall

/-- Each token is what a lexeme of the text is read as. -/
theorem reads_of_tokenize {text : String} :
    ∀ t ∈ r.tokenize text, ∃ l ∈ lexemes 0 text.toList, t.kind.Reads l.text t.text := by
  intro t ht
  obtain ⟨l, hl, mayCall, rfl⟩ := mem_tokensAfter ht
  exact ⟨l, hl, classify_reads (lexemes_cases 0 _ l hl) mayCall⟩

theorem isWord_of_operand {text : String} : ∀ t ∈ r.tokenize text, t.kind = .operand → IsWord t.text.toList := by
  intro t ht hkind
  obtain ⟨l, -, hreads⟩ := reads_of_tokenize t ht
  rw [hkind] at hreads
  rw [hreads.2, String.toList_ofList]
  exact hreads.1

end

/-! ## Conversion -/

/-- Whether all tokens that were taken are as stated. -/
structure Yard.Holds (p : Token → Prop) (yard : Yard) : Prop where
  output : ∀ t ∈ yard.output, p t
  waiting : ∀ t ∈ yard.waiting, p t

section

variable {r : Registry} {p : Token → Prop} (hcounts : ∀ t n, p t → p { t with arguments := n })

include hcounts

theorem Yard.Holds.moves {before after : Yard} {t : Token} (h : before.Holds p) (ht : p t)
    (hmoves : Yard.Moves r t before after) : after.Holds p := by
  obtain ⟨houtput, hwaiting⟩ := h
  cases hmoves with
  | operand _ => exact ⟨List.forall_mem_append.2 ⟨houtput, List.forall_mem_singleton.2 ht⟩, hwaiting⟩
  | function _ | unary _ _ _ | opening _ => exact ⟨houtput, List.forall_mem_cons.2 ⟨ht, hwaiting⟩⟩
  | releasing _ _ _ hyielding =>
    obtain ⟨rfl, -⟩ := Yard.yielding_splits hyielding
    obtain ⟨hreleased, hleft⟩ := List.forall_mem_append.1 hwaiting
    exact ⟨List.forall_mem_append.2 ⟨houtput, hreleased⟩, List.forall_mem_cons.2 ⟨ht, hleft⟩⟩
  | comma _ _ _ _ =>
    obtain ⟨habove, hleft⟩ := List.forall_mem_append.1 hwaiting
    exact ⟨List.forall_mem_append.2 ⟨houtput, habove⟩, hleft⟩
  | closing _ _ _ _ =>
    obtain ⟨habove, hleft⟩ := List.forall_mem_append.1 hwaiting
    exact ⟨List.forall_mem_append.2 ⟨houtput, habove⟩, (List.forall_mem_cons.1 hleft).2⟩
  | closingCall _ _ _ _ =>
    obtain ⟨habove, hleft⟩ := List.forall_mem_append.1 hwaiting
    obtain ⟨hcall, hleft⟩ := List.forall_mem_cons.1 (List.forall_mem_cons.1 hleft).2
    have hreleased := List.forall_mem_append.2 ⟨houtput, habove⟩
    exact ⟨List.forall_mem_append.2 ⟨hreleased, List.forall_mem_singleton.2 (hcounts _ _ hcall)⟩, hleft⟩

/-- What holds of tokens, however many arguments they count, holds of them in postfix
    order. -/
theorem toPostfix_holds {tokens code : List Token} (htokens : ∀ t ∈ tokens, p t)
    (h : r.toPostfix tokens = .ok code) : ∀ t ∈ code, p t := by
  have hrun : Ends (fun _ => True) (Yard.Holds p) (tokens.foldlM (Yard.take r) Yard.empty) := by
    refine Ends.foldlM_keeps (fun t ht yard hyard => ?_) ⟨List.forall_mem_nil _, List.forall_mem_nil _⟩
    cases htake : yard.take r t with
    | error e => trivial
    | ok next => exact hyard.moves hcounts (htokens t ht) (Yard.moves_of_take htake)
  obtain ⟨yard, hyard, -, rfl⟩ := toPostfix_eq_ok.1 h
  rw [hyard] at hrun
  exact List.forall_mem_append.2 ⟨hrun.output, hrun.waiting⟩

end

/-! ## Contexts that agree on words -/

/-- Whether a term has the same state, or the same error, in both contexts. -/
def Term.Agrees (context context' : Value) (t : Term) : Prop := t.resolve context = t.resolve context'

section

variable {context context' : Value} {expression : String} {stack : List Term} {t : Token}

theorem Term.resolveAll_agrees {ts : List Term} (h : ∀ t ∈ ts, t.Agrees context context') :
    resolveAll context ts = resolveAll context' ts := by
  induction ts with
  | nil => rfl
  | cons t ts ih =>
    obtain ⟨ht, hts⟩ := List.forall_mem_cons.1 h
    rw [resolveAll, resolveAll, ih hts, show t.resolve context = t.resolve context' from ht]

theorem mem_of_popOperands {arity : Int} {parts : List Term × List Term}
    (h : popOperands expression t arity stack = .ok parts) :
    (∀ u ∈ parts.1, u ∈ stack) ∧ ∀ u ∈ parts.2, u ∈ stack := by
  unfold popOperands at h
  split at h
  · cases h
  · cases h
    exact ⟨fun u hu => List.mem_of_mem_take (List.mem_reverse.1 hu), fun u hu => List.mem_of_mem_drop hu⟩

/-- One token does the same to a stack in both contexts. -/
theorem Registry.step_agrees (r : Registry) (hstack : ∀ u ∈ stack, u.Agrees context context') :
    r.step expression context stack t = r.step expression context' stack t := by
  unfold Registry.step
  split
  · rfl
  · refine Outcome.bind_congr_of_ok fun parts hparts => ?_
    have hoperands := Term.resolveAll_agrees fun u hu => hstack u ((mem_of_popOperands hparts).1 u hu)
    simp only [Registry.call, hoperands]
  · refine Outcome.bind_congr_of_ok fun spec _ => Outcome.bind_congr_of_ok fun parts hparts => ?_
    have hoperands := Term.resolveAll_agrees fun u hu => hstack u ((mem_of_popOperands hparts).1 u hu)
    simp only [hoperands]

/-- What a token leaves on the stack was there, or is a state or the word that it is. -/
theorem Registry.step_leaves (r : Registry) {next : List Term}
    (h : (r.step expression context stack t).result = .ok next) :
    ∀ u ∈ next, u ∈ stack ∨ (∃ s, u = .state s) ∨ t.kind = .operand ∧ u = .word t.text := by
  unfold Registry.step at h
  split at h
  · next hkind =>
    cases h
    exact List.forall_mem_cons.2 ⟨.inr (.inr ⟨hkind, rfl⟩), fun u hu => .inl hu⟩
  · obtain ⟨parts, hparts, h⟩ := Outcome.result_bind_eq_ok.1 h
    obtain ⟨s, -, h⟩ := Outcome.result_bind_eq_ok.1 h
    cases h
    exact List.forall_mem_cons.2 ⟨.inr (.inl ⟨s, rfl⟩), fun u hu => .inl ((mem_of_popOperands hparts).2 u hu)⟩
  · obtain ⟨spec, -, h⟩ := Outcome.result_bind_eq_ok.1 h
    obtain ⟨parts, hparts, h⟩ := Outcome.result_bind_eq_ok.1 h
    obtain ⟨states, -, h⟩ := Outcome.result_bind_eq_ok.1 h
    obtain ⟨s, -, h⟩ := Outcome.result_bind_eq_ok.1 h
    cases h
    exact List.forall_mem_cons.2 ⟨.inr (.inl ⟨s, rfl⟩), fun u hu => .inl ((mem_of_popOperands hparts).2 u hu)⟩

theorem conclude_agrees (h : ∀ u ∈ stack, u.Agrees context context') :
    conclude expression context stack = conclude expression context' stack := by
  match stack with
  | [] => rfl
  | [t] => exact h t List.mem_cons_self
  | _ :: _ :: _ => rfl

/-- By induction on the tokens: both runs have the same stack all the way. -/
theorem Registry.run_agrees (r : Registry) {code : List Token}
    (hcode : ∀ t ∈ code, t.kind = .operand → (Term.word t.text).Agrees context context')
    (hstack : ∀ u ∈ stack, u.Agrees context context') :
    (do conclude expression context (← code.foldlM (r.step expression context) stack)) =
      (do conclude expression context' (← code.foldlM (r.step expression context') stack) : Outcome State) := by
  induction code generalizing stack with
  | nil =>
    simp only [List.foldlM_nil, pure_bind]
    rw [conclude_agrees hstack]
  | cons t code ih =>
    obtain ⟨ht, hcode⟩ := List.forall_mem_cons.1 hcode
    simp only [List.foldlM_cons, bind_assoc]
    rw [← r.step_agrees hstack]
    refine Outcome.bind_congr_of_ok fun next hnext => ih hcode fun u hu => ?_
    rcases r.step_leaves hnext u hu with hmem | ⟨s, rfl⟩ | ⟨hkind, rfl⟩
    · exact hstack u hmem
    · rfl
    · exact ht hkind

/-- An expression has one outcome in two contexts that agree on each of its words. -/
theorem Registry.evaluate_agrees (r : Registry) {text : String}
    (h : ∀ t ∈ r.tokenize text, t.kind = .operand → resolveWord context t.text = resolveWord context' t.text) :
    r.evaluate text context = r.evaluate text context' := by
  unfold Registry.evaluate
  refine Outcome.bind_congr_of_ok fun code hcode => ?_
  have hwords : ∀ t ∈ code, t.kind = .operand → (Term.word t.text).Agrees context context' :=
    toPostfix_holds (fun _ _ ht => ht) h hcode
  exact r.run_agrees hwords (List.forall_mem_nil _)

end

end Verdict.Expression
