/-
  Verdict.Proofs.Nesting — which parentheses are open between the tokens of a text.

  `enclosing tokens` are the parentheses that are still open behind the tokens, each with
  its place and with whether it stands right behind the name of a call. A token strays
  where it closes a parenthesis that nobody opened, or is a comma whose innermost open
  parenthesis is no call's. Tokens nest if none of them strays; `Misnests` has the place
  where they first fail to, or where they leave a parenthesis open.

  Under any registrations the tokens of a text are `Legible`: the operators among them are
  registered, and the name of a call stands in front of its parenthesis.
-/

import Verdict.Proofs.Lexing
import Verdict.Proofs.Phrases

namespace Verdict.Expression

/-! ## Open parentheses -/

/-- An open parenthesis and its place in the text. -/
structure Paren where
  bracket : Bracket
  position : Nat
  deriving DecidableEq, Repr

/-- The open parentheses behind a token that follows one of kind `previous`, the innermost
    first. -/
def Token.nest (previous : Option TokenKind) (within : List Paren) (t : Token) : List Paren :=
  match t.kind with
  | .opening => ⟨if previous = some .function then .call else .group, t.position⟩ :: within
  | .closing => within.tail
  | _ => within

def lastKind (tokens : List Token) : Option TokenKind := tokens.getLast?.map Token.kind

/-- The kind of the last token, and the open parentheses behind it. -/
def scan (tokens : List Token) : Option TokenKind × List Paren :=
  tokens.foldl (fun before t => (some t.kind, t.nest before.1 before.2)) (none, [])

def enclosing (tokens : List Token) : List Paren := (scan tokens).2

/-- Whether the token has no place within the open parentheses. -/
def Token.Strays (within : List Paren) (t : Token) : Prop :=
  (t.kind = .closing ∧ within = []) ∨ (t.kind = .comma ∧ within.head?.map Paren.bracket ≠ some .call)

/-- Whether every closing parenthesis has an open one, and every comma a call in whose
    parentheses it stands. -/
def Nests (tokens : List Token) : Prop :=
  ∀ before t after, tokens = before ++ t :: after → ¬t.Strays (enclosing before)

/-- Where the first token that strays stands, or else the parenthesis that was opened last
    and is not closed. -/
inductive Misnests (tokens : List Token) : Nat → Prop
  | stray {before after : List Token} {t : Token} :
      tokens = before ++ t :: after → Nests before → t.Strays (enclosing before) → Misnests tokens t.position
  | unclosed {paren : Paren} {outer : List Paren} :
      Nests tokens → enclosing tokens = paren :: outer → Misnests tokens paren.position

instance (within : List Paren) (t : Token) : Decidable (t.Strays within) :=
  inferInstanceAs (Decidable ((t.kind = .closing ∧ within = []) ∨
    (t.kind = .comma ∧ within.head?.map Paren.bracket ≠ some .call)))

section

variable {tokens : List Token} {t : Token} {within : List Paren}

theorem scan_concat (tokens : List Token) (t : Token) :
    scan (tokens ++ [t]) = (some t.kind, t.nest (scan tokens).1 (scan tokens).2) := by
  rw [scan, List.foldl_append]
  rfl

theorem scan_fst (tokens : List Token) : (scan tokens).1 = lastKind tokens := by
  induction tokens using List.reverseRecOn with
  | nil => rfl
  | append_singleton tokens t _ => rw [scan_concat, lastKind, List.getLast?_concat]; rfl

@[simp] theorem lastKind_concat (tokens : List Token) (t : Token) : lastKind (tokens ++ [t]) = some t.kind := by
  rw [lastKind, List.getLast?_concat]
  rfl

theorem enclosing_concat (tokens : List Token) (t : Token) :
    enclosing (tokens ++ [t]) = t.nest (lastKind tokens) (enclosing tokens) := by
  rw [enclosing, scan_concat, scan_fst]
  rfl

theorem not_strays (hclosing : t.kind ≠ .closing) (hcomma : t.kind ≠ .comma) : ¬t.Strays within := by
  rintro (⟨ht, -⟩ | ⟨ht, -⟩)
  · exact hclosing ht
  · exact hcomma ht

theorem nests_nil : Nests [] := by
  intro before t after heq
  exact absurd heq.symm (List.append_ne_nil_of_right_ne_nil before (List.cons_ne_nil t after))

theorem nests_concat (h : Nests tokens) (ht : ¬t.Strays (enclosing tokens)) : Nests (tokens ++ [t]) := by
  intro before u after heq
  rcases List.eq_nil_or_concat after with rfl | ⟨middle, last, rfl⟩
  · obtain ⟨rfl, hu⟩ := List.append_inj' heq rfl
    cases hu
    exact ht
  · have heq : tokens ++ [t] = before ++ u :: middle ++ [last] := by simpa using heq
    exact h before u middle (List.append_inj' heq rfl).1

/-- Whether tokens nest can be seen from the places of its tokens. -/
theorem nests_iff_getElem :
    Nests tokens ↔ ∀ n ∈ List.range tokens.length, ∀ t ∈ tokens[n]?, ¬t.Strays (enclosing (tokens.take n)) := by
  constructor
  · intro h n _ t ht
    obtain ⟨hn, rfl⟩ := List.getElem?_eq_some_iff.1 ht
    refine h (tokens.take n) tokens[n] (tokens.drop (n + 1)) ?_
    rw [List.getElem_cons_drop, List.take_append_drop]
  · rintro h before t after rfl
    have hlt : before.length < (before ++ t :: after).length := by simp
    simpa using h before.length (List.mem_range.2 hlt) t (by simp)

instance (tokens : List Token) : Decidable (Nests tokens) := decidable_of_iff _ nests_iff_getElem.symm

end

/-! ## Registrations -/

namespace Registry

/-- The registries that any registrations lead to, under whatever names. -/
inductive Registered : Registry → Prop
  | standard : Registered standard
  | operator {r : Registry} (name : String) (handler : Handler) (precedence arity : Int) :
      Registered r → Registered (r.registerOperator name handler precedence arity)
  | function {r : Registry} (name : String) (handler : Handler) :
      Registered r → Registered (r.registerFunction name handler)

variable {r : Registry}

/-- An operator of the language can be hidden but not taken away. -/
theorem Registered.builtin (h : r.Registered) (b : Builtin) : (r.operator? b.key).isSome := by
  induction h with
  | standard => rw [standard_intact.builtin]; rfl
  | operator name handler precedence arity _ ih =>
    rw [operator?_registerOperator]
    split
    · rfl
    · exact ih
  | function _ _ _ ih => exact ih

/-- A sign is one of an operator of the language. -/
theorem keyOf_sign {c : Char} (hc : c ∈ ['!', '&', '|', '^']) :
    ∃ b : Builtin, keyOf (String.ofList [c]) = b.key := by
  simp only [List.mem_cons, List.not_mem_nil, or_false] at hc
  rcases hc with rfl | rfl | rfl | rfl
  · exact ⟨.not, keyOf_spelling (by decide)⟩
  · exact ⟨.and, keyOf_spelling (by decide)⟩
  · exact ⟨.or, keyOf_spelling (by decide)⟩
  · exact ⟨.xor, keyOf_spelling (by decide)⟩

end Registry

/-! ## Tokens as they are read -/

/-- Whether the token, if it is an operator, is one that is registered. -/
def Token.Known (r : Registry) (t : Token) : Prop := t.kind = .operator → (r.operator? t.text).isSome

inductive Legible (r : Registry) : List Token → Prop
  | nil : Legible r []
  | cons {t : Token} {ts : List Token} : t.kind ≠ .function → t.Known r → Legible r ts → Legible r (t :: ts)
  | call {name opening : Token} {ts : List Token} :
      name.kind = .function → opening.kind = .opening → Legible r ts → Legible r (name :: opening :: ts)

section

variable {r : Registry}

theorem Legible.of_opening {t : Token} {ts : List Token} (h : Legible r (t :: ts)) (ht : t.kind = .opening) :
    Legible r ts := by
  cases h with
  | cons _ _ h => exact h
  | call hname _ _ => rw [ht] at hname; cases hname

theorem classifyWord_legible (word : String) (mayCall : Bool) :
    ((r.classifyWord word mayCall).1 = .operator → (r.operator? (r.classifyWord word mayCall).2).isSome) ∧
      ((r.classifyWord word mayCall).1 = .function → mayCall = true) := by
  unfold Registry.classifyWord
  simp only []
  split_ifs with hcall hoperator hname
  · exact ⟨by simp, fun _ => (Bool.and_eq_true_iff.1 hcall).1⟩
  · exact ⟨fun _ => hoperator, by simp⟩
  · exact ⟨by simp, fun _ => (Bool.and_eq_true_iff.1 hname).1⟩
  · simp

/-- A lexeme is an operator only if one is registered, and the name of a call only where
    one may stand. -/
theorem classify_legible (hr : r.Registered) (l : Lexeme) (mayCall : Bool) :
    ((r.classify l mayCall).1 = .operator → (r.operator? (r.classify l mayCall).2).isSome) ∧
      ((r.classify l mayCall).1 = .function → mayCall = true) := by
  by_cases hmark : ∃ c, l.text = [c] ∧ isMark c = true
  · obtain ⟨c, hl, hc⟩ := hmark
    by_cases hsign : c ∈ ['!', '&', '|', '^']
    · obtain ⟨b, hb⟩ := Registry.keyOf_sign hsign
      rw [classify_sign hl hsign, hl, hb]
      exact ⟨fun _ => hr.builtin b, by simp⟩
    · unfold Registry.classify
      simp only [List.mem_cons, List.not_mem_nil, or_false, not_or] at hsign
      rcases mark_cases hc with rfl | rfl | rfl | rfl | rfl | rfl | rfl <;> simp_all
  · have hword : ∀ c, l.text = [c] → isMark c = false :=
      fun c hl => Bool.eq_false_iff.2 fun hc => hmark ⟨c, hl, hc⟩
    rw [classify_of_not_mark hword]
    exact classifyWord_legible _ mayCall

theorem classify_opening {l : Lexeme} (hl : l.text = ['(']) (mayCall : Bool) :
    (r.classify l mayCall).1 = .opening := by
  unfold Registry.classify
  simp only [hl]

theorem legible_tokensAfter (hr : r.Registered) (previous : Option TokenKind) (ls : List Lexeme) :
    Legible r (r.tokensAfter previous ls) := by
  induction ls generalizing previous with
  | nil => exact .nil
  | cons l rest ih =>
    obtain ⟨hoperator, hfunction⟩ := classify_legible hr l (operandMayBegin previous && opensNext rest)
    rw [Registry.tokensAfter]
    by_cases hkind : (r.classify l (operandMayBegin previous && opensNext rest)).1 = .function
    · -- a name is that of a call in front of a parenthesis only
      have hopens : opensNext rest = true := (Bool.and_eq_true_iff.1 (hfunction hkind)).2
      cases rest with
      | nil => cases hopens
      | cons next rest =>
        have hnext := classify_opening (r := r) (eq_of_beq hopens) (operandMayBegin (some .function) && opensNext rest)
        have hrest := ih (some .function)
        rw [hkind]
        rw [Registry.tokensAfter] at hrest ⊢
        exact .call rfl hnext (hrest.of_opening hnext)
    · exact .cons hkind hoperator (ih _)

theorem legible_tokenize (hr : r.Registered) (text : String) : Legible r (r.tokenize text) :=
  legible_tokensAfter hr none _

/-- The arguments of a call are not counted yet. -/
theorem uncounted_tokenize (text : String) : ∀ t ∈ r.tokenize text, t.arguments = 0 := by
  intro t ht
  obtain ⟨l, -, mayCall, rfl⟩ := mem_tokensAfter ht
  rfl

end

end Verdict.Expression
