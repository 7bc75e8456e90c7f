/-
  Verdict.Proofs.Registrations — a registration changes nothing where its name is not used.

  A registry is asked for the keys of the words and signs of a text only. Two registries
  that answer alike under these keys give its lexemes the same parts (`tokenize_agrees`);
  the operators and calls among the tokens have keys of the text (`named_of_tokenize`), so
  the conversion and the run go alike token by token (`Token.Named` is what both keep). A
  registration answers differently under the one key that is its name in capitals
  (`Registry.registrations_keep`).
-/

import Verdict.Proofs.Spans
import Verdict.Proofs.Arrangement

namespace Verdict.Expression

/-- The key that a lexeme is looked up by; parentheses and commas are not looked up. -/
def Lexeme.key? (l : Lexeme) : Option String :=
  if l.text ∈ [['('], [')'], [',']] then none else some (keyOf (String.ofList l.text))

/-- The keys of the words and signs of a text. -/
def keys (text : String) : List String := (lexemes 0 text.toList).filterMap Lexeme.key?

namespace Registry

/-- Whether two registries have the same under a key. -/
structure Agrees (r r' : Registry) (key : String) : Prop where
  operator? : r.operator? key = r'.operator? key
  function? : r.function? key = r'.function? key

/-- Whether a text means the same in two registries. -/
structure Alike (r r' : Registry) (text : String) : Prop where
  tokenize : r.tokenize text = r'.tokenize text
  toPostfix : r.toPostfix (r.tokenize text) = r'.toPostfix (r'.tokenize text)
  evaluate : ∀ context, r.evaluate text context = r'.evaluate text context

variable {r r' : Registry} {key : String}

theorem Agrees.operator (h : r.Agrees r' key) : r.operator key = r'.operator key := by
  rw [Registry.operator, Registry.operator, h.operator?]

theorem registerOperator_agrees {name : String} (h : Text.upper name ≠ key) (handler : Handler)
    (precedence arity : Int) : (r.registerOperator name handler precedence arity).Agrees r key :=
  ⟨by rw [operator?_registerOperator, if_neg h], rfl⟩

theorem registerFunction_agrees {name : String} (h : Text.upper name ≠ key) (handler : Handler) :
    (r.registerFunction name handler).Agrees r key :=
  ⟨rfl, by rw [function?_registerFunction, if_neg h]⟩

end Registry

section

variable {r r' : Registry}

/-! ## Tokens -/

theorem classifyWord_agrees {word : String} (h : r.Agrees r' (keyOf word)) (mayCall : Bool) :
    r.classifyWord word mayCall = r'.classifyWord word mayCall := by
  simp only [Registry.classifyWord, h.operator?, h.function?]

theorem classify_agrees {l : Lexeme} (h : ∀ key ∈ l.key?, r.Agrees r' key) (mayCall : Bool) :
    r.classify l mayCall = r'.classify l mayCall := by
  by_cases hbracket : l.text ∈ [['('], [')'], [',']]
  · simp only [List.mem_cons, List.not_mem_nil, or_false] at hbracket
    rcases hbracket with htext | htext | htext <;> simp only [Registry.classify, htext]
  · have hagrees := h _ (if_neg hbracket)
    simp only [Registry.classify, classifyWord_agrees hagrees]

theorem tokensAfter_agrees {ls : List Lexeme} (h : ∀ key ∈ ls.filterMap Lexeme.key?, r.Agrees r' key)
    (previous : Option TokenKind) : r.tokensAfter previous ls = r'.tokensAfter previous ls := by
  induction ls generalizing previous with
  | nil => rfl
  | cons l ls ih =>
    have hl : ∀ key ∈ l.key?, r.Agrees r' key := fun key hkey =>
      h key (List.mem_filterMap.2 ⟨l, List.mem_cons_self, hkey⟩)
    have hls : ∀ key ∈ ls.filterMap Lexeme.key?, r.Agrees r' key := by
      intro key hkey
      obtain ⟨l', hl', hkey⟩ := List.mem_filterMap.1 hkey
      exact h key (List.mem_filterMap.2 ⟨l', List.mem_cons_of_mem l hl', hkey⟩)
    rw [Registry.tokensAfter, Registry.tokensAfter, classify_agrees hl, ih hls]

/-- Whether the registries agree on the token, if it is one that is looked up. -/
def Token.Named (r r' : Registry) (t : Token) : Prop :=
  t.kind = .operator ∨ t.kind = .function → r.Agrees r' t.text

/-- An operator or a call has the key of its lexeme. -/
theorem key?_of_reads {l : Lexeme} {kind : TokenKind} {text : String} (h : kind.Reads l.text text)
    (hkind : kind = .operator ∨ kind = .function) : l.key? = some text := by
  have hplain : (∃ c ∈ ['!', '&', '|', '^'], l.text = [c]) ∨ IsWord l.text := by
    rcases hkind with rfl | rfl
    · exact h.1
    · exact .inr h.1
  have hkey : text = keyOf (String.ofList l.text) := by
    rcases hkind with rfl | rfl
    · exact h.2
    · exact h.2
  have hbracket : l.text ∉ [['('], [')'], [',']] := by
    rcases hplain with ⟨c, hc, htext⟩ | hword
    · simp only [List.mem_cons, List.not_mem_nil, or_false] at hc
      rw [htext]
      rcases hc with rfl | rfl | rfl | rfl <;> decide
    · intro hmem
      simp only [List.mem_cons, List.not_mem_nil, or_false] at hmem
      rcases hmem with htext | htext | htext <;> exact absurd (hword.not_mark _ htext) (by decide)
  rw [Lexeme.key?, if_neg hbracket, hkey]

theorem tokenize_agrees {text : String} (h : ∀ key ∈ keys text, r.Agrees r' key) : r.tokenize text = r'.tokenize text :=
  tokensAfter_agrees h none

theorem named_of_tokenize {text : String} (h : ∀ key ∈ keys text, r.Agrees r' key) :
    ∀ t ∈ r.tokenize text, t.Named r r' := by
  intro t ht hkind
  obtain ⟨l, hl, hreads⟩ := reads_of_tokenize t ht
  exact h t.text (List.mem_filterMap.2 ⟨l, hl, key?_of_reads hreads hkind⟩)

/-! ## Conversion -/

theorem yielding_alike {precedence : Int} {waiting : List Token} (h : ∀ t ∈ waiting, t.Named r r') :
    Yard.yielding r precedence waiting = Yard.yielding r' precedence waiting := by
  induction waiting with
  | nil => rfl
  | cons t waiting ih =>
    obtain ⟨ht, hwaiting⟩ := List.forall_mem_cons.1 h
    rw [Yard.yielding, Yard.yielding, ih hwaiting]
    by_cases hoperator : t.isOperator = true
    · rw [if_pos hoperator, if_pos hoperator, (ht (.inl (eq_of_beq hoperator))).operator]
    · rw [if_neg hoperator, if_neg hoperator]

theorem take_alike {yard : Yard} {t : Token} (hyard : yard.Holds (Token.Named r r')) (ht : t.Named r r') :
    Yard.take r yard t = Yard.take r' yard t := by
  rw [Yard.take, Yard.take]
  cases hkind : t.kind with
  | operator =>
    have hyielding : ∀ precedence : Int,
        Yard.yielding r precedence yard.waiting = Yard.yielding r' precedence yard.waiting :=
      fun _ => yielding_alike hyard.waiting
    simp only [Yard.pushOperator, (ht (.inl hkind)).operator, hyielding]
  | operand | function | opening | comma | closing => rfl

/-- By induction on the tokens: what waits is named, so each of them is taken alike. -/
theorem foldlM_take_alike {tokens : List Token} {yard : Yard} (hyard : yard.Holds (Token.Named r r'))
    (htokens : ∀ t ∈ tokens, t.Named r r') : tokens.foldlM (Yard.take r) yard = tokens.foldlM (Yard.take r') yard := by
  induction tokens generalizing yard with
  | nil => rfl
  | cons t tokens ih =>
    obtain ⟨ht, htokens⟩ := List.forall_mem_cons.1 htokens
    rw [List.foldlM_cons, List.foldlM_cons, ← take_alike hyard ht]
    cases htake : Yard.take r yard t with
    | error e => rfl
    | ok next => exact ih (hyard.moves (fun _ _ hu => hu) ht (Yard.moves_of_take htake)) htokens

theorem toPostfix_alike {tokens : List Token} (h : ∀ t ∈ tokens, t.Named r r') :
    r.toPostfix tokens = r'.toPostfix tokens := by
  have hempty : Yard.empty.Holds (Token.Named r r') := ⟨List.forall_mem_nil _, List.forall_mem_nil _⟩
  rw [Registry.toPostfix, Registry.toPostfix, foldlM_take_alike hempty h]

/-! ## Runs -/

section

variable {expression : String} {context : Value} {t : Token}

theorem call_alike (h : r.Agrees r' t.text) (operands : List Term) :
    r.call context t operands = r'.call context t operands := by
  simp only [Registry.call, h.operator, h.function?]

theorem step_alike (hinstruction : t.isInstruction = true) (ht : t.Named r r') (stack : List Term) :
    r.step expression context stack t = r'.step expression context stack t := by
  rw [Registry.step, Registry.step]
  cases hkind : t.kind with
  | operand => rfl
  | function => simp only [call_alike (ht (.inr hkind))]
  | operator => simp only [(ht (.inl hkind)).operator]
  | opening => rw [isInstruction_mark (.inl hkind)] at hinstruction; cases hinstruction
  | comma => rw [isInstruction_mark (.inr (.inl hkind))] at hinstruction; cases hinstruction
  | closing => rw [isInstruction_mark (.inr (.inr hkind))] at hinstruction; cases hinstruction

theorem foldlM_step_alike {code : List Token} (hcode : ∀ t ∈ code, t.isInstruction = true)
    (hnamed : ∀ t ∈ code, t.Named r r') (stack : List Term) :
    code.foldlM (r.step expression context) stack = code.foldlM (r'.step expression context) stack := by
  induction code generalizing stack with
  | nil => rfl
  | cons t code ih =>
    obtain ⟨ht, hcode⟩ := List.forall_mem_cons.1 hcode
    obtain ⟨hname, hnamed⟩ := List.forall_mem_cons.1 hnamed
    rw [List.foldlM_cons, List.foldlM_cons, step_alike ht hname]
    exact Outcome.bind_congr_of_ok fun next _ => ih hcode hnamed next

end

/-! ## Texts -/

/-- Registries that agree on the keys of a text give it the same meaning. -/
theorem alike_of_agrees {text : String} (h : ∀ key ∈ keys text, r.Agrees r' key) : r.Alike r' text := by
  have htokens := tokenize_agrees h
  have hnamed := named_of_tokenize h
  have hconverted := toPostfix_alike hnamed
  refine ⟨htokens, by rw [hconverted, htokens], fun context => ?_⟩
  rw [Registry.evaluate, Registry.evaluate, ← htokens, ← hconverted]
  refine Outcome.bind_congr_of_ok fun code hcode => ?_
  have hcode : r.toPostfix (r.tokenize text) = .ok code := hcode
  rw [foldlM_step_alike (toPostfix_keeps hcode).output (toPostfix_holds (fun _ _ ht => ht) hnamed hcode)]

/-- A registration under a name that is not the key of any word or sign of a text changes
    neither the tokens of the text nor their order nor what it evaluates to. -/
theorem Registry.registrations_keep (r : Registry) {name text : String} (h : Text.upper name ∉ keys text)
    (handler : Handler) (precedence arity : Int) :
    (r.registerFunction name handler).Alike r text
      ∧ (r.registerOperator name handler precedence arity).Alike r text := by
  have hother : ∀ key ∈ keys text, Text.upper name ≠ key := fun key hkey heq => h (heq ▸ hkey)
  exact ⟨alike_of_agrees fun key hkey => registerFunction_agrees (hother key hkey) handler,
    alike_of_agrees fun key hkey => registerOperator_agrees (hother key hkey) handler precedence arity⟩

/-- "majority" stands for another key than its own, so to register it changes nothing. -/
theorem Registry.registrations_keep_alias :
    Text.upper "majority" ∉ keys "a majority b"
      ∧ (standard.registerOperator "majority" (fun _ => pure (.bool true)) 1 2).Alike standard "a majority b" := by
  have hkeys : Text.upper "majority" ∉ keys "a majority b" := by decide +kernel
  exact ⟨hkeys, (standard.registrations_keep hkeys (fun _ => pure (.bool true)) 1 2).2⟩

end

end Verdict.Expression
