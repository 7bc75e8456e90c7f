/-
  Verdict.Proofs.Grammar — expressions as trees, what they mean, and the texts that spell
  them.

  A tree knows no parentheses. `Written r level t symbols` says that the symbols write `t`
  where an operand has to bind at least as strongly as `level`. An infix operator binds at
  its precedence, with a left operand of its own level and a right one of the next; all
  else binds at every level, and `NOT` takes an operand of level 4, above any infix
  operator. Every expression may stand in parentheses. A symbol has several spellings, and
  any blanks may stand between the spelled symbols (`Spaced`); some must where two words
  would grow together.
-/

import Verdict.Expression.Evaluation
import Mathlib.Data.List.Forall2
import Mathlib.Algebra.Ring.Int.Defs

namespace Verdict

/-- Whether a word spells the state, in any case. -/
def State.SpelledBy (s : State) (word : String) : Prop := Text.lower word = s.word

instance (s : State) (word : String) : Decidable (s.SpelledBy word) :=
  inferInstanceAs (Decidable (Text.lower word = s.word))

/-- Whether a word spells no state. -/
def State.Unspelled (word : String) : Prop := ∀ s : State, ¬s.SpelledBy word

instance (word : String) : Decidable (State.Unspelled word) :=
  decidable_of_iff (∀ s ∈ [State.yes, .no, .unknown], ¬s.SpelledBy word)
    ⟨fun h s => h s (by cases s <;> decide), fun h s _ => h s⟩

namespace Expression

/-! ## Names -/

/-- How an operator of the language is written, in capitals. -/
def Builtin.spellings : Builtin → List String
  | not => ["NOT", "!"]
  | and => ["AND", "&"]
  | or => ["OR", "|"]
  | xor => ["XOR", "^"]
  | majority => ["MAJ", "MAJORITY"]
  | consensus => ["CONSENSUS"]
  | conditional => ["IF", "IFTHENELSE"]

/-- Names in capitals that are the language's own: its operators and its literals. -/
def Reserved (name : String) : Prop :=
  (∃ b : Builtin, name ∈ b.spellings) ∨
    ∃ (s : State) (word : String), s.SpelledBy word ∧ Text.upper word = name

namespace Registry

/-- The registries that the standard one grows into when nothing is registered under a
    reserved name. -/
inductive Grown : Registry → Prop
  | standard : Grown standard
  | operator {r : Registry} (name : String) (handler : Handler) (precedence arity : Int) :
      Grown r → ¬Reserved (Text.upper name) →
      Grown (r.registerOperator name handler precedence arity)
  | function {r : Registry} (name : String) (handler : Handler) :
      Grown r → ¬Reserved (Text.upper name) → Grown (r.registerFunction name handler)

/-- Whether a name in capitals stands for an operator. -/
def NamesOperator (r : Registry) (name : String) : Prop :=
  (∃ b : Builtin, name ∈ b.spellings) ∨ (r.operator? name).isSome

instance (r : Registry) (name : String) : Decidable (r.NamesOperator name) :=
  decidable_of_iff ((∃ b ∈ Builtin.all, name ∈ b.spellings) ∨ (r.operator? name).isSome)
    (or_congr_left ⟨fun ⟨b, _, h⟩ => ⟨b, h⟩, fun ⟨b, h⟩ => ⟨b, by cases b <;> decide, h⟩⟩)

end Registry

/-! ## Trees -/

/-- What joins operands or takes arguments: an operator of the language, or what is known
    by a key. -/
inductive Operation
  | builtin (b : Builtin)
  | named (key : String)
  deriving DecidableEq, Repr

def Operation.key : Operation → String
  | builtin b => b.key
  | named key => key

inductive Tree
  | literal (s : State)
  | path (word : String)
  | not (operand : Tree)
  | connect (op : Operation) (left right : Tree)
  | call (op : Operation) (arguments : List Tree)

/-! ## Meaning -/

/-- The state of the answer to a handler's call; undecided when there is none. -/
def Handler.answer (handler : Handler) (states : List State) : State :=
  match (handler states).result with
  | .ok v => v.toState.toOption.getD .unknown
  | .error _ => .unknown

/-- The state that the context has at a path; undecided when it has none. -/
def stateAt (context : Value) (path : String) : State :=
  match context.resolve? path with
  | some v => v.toState.toOption.getD .unknown
  | none => .unknown

/-- What an operator of the language makes of states: Kleene's connectives, the sign of
    the difference of the decided states' numbers or of the sum of all worths, and a
    choice that takes what both branches agree on when the condition is undecided. -/
def Builtin.value (b : Builtin) (states : List State) : State :=
  match b, states with
  | not, [s] => s.invert
  | and, [s, t] => s.and t
  | or, [s, t] => s.or t
  | xor, states => .ofTrit (.ofInt (states.count .yes - states.count .no))
  | majority, states | consensus, states => .ofTrit (.ofInt (states.map State.toInt).sum)
  | conditional, [.yes, s, _] => s
  | conditional, [.no, _, s] => s
  | conditional, [.unknown, s, t] => .ofTrit (.ofInt (s.toInt + t.toInt))
  | _, _ => .unknown

/-- What an operation makes of the states between which it stands. -/
def Operation.joined (r : Registry) (op : Operation) (states : List State) : State :=
  match op with
  | builtin b => b.value states
  | named key =>
    match r.operator? key with
    | some ⟨_, _, _, .custom handler⟩ => handler.answer states
    | _ => .unknown

/-- What an operation makes of its arguments in a call. -/
def Operation.called (r : Registry) (op : Operation) (states : List State) : State :=
  match op with
  | builtin b => b.value states
  | named key =>
    match r.function? key with
    | some handler => handler.answer states
    | none => .unknown

section

variable (r : Registry) (context : Value)

mutual

def Tree.value : Tree → State
  | .literal s => s
  | .path word => stateAt context word
  | .not t => t.value.invert
  | .connect op left right => op.joined r [left.value, right.value]
  | .call op arguments => op.called r (Tree.values arguments)

def Tree.values : List Tree → List State
  | [] => []
  | t :: ts => t.value :: Tree.values ts

end

end

mutual

/-- The paths that a tree mentions. -/
def Tree.paths : Tree → List String
  | .literal _ => []
  | .path word => [word]
  | .not t => t.paths
  | .connect _ left right => left.paths ++ right.paths
  | .call _ arguments => Tree.allPaths arguments

def Tree.allPaths : List Tree → List String
  | [] => []
  | t :: ts => t.paths ++ Tree.allPaths ts

end

/-- Whether the path leads nowhere or to a value that has a state. -/
def Offers (context : Value) (path : String) : Prop :=
  ∀ v, context.resolve? path = some v → ∃ s, v.toState = .ok s

/-- Whether every call is answered by a value that has a state. -/
def Handler.Reliable (handler : Handler) : Prop :=
  ∀ states, ∃ v s, (handler states).result = .ok v ∧ v.toState = .ok s

def Registry.Reliable (r : Registry) : Prop :=
  (∀ spec ∈ r.operators, ∀ handler, spec.action = .custom handler → handler.Reliable) ∧
    ∀ f ∈ r.functions, f.2.Reliable

/-! ## Writing -/

inductive Symbol
  | literal (s : State)
  | path (word : String)
  | not
  | connective (op : Operation)
  | callee (op : Operation)
  | opening
  | comma
  | closing
  deriving DecidableEq, Repr

section

variable (r : Registry)

/-- Whether a word is a path: neither an operator nor a literal. -/
def IsPath (word : String) : Prop :=
  ¬r.NamesOperator (Text.upper word) ∧ State.Unspelled word

instance (word : String) : Decidable (IsPath r word) :=
  inferInstanceAs (Decidable (¬r.NamesOperator (Text.upper word) ∧ State.Unspelled word))

/-- Whether the operation can stand between operands, with this precedence. -/
def Joins (op : Operation) (precedence : Int) : Prop :=
  match op with
  | .builtin b =>
    b = .and ∧ precedence = 2 ∨ b ∈ [.or, .xor, .majority, .consensus] ∧ precedence = 1
  | .named key =>
    precedence ≤ 3 ∧ ∃ handler, r.operator? key = some ⟨key, precedence, 2, .custom handler⟩

/-- Whether a call of the operation takes this number of arguments. -/
def Takes (op : Operation) (count : Nat) : Prop :=
  match op with
  | .builtin b => b = .conditional ∧ count = 3 ∨ b ∈ [.majority, .consensus]
  | .named key => (r.function? key).isSome ∨ ¬r.NamesOperator key

mutual

inductive Written : Int → Tree → List Symbol → Prop
  | literal (level : Int) (s : State) : Written level (.literal s) [.literal s]
  | path (level : Int) {word : String} : IsPath r word → Written level (.path word) [.path word]
  | group (level : Int) {inner : Int} {t : Tree} {symbols : List Symbol} :
      Written inner t symbols → Written level t (.opening :: symbols ++ [.closing])
  | not (level : Int) {t : Tree} {symbols : List Symbol} :
      Written 4 t symbols → Written level (.not t) (.not :: symbols)
  | connect {level precedence : Int} {op : Operation} {left right : Tree}
      {lefts rights : List Symbol} :
      Joins r op precedence → level ≤ precedence →
      Written precedence left lefts → Written (precedence + 1) right rights →
      Written level (.connect op left right) (lefts ++ .connective op :: rights)
  | bare (level : Int) {op : Operation} :
      Takes r op 0 → Written level (.call op []) [.callee op, .opening, .closing]
  | call (level : Int) {op : Operation} {arguments : List Tree} {symbols : List Symbol} :
      Takes r op arguments.length → AllWritten arguments symbols →
      Written level (.call op arguments) (.callee op :: .opening :: symbols ++ [.closing])

/-- One or more expressions, with a comma between each two. -/
inductive AllWritten : List Tree → List Symbol → Prop
  | one {level : Int} {t : Tree} {symbols : List Symbol} :
      Written level t symbols → AllWritten [t] symbols
  | more {level : Int} {t : Tree} {ts : List Tree} {firsts others : List Symbol} :
      Written level t firsts → AllWritten ts others →
      AllWritten (t :: ts) (firsts ++ .comma :: others)

end

end

/-! ## Spelling -/

def IsWord (cs : List Char) : Prop := cs ≠ [] ∧ cs.all isWordChar = true

instance (cs : List Char) : Decidable (IsWord cs) :=
  inferInstanceAs (Decidable (cs ≠ [] ∧ cs.all isWordChar = true))

/-- A word does not begin with a sign that inverts it. -/
theorem IsWord.not_inverted {cs : List Char} (h : IsWord cs) (rest : List Char) : cs ≠ '!' :: rest := by
  intro heq
  have hmark := List.all_eq_true.1 h.2 '!' (heq ▸ List.mem_cons_self)
  exact absurd hmark (by decide)

def Operation.SpelledBy (op : Operation) (cs : List Char) : Prop :=
  match op with
  | builtin b => Text.upper (String.ofList cs) ∈ b.spellings
  | named key => IsWord cs ∧ Text.upper (String.ofList cs) = key

instance (op : Operation) (cs : List Char) : Decidable (op.SpelledBy cs) :=
  match op with
  | .builtin b => inferInstanceAs (Decidable (Text.upper (String.ofList cs) ∈ b.spellings))
  | .named key => inferInstanceAs (Decidable (IsWord cs ∧ Text.upper (String.ofList cs) = key))

def Symbol.SpelledBy (symbol : Symbol) (cs : List Char) : Prop :=
  match symbol with
  | literal s => IsWord cs ∧ s.SpelledBy (String.ofList cs)
  | path word => IsWord cs ∧ String.ofList cs = word
  | not => Text.upper (String.ofList cs) ∈ Builtin.not.spellings
  | connective op => op.SpelledBy cs
  | callee op => op.SpelledBy cs ∧ State.Unspelled (String.ofList cs)
  | opening => cs = ['(']
  | comma => cs = [',']
  | closing => cs = [')']

instance (symbol : Symbol) (cs : List Char) : Decidable (symbol.SpelledBy cs) :=
  match symbol with
  | .literal s => inferInstanceAs (Decidable (IsWord cs ∧ s.SpelledBy (String.ofList cs)))
  | .path word => inferInstanceAs (Decidable (IsWord cs ∧ String.ofList cs = word))
  | .not => inferInstanceAs (Decidable (Text.upper (String.ofList cs) ∈ Builtin.not.spellings))
  | .connective op => inferInstanceAs (Decidable (op.SpelledBy cs))
  | .callee op => inferInstanceAs (Decidable (op.SpelledBy cs ∧ State.Unspelled (String.ofList cs)))
  | .opening => inferInstanceAs (Decidable (cs = ['(']))
  | .comma => inferInstanceAs (Decidable (cs = [',']))
  | .closing => inferInstanceAs (Decidable (cs = [')']))

/-- The pieces, in their order, with blanks around them as one likes; only a word must not
    be followed by what it would grow into. -/
inductive Spaced : List (List Char) → List Char → Prop
  | nil : Spaced [] []
  | blank {c : Char} {pieces : List (List Char)} {cs : List Char} :
      Text.isBlank c = true → Spaced pieces cs → Spaced pieces (c :: cs)
  | mark {c : Char} {pieces : List (List Char)} {cs : List Char} :
      isMark c = true → Spaced pieces cs → Spaced ([c] :: pieces) (c :: cs)
  | word {w : List Char} {pieces : List (List Char)} {cs : List Char} :
      IsWord w → cs.head?.any isWordChar = false → Spaced pieces cs →
      Spaced (w :: pieces) (w ++ cs)

/-- Whether the text is an expression of the language with the tree `t`. -/
def Tree.SpelledBy (r : Registry) (t : Tree) (text : String) : Prop :=
  ∃ level symbols pieces, Written r level t symbols ∧
    List.Forall₂ Symbol.SpelledBy symbols pieces ∧ Spaced pieces text.toList

end Expression

end Verdict
