/-
  Verdict.Proofs.Raising — what expressions and readings can fail with.

  An expression knows no gates, so nothing in it is an undefined operand: its conversion
  fails as malformed or for a key or an index that is missing, its operands for a value
  without a state. Only a handler that was registered can fail in any way it likes
  (`Registry.evaluate_confined`). A blueprint is read without looking any name up, so that
  fails on no undefined operand either (`Blueprint.ofValue_defined`).
-/

import Verdict.Blueprint.Reading
import Verdict.Logic
import Verdict.Proofs.Acceptance

namespace Verdict

def IsUndefined (e : Error) : Prop := e.family = .undefinedOperand

namespace Expression

/-- Whether some handler of the registry can fail in this way. -/
def Registry.Raises (r : Registry) (e : Error) : Prop :=
  (∃ spec ∈ r.operators, ∃ handler states, spec.action = .custom handler ∧ (handler states).result = .error e) ∨
    ∃ f ∈ r.functions, ∃ states, (f.2 states).result = .error e

/-! ## Conversion -/

variable {r : Registry}

theorem operator_defined (key : String) : FailsAs (¬IsUndefined ·) (r.operator key) := by
  unfold Registry.operator
  split
  · trivial
  · exact fun h => nomatch h

theorem IsRefusal.defined {e : Error} (h : IsRefusal e) : ¬IsUndefined e := by
  intro hundefined
  rcases h with h | h <;> rw [IsUndefined, h] at hundefined <;> cases hundefined

namespace Yard

theorem yielding_defined (precedence : Int) (waiting : List Token) :
    FailsAs (¬IsUndefined ·) (yielding r precedence waiting) := by
  induction waiting with
  | nil => trivial
  | cons t waiting ih =>
    unfold yielding
    split
    · refine (operator_defined t.text).bind fun spec _ => ?_
      split
      · trivial
      · exact ih.bind fun _ _ => trivial
    · trivial

theorem closeGroup_defined (t : Token) (yard : Yard) :
    FailsAs (¬IsUndefined ·) (yard.closeGroup t) := by
  unfold closeGroup
  simp only []
  split
  · exact fun h => nomatch h
  · trivial

theorem pushOperator_defined (t : Token) (yard : Yard) :
    FailsAs (¬IsUndefined ·) (yard.pushOperator r t) := by
  unfold pushOperator
  refine (operator_defined t.text).bind fun spec _ => ?_
  split
  · trivial
  · exact (yielding_defined _ _).bind fun _ _ => trivial

theorem nextArgument_defined (t : Token) (yard : Yard) :
    FailsAs (¬IsUndefined ·) (yard.nextArgument t) := by
  unfold nextArgument
  refine (closeGroup_defined t yard).bind fun closed _ => ?_
  split
  · split
    · split
      · trivial
      · exact fun h => nomatch h
    · exact fun h => nomatch h
  · exact fun h => nomatch h

theorem endGroup_defined (t : Token) (yard : Yard) :
    FailsAs (¬IsUndefined ·) (yard.endGroup t) := by
  unfold endGroup
  refine (closeGroup_defined t yard).bind fun closed _ => ?_
  split
  · split
    · split
      · trivial
      · exact fun h => nomatch h
    · trivial
  · trivial

theorem take_defined (yard : Yard) (t : Token) : FailsAs (¬IsUndefined ·) (yard.take r t) := by
  unfold take
  cases t.kind with
  | operand | function | opening => trivial
  | operator => exact (pushOperator_defined t yard).bind fun _ _ => trivial
  | comma => exact (nextArgument_defined t yard).bind fun _ _ => trivial
  | closing => exact (endGroup_defined t yard).bind fun _ _ => trivial

theorem release_defined (waiting : List Token) :
    FailsAs (¬IsUndefined ·) (release waiting) := by
  induction waiting with
  | nil => trivial
  | cons t waiting ih =>
    unfold release
    split
    · rintro ⟨⟩
    · exact ih.bind fun _ _ => trivial

end Yard

theorem toPostfix_defined (tokens : List Token) :
    FailsAs (¬IsUndefined ·) (r.toPostfix tokens) := by
  unfold Registry.toPostfix
  refine (Ends.foldlM Yard.take_defined _ _).bind fun yard _ => ?_
  exact (Yard.release_defined _).bind fun _ _ => trivial

/-! ## Runs -/

/-- Whether the error is no undefined operand, unless a handler raises it. -/
def Registry.Confined (r : Registry) (e : Error) : Prop := IsUndefined e → r.Raises e

theorem IsRefusal.confined {e : Error} (h : IsRefusal e) : r.Confined e := fun hundefined =>
  absurd hundefined h.defined

variable {expression : String} {context : Value}

theorem Term.resolveAll_confined (ts : List Term) :
    FailsAs r.Confined (Term.resolveAll context ts) :=
  (Term.resolveAll_ends ts).weaken fun _ => IsRefusal.confined

theorem operator_confined (key : String) :
    Ends r.Confined (fun spec => spec ∈ r.operators) (r.operator key) := by
  unfold Registry.operator
  cases hspec : r.operator? key with
  | some spec => exact List.mem_of_find?_eq_some hspec
  | none => exact fun h => nomatch h

/-- A handler fails by itself or by an answer without a state. -/
theorem apply_confined {handler : Handler} (hraises : ∀ states e, (handler states).result = .error e → r.Raises e)
    (states : List State) : FailsAs r.Confined (handler.apply states).result := by
  rw [Handler.apply, Outcome.result_bind]
  cases hanswer : (handler states).result with
  | error e => exact fun _ => hraises states e hanswer
  | ok v => exact (toState_ends v).weaken fun _ => IsRefusal.confined

theorem action_confined {spec : OperatorSpec} (hspec : spec ∈ r.operators) (states : List State) :
    FailsAs r.Confined (spec.action.apply states).result := by
  cases haction : spec.action with
  | builtin b => trivial
  | custom handler => exact apply_confined (fun states e he => .inl ⟨spec, hspec, handler, states, haction, he⟩) states

theorem popOperands_confined (t : Token) (arity : Int) (stack : List Term) :
    FailsAs r.Confined (popOperands expression t arity stack) := by
  unfold popOperands
  split
  · exact fun h => nomatch h
  · trivial

theorem call_confined (t : Token) (operands : List Term) :
    FailsAs r.Confined (r.call context t operands).result := by
  unfold Registry.call
  split
  · split
    · exact fun h => nomatch h
    · simp only [Outcome.result_bind, Outcome.result_lift]
      exact (Term.resolveAll_confined operands).bind fun _ _ => trivial
  · split
    · simp only [Outcome.result_bind, Outcome.result_lift]
      refine (operator_confined t.text).bind fun spec hspec => ?_
      exact (Term.resolveAll_confined operands).bind fun states _ => action_confined hspec states
    · cases hhandler : r.function? t.text with
      | none => trivial
      | some handler =>
        simp only [Outcome.result_bind, Outcome.result_lift]
        refine (Term.resolveAll_confined operands).bind fun states _ => apply_confined (fun states e he => ?_) states
        obtain ⟨before, after, hsplit, -⟩ := List.lookup_eq_some_iff.1 hhandler
        exact .inr ⟨(t.text, handler), by rw [hsplit]; simp, states, he⟩

theorem step_confined (stack : List Term) (t : Token) :
    FailsAs r.Confined (r.step expression context stack t).result := by
  have hoperator : FailsAs r.Confined (do
      let spec ← r.operator t.text
      let operands ← popOperands expression t spec.arity stack
      let states ← Term.resolveAll context operands.1
      let s ← (spec.action.apply states).result
      return Term.state s :: operands.2) := by
    refine (operator_confined t.text).bind fun spec hspec => ?_
    refine (popOperands_confined t spec.arity stack).bind fun operands _ => ?_
    refine (Term.resolveAll_confined operands.1).bind fun states _ => ?_
    exact (action_confined hspec states).bind fun _ _ => trivial
  unfold Registry.step
  cases t.kind with
  | operand => trivial
  | function =>
    simp only [Outcome.result_bind, Outcome.result_lift]
    refine (popOperands_confined t _ stack).bind fun operands _ => ?_
    exact (call_confined t operands.1).bind fun _ _ => trivial
  | operator | opening | closing | comma =>
    simp only [Outcome.result_bind, Outcome.result_lift]
    exact hoperator

theorem Registry.evaluate_confined (text : String) (context : Value) :
    FailsAs r.Confined (r.evaluate text context).result := by
  unfold Registry.evaluate
  simp only [Outcome.result_bind, Outcome.result_lift, Outcome.result_foldlM]
  have hpostfix : FailsAs r.Confined (r.toPostfix (r.tokenize text)) :=
    (toPostfix_defined _).weaken fun _ hdefined h => absurd h hdefined
  refine hpostfix.bind fun code _ => ?_
  refine (Ends.foldlM step_confined _ _).bind fun stack _ => ?_
  unfold conclude
  split
  · trivial
  · exact (Term.resolve_ends _).weaken fun _ => IsRefusal.confined
  · exact fun h => nomatch h

end Expression

/-! ## Reading -/

theorem truth_defined (v : Value) : FailsAs (¬IsUndefined ·) v.truth := by
  unfold Value.truth
  split <;> first | trivial | exact fun h => nomatch h

theorem orElse_defined (v other : Value) : FailsAs (¬IsUndefined ·) (v.orElse other) := by
  unfold Value.orElse
  refine (truth_defined v).bind fun b _ => ?_
  split <;> trivial

theorem Value.asMapping_defined (v : Value) : FailsAs (¬IsUndefined ·) v.asMapping := by
  unfold asMapping
  split
  · trivial
  · exact fun h => nomatch h

theorem Value.elements_defined (v : Value) : FailsAs (¬IsUndefined ·) v.elements := by
  unfold elements
  split
  · trivial
  · exact fun h => nomatch h

theorem Value.toState_defined (v : Value) : FailsAs (¬IsUndefined ·) v.toState :=
  (Expression.toState_ends v).weaken fun _ h => h.defined

theorem Value.weights_defined (v : Value) : FailsAs (¬IsUndefined ·) v.weights := by
  have hweight (v : Value) : FailsAs (¬IsUndefined ·) v.toWeight := by
    unfold toWeight
    repeat' split
    all_goals first | trivial | exact fun h => nomatch h
  have hweights (vs : List Value) : FailsAs (¬IsUndefined ·) (toWeights vs) := by
    induction vs with
    | nil => trivial
    | cons v vs ih => exact (hweight v).bind fun _ _ => ih.bind fun _ _ => trivial
  unfold weights
  refine (truth_defined v).bind fun counts _ => ?_
  cases counts with
  | false => trivial
  | true => exact v.elements_defined.bind fun vs _ => hweights vs

theorem Source.ofValue_defined (v : Value) : FailsAs (¬IsUndefined ·) (Source.ofValue v) := by
  unfold ofValue
  repeat' split
  all_goals first | trivial | exact (fun h => nomatch h) | exact (Value.toState_defined _).bind fun _ _ => trivial

theorem Operand.ofValues_defined (index : Nat) (vs : List Value) :
    FailsAs (¬IsUndefined ·) (Operand.ofValues index vs) := by
  have hvalue (v : Value) (index : Nat) : FailsAs (¬IsUndefined ·) (ofValue v index) := by
    unfold ofValue
    repeat' split
    all_goals first | trivial | exact (fun h => nomatch h) | exact (Value.toState_defined _).bind fun _ _ => trivial
  induction vs generalizing index with
  | nil => trivial
  | cons v vs ih => exact (hvalue v index).bind fun _ _ => (ih (index + 1)).bind fun _ _ => trivial

theorem Operator.read_defined (v : Value) : FailsAs (¬IsUndefined ·) (Operator.read v).result := by
  unfold read
  repeat' split
  all_goals trivial

theorem Gate.ofDefinitions_defined (items : List (Value × Value)) :
    FailsAs (¬IsUndefined ·) (Gate.ofDefinitions items).result := by
  have hdefinition (name definition : Value) : FailsAs (¬IsUndefined ·) (ofDefinition name definition).result := by
    simp only [ofDefinition, Outcome.result_bind, Outcome.result_lift]
    refine (Value.asMapping_defined _).bind fun entries _ => (orElse_defined _ _).bind fun operands _ => ?_
    refine (Operator.read_defined _).bind fun operator _ => (Value.elements_defined _).bind fun values _ => ?_
    exact (Operand.ofValues_defined _ _).bind fun _ _ => (Value.weights_defined _).bind fun _ _ => trivial
  induction items with
  | nil => trivial
  | cons item items ih =>
    simp only [ofDefinitions, Outcome.result_bind]
    exact (hdefinition _ _).bind fun _ _ => ih.bind fun _ _ => trivial

theorem Blueprint.gateItems_defined (gates : Value) : FailsAs (¬IsUndefined ·) (gateItems gates) := by
  have hlisted (index : Nat) (definitions : List Value) : FailsAs (¬IsUndefined ·) (listed index definitions) := by
    induction definitions generalizing index with
    | nil => trivial
    | cons definition rest ih =>
      refine definition.asMapping_defined.bind fun entries _ => (orElse_defined _ _).bind fun name _ => ?_
      exact (ih (index + 1)).bind fun _ _ => trivial
  unfold gateItems
  split
  · trivial
  · exact (Value.elements_defined _).bind fun definitions _ => hlisted 0 definitions

theorem Blueprint.inputName_defined (key : Value) : FailsAs (¬IsUndefined ·) (inputName key) := by
  unfold inputName
  split
  · exact fun h => nomatch h
  · trivial

theorem Blueprint.readInputs_defined (read : List (String × Source)) (entries : List (Value × Value)) :
    FailsAs (¬IsUndefined ·) (readInputs read entries) := by
  induction entries generalizing read with
  | nil => trivial
  | cons e rest ih =>
    refine (inputName_defined e.1).bind fun name _ => ?_
    exact (Source.ofValue_defined e.2).bind fun source _ => ih _

theorem Blueprint.ofValue_defined (v : Value) : FailsAs (¬IsUndefined ·) (Blueprint.ofValue v).result := by
  unfold ofValue
  split
  · trivial
  · simp only [ofMapping, Outcome.result_bind, Outcome.result_lift]
    refine v.asMapping_defined.bind fun entries _ => (orElse_defined _ _).bind fun gates _ => ?_
    refine (gateItems_defined _).bind fun items _ => (orElse_defined _ _).bind fun written _ => ?_
    refine (Value.asMapping_defined _).bind fun inputs _ => (readInputs_defined _ _).bind fun read _ => ?_
    exact (Gate.ofDefinitions_defined _).bind fun _ _ => (orElse_defined _ _).bind fun _ _ => trivial

/-! ## Logics -/

/-- Whether a handler of the logic's language can fail in this way. -/
def Logic.Raises (l : Logic) (e : Error) : Prop := ∃ r ∈ l.registry, r.Raises e

theorem Logic.expression_confined (l : Logic) (text context : Value) :
    FailsAs (fun e => IsUndefined e → l.Raises e) (l.expression text context).result := by
  unfold Logic.expression
  cases hregistry : l.registry with
  | none => exact fun h => nomatch h
  | some r =>
    simp only [Outcome.result_bind, Outcome.result_lift]
    refine ((orElse_defined context _).weaken (fun _ hdefined h => absurd h hdefined)).bind
      fun context _ => ?_
    split
    · next s _ => exact (r.evaluate_confined s context).weaken fun _ h hundefined => ⟨r, hregistry, h hundefined⟩
    · exact fun h => nomatch h

end Verdict
