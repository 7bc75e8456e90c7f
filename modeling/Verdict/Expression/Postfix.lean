/-
  Verdict.Expression.Postfix — tokens in the order in which a stack machine takes them.

  Operands go straight to the output. Operators, calls and open parentheses wait on a
  stack: an operator of two or more operands first releases the waiting operators that
  bind at least as strongly, a comma or closing parenthesis everything down to the open
  one. Each open call counts its arguments.
-/

import Verdict.Expression.Token

namespace Verdict.Expression

/-- The conversion so far. -/
structure Yard where
  output : List Token
  /-- Waiting tokens, the last one first. -/
  waiting : List Token
  /-- Arguments of the open calls, the innermost first. -/
  counts : List Nat
  previous : Option TokenKind
  deriving DecidableEq, Repr

namespace Yard

def empty : Yard := ⟨[], [], [], none⟩

/-- The waiting operators that bind at least as strongly as `precedence`, and the tokens
    below them. -/
def yielding (r : Registry) (precedence : Int) :
    List Token → Except Error (List Token × List Token)
  | [] => .ok ([], [])
  | t :: rest =>
    if t.isOperator then do
      let spec ← r.operator t.text
      if spec.precedence < precedence then return ([], t :: rest)
      let (released, left) ← yielding r precedence rest
      return (t :: released, left)
    else .ok ([], t :: rest)

/-- Releases everything above the innermost open parenthesis; `cause` needs one. -/
def closeGroup (cause : Token) (yard : Yard) : Except Error Yard :=
  let above := yard.waiting.takeWhile fun t => !t.isOpening
  match yard.waiting.dropWhile fun t => !t.isOpening with
  | [] => .error (.malformed (.unexpected cause.text cause.position))
  | left => .ok { yard with output := yard.output ++ above, waiting := left }

def pushOperator (r : Registry) (t : Token) (yard : Yard) : Except Error Yard := do
  let spec ← r.operator t.text
  if spec.arity ≤ 1 then return { yard with waiting := t :: yard.waiting }
  let (released, left) ← yielding r spec.precedence yard.waiting
  return { yard with output := yard.output ++ released, waiting := t :: left }

def openGroup (t : Token) (yard : Yard) : Yard :=
  let counts := if yard.previous = some .function then 1 :: yard.counts else yard.counts
  { yard with waiting := t :: yard.waiting, counts }

/-- One more argument for the innermost call. -/
def nextArgument (t : Token) (yard : Yard) : Except Error Yard := do
  let yard ← yard.closeGroup t
  match yard.waiting with
  | _ :: call :: _ =>
    if call.isFunction then
      match yard.counts with
      | n :: counts => return { yard with counts := (n + 1) :: counts }
      | [] => throw .missingIndex
    else throw (.malformed (.commaOutsideCall t.position))
  | _ => throw (.malformed (.commaOutsideCall t.position))

/-- Ends a group, and the call that it belongs to. -/
def endGroup (t : Token) (yard : Yard) : Except Error Yard := do
  let yard ← yard.closeGroup t
  match yard.waiting.drop 1 with
  | call :: left =>
    if call.isFunction then
      match yard.counts with
      | n :: counts =>
        let arguments := if yard.previous = some .opening then 0 else n
        return {
          yard with output := yard.output ++ [{ call with arguments }], waiting := left, counts }
      | [] => throw .missingIndex
    else return { yard with waiting := call :: left }
  | [] => return { yard with waiting := [] }

/-- Takes one token. -/
def take (r : Registry) (yard : Yard) (t : Token) : Except Error Yard := do
  let next ← match t.kind with
    | .operand => pure { yard with output := yard.output ++ [t] }
    | .function => pure { yard with waiting := t :: yard.waiting }
    | .operator => yard.pushOperator r t
    | .opening => pure (yard.openGroup t)
    | .comma => yard.nextArgument t
    | .closing => yard.endGroup t
  return { next with previous := some t.kind }

/-- Releases what still waits at the end; nothing may be open then. -/
def release : List Token → Except Error (List Token)
  | [] => .ok []
  | t :: rest => do
    if t.isOpening || t.isFunction then throw (.malformed (.unclosed t.position))
    return t :: (← release rest)

end Yard

/-- The tokens in postfix order. -/
def Registry.toPostfix (r : Registry) (tokens : List Token) : Except Error (List Token) := do
  let yard ← tokens.foldlM (Yard.take r) Yard.empty
  return yard.output ++ (← Yard.release yard.waiting)

end Verdict.Expression
