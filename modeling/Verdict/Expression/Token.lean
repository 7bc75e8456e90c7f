/-
  Verdict.Expression.Token — lexemes with their part in an expression.

  A word is an operator when its key is registered as one, and an operand otherwise. A
  word in front of an open parenthesis is the name of a call, provided that it stands
  where an operand may begin and is neither a literal nor an operator without a call
  form.
-/

import Verdict.Expression.Lexeme
import Verdict.Expression.Registry

namespace Verdict.Expression

inductive TokenKind
  | operand | operator | function | opening | closing | comma
  deriving DecidableEq, Repr

namespace TokenKind

def all : List TokenKind := [operand, operator, function, opening, closing, comma]

def name : TokenKind → String
  | operand => "operand"
  | operator => "operator"
  | function => "function"
  | opening => "lparen"
  | closing => "rparen"
  | comma => "comma"

end TokenKind

/-- A lexeme with its part. In postfix order a call carries the number of its arguments. -/
structure Token where
  kind : TokenKind
  text : String
  position : Nat
  arguments : Nat
  deriving DecidableEq, Repr

namespace Token

def isOpening (t : Token) : Bool := t.kind == .opening

def isFunction (t : Token) : Bool := t.kind == .function

def isOperator (t : Token) : Bool := t.kind == .operator

end Token

/-- Whether an operand may begin after a token of this kind, or at the very start. -/
def operandMayBegin : Option TokenKind → Bool
  | none => true
  | some kind =>
    match kind with
    | .operator | .opening | .comma | .function => true
    | .operand | .closing => false

/-- Whether the next lexeme opens a parenthesis. -/
def opensNext : List Lexeme → Bool
  | l :: _ => l.text == ['(']
  | [] => false

namespace Registry

/-- The part of a word, and the text by which it is known. -/
def classifyWord (r : Registry) (word : String) (mayCall : Bool) : TokenKind × String :=
  let key := keyOf word
  if mayCall && (isCallableKey key || (r.function? key).isSome) then (.function, key)
  else if (r.operator? key).isSome then (.operator, key)
  else if mayCall && (literal? word).isNone then (.function, key)
  else (.operand, word)

/-- The part of a lexeme, and the text by which it is known. -/
def classify (r : Registry) (l : Lexeme) (mayCall : Bool) : TokenKind × String :=
  let text := String.ofList l.text
  match l.text with
  | ['('] => (.opening, text)
  | [')'] => (.closing, text)
  | [','] => (.comma, text)
  | [c] => if isMark c then (.operator, keyOf text) else r.classifyWord text mayCall
  | _ => r.classifyWord text mayCall

/-- The tokens of lexemes that follow a token of kind `previous`. -/
def tokensAfter (r : Registry) (previous : Option TokenKind) : List Lexeme → List Token
  | [] => []
  | l :: rest =>
    let part := r.classify l (operandMayBegin previous && opensNext rest)
    ⟨part.1, part.2, l.position, 0⟩ :: tokensAfter r (some part.1) rest

/-- The tokens of an expression. -/
def tokenize (r : Registry) (expression : String) : List Token :=
  r.tokensAfter none (lexemes 0 expression.toList)

end Registry

end Verdict.Expression
