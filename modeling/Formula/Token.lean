/-! # Tokens

The smallest meaningful pieces of an expression's text, with the offset of their first character. A
unary operator carries its mark in the surface, so the surface of every operator is its key in a
registry.
-/
namespace Formula

inductive TokenKind where
  | number
  | hexadecimal
  | text
  | variableName
  | functionName
  | operator
  | unaryOperator
  | openParen
  | closeParen
  | comma
deriving DecidableEq

structure Token where
  kind : TokenKind
  surface : String
  offset : Nat
deriving DecidableEq

namespace TokenKind

/-- After these an operator is unary. The start of the text counts as well. -/
def precedesUnary : TokenKind → Bool
  | operator | unaryOperator | openParen | comma => true
  | _ => false

def endsOperand : TokenKind → Bool
  | number | hexadecimal | text | variableName | closeParen => true
  | _ => false

def startsOperand : TokenKind → Bool
  | number | hexadecimal | text | variableName | functionName | openParen => true
  | _ => false

def multiplies : TokenKind → Bool
  | number | hexadecimal | variableName | closeParen => true
  | _ => false

def isMultiplied : TokenKind → Bool
  | openParen | variableName | functionName => true
  | _ => false

def isOperator : TokenKind → Bool
  | operator | unaryOperator => true
  | _ => false

end TokenKind

namespace Token

def unmarked (token : Token) : String := String.ofList token.surface.toList.dropLast

def symbol (token : Token) : String :=
  if token.kind = .unaryOperator then token.unmarked else token.surface

end Token

end Formula
