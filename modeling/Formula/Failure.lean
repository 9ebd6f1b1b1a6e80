import Formula.Decimal.Context
import Formula.Binary64.Elementary
import Formula.Text.Quoted

/-! # Failures

Every failure has a cause, and one function writes the cause out. Failures of expressions may carry the
offset they refer to; the others come from arithmetic, from data that cannot be used, or from host code.
-/
namespace Formula

inductive FailureKind where
  | lexical
  | structural
  | evaluation
  | arity
  | operandType
  | registration
deriving DecidableEq

/-- Why an expression cannot be read, built or evaluated, or an entry cannot be registered. -/
inductive Cause where
  | malformedHexadecimal
  | malformedNumber (text : String)
  | unterminatedString
  | unexpectedCharacter (character : Char)
  | malformedLiteral (surface : String)
  | missingOperator
  | missingArgument
  | strayComma
  | missingOperands (symbol : String)
  | unknownOperator (symbol : String)
  | unknownUnaryOperator (symbol : String)
  | misplacedUnaryOperator (symbol : String)
  | missingOperandsAfter (symbol : String)
  | mismatchedParentheses
  | unnecessarySemicolon
  | unknownFunction (name : String)
  | argumentCount (name : String) (expected : Int) (given : Nat)
  | tooManyCalls
  | openArgumentLists
  | tooManyOperands
  | emptyExpression
  | unregisteredOperator (symbol : String)
  | unregisteredFunction (name : String)
  | unexpectedToken (surface : String)
  | malformedExpression
  | nestedTooDeeply
  | operationFailed (name reason : String)
  | notAValue (name kind : String)
  | notDeferred (role name : String)
  | outOfRange (number : String)
  | areaTangentDomain
  | assignmentTarget
  | swapOperands
  | reported (message : String)
  | noArguments (name : String)
  | incompleteCase
  | notANumber (place kind text : String)
  | notAList (place text : String)
  | noLength (text : String)
  | notFinite (number : String)
  | inconvertible (kind : String)
  | frozen
  | invalidSymbol (symbol : String)
  | invalidName (name : String)
deriving DecidableEq

namespace Cause

def kind : Cause → FailureKind
  | malformedHexadecimal | malformedNumber _ | unterminatedString | unexpectedCharacter _
  | malformedLiteral _ => .lexical
  | missingOperator | missingArgument | strayComma | missingOperands _ | unknownOperator _
  | unknownUnaryOperator _ | misplacedUnaryOperator _ | missingOperandsAfter _
  | mismatchedParentheses | unnecessarySemicolon | unknownFunction _ | argumentCount ..
  | tooManyCalls | openArgumentLists | tooManyOperands | emptyExpression => .structural
  | unregisteredOperator _ | unregisteredFunction _ | unexpectedToken _ | malformedExpression
  | nestedTooDeeply | operationFailed .. | notAValue .. | notDeferred .. | outOfRange _
  | areaTangentDomain | assignmentTarget | swapOperands | reported _ => .evaluation
  | noArguments _ | incompleteCase => .arity
  | notANumber .. | notAList .. | noLength _ | notFinite _ | inconvertible _ => .operandType
  | frozen | invalidSymbol _ | invalidName _ => .registration

def message : Cause → String
  | malformedHexadecimal => "Malformed hexadecimal literal"
  | malformedNumber text => "Malformed numeric literal " ++ Text.quoted text
  | unterminatedString => "Unterminated string literal"
  | unexpectedCharacter c => "Unexpected character " ++ Text.quoted (String.singleton c)
  | malformedLiteral surface => "Malformed literal '" ++ surface ++ "'"
  | missingOperator => "Missing operator"
  | missingArgument => "Missing parameter before comma"
  | strayComma => "Unexpected comma outside a function's argument list"
  | missingOperands symbol => "Missing parameter(s) for operator " ++ symbol
  | unknownOperator symbol => "Unknown operator '" ++ symbol ++ "'"
  | unknownUnaryOperator symbol => "Unknown unary operator '" ++ symbol ++ "'"
  | misplacedUnaryOperator symbol => "Invalid position for unary operator " ++ symbol
  | missingOperandsAfter symbol => "Missing parameter(s) after '" ++ symbol ++ "'"
  | mismatchedParentheses => "Mismatched parentheses"
  | unnecessarySemicolon => "Unnecessary semicolon"
  | unknownFunction name => "Unknown function '" ++ name ++ "'"
  | argumentCount name expected given =>
    "Function " ++ name ++ " expected " ++ toString expected ++ " parameters, got " ++ toString given
  | tooManyCalls => "Too many function calls, maximum scope exceeded"
  | openArgumentLists => "Too many unhandled function parameter lists"
  | tooManyOperands => "Too many numbers or variables"
  | emptyExpression => "Empty expression"
  | unregisteredOperator symbol => "Unknown operator '" ++ symbol ++ "'"
  | unregisteredFunction name => "Unknown function '" ++ name ++ "'"
  | unexpectedToken surface => "Unexpected token '" ++ surface ++ "'"
  | malformedExpression => "Malformed expression"
  | nestedTooDeeply => "Expression nested too deeply"
  | operationFailed name reason => name ++ ": " ++ reason
  | notAValue name kind => name ++ " returned " ++ kind ++ ", not a value"
  | notDeferred role name => role ++ " " ++ name ++ " did not return a lazy value"
  | outOfRange number => "numeric result out of range: " ++ number
  | areaTangentDomain => "atanh: number must be |x| < 1"
  | assignmentTarget => "LHS of assignment needs to be a variable"
  | swapOperands => "Both sides of swapping assignment need to be variables"
  | reported message => message
  | noArguments name => name ++ " requires at least one parameter"
  | incompleteCase =>
    "case statement needs to have at least one condition and case, and a default value"
  | notANumber place kind text =>
    place ++ " expects a number, got " ++ kind ++ " " ++ Text.quoted text
  | notAList place text =>
    "Second argument of " ++ place ++ " should be a list, got " ++ Text.quoted text
  | noLength text => "len expects a list or a string, got " ++ Text.quoted text
  | notFinite number => "Cannot convert non-finite number " ++ number ++ " to a value"
  | inconvertible kind => "Cannot convert " ++ kind ++ " to a value"
  | frozen => "Registry is frozen; extend it before the first evaluation"
  | invalidSymbol symbol => "Invalid operator symbol " ++ Text.quoted symbol
  | invalidName name => "Invalid function name " ++ Text.quoted name

end Cause

/-- Misuse that no message describes. -/
inductive Fault where
  | missingItem
  | missingKey
  | missingMember
  | wrongType
deriving DecidableEq

inductive Format where
  | json
  | yaml
deriving DecidableEq

inductive Failure where
  | expression (cause : Cause) (offset : Option Nat)
  /-- The stack is full. No place in the text is at fault. -/
  | tooDeep
  | numeric (signal : Signal)
  | floating (fault : Binary64.Fault)
  | tooLarge (message : String)
  | invalid (message : String)
  | crashed (message : String)
  /-- A document that its format does not allow. -/
  | malformed (format : Format)
  /-- Data that nest too far, or without end; `activity` is what this was found in. -/
  | endless (activity : String)
  | fault (fault : Fault)
deriving DecidableEq

namespace Failure

def of (cause : Cause) : Failure := .expression cause none

def «at» (cause : Cause) (offset : Nat) : Failure := .expression cause (some offset)

/-- Gives a failure of an expression the place `offset`, unless it has one. -/
def locate (offset : Nat) : Failure → Failure
  | .expression cause none => .expression cause (some offset)
  | failure => failure

def signalText : Signal → String
  | .divisionByZero => "[<class 'decimal.DivisionByZero'>]"
  | .undefined => "[<class 'decimal.InvalidOperation'>]"
  | .overflow => "[<class 'decimal.Overflow'>]"

def floatingText : Binary64.Fault → String
  | .domain => "math domain error"
  | .range => "math range error"
  | .divisionByZero => "float division by zero"
  | .areaTangent => Cause.areaTangentDomain.message

def message : Failure → String
  | .expression cause _ => cause.message
  | .tooDeep => Cause.nestedTooDeeply.message
  | .numeric signal => signalText signal
  | .floating cause => floatingText cause
  | .tooLarge message | .invalid message | .crashed message => message
  | .endless activity => "maximum recursion depth exceeded" ++ activity
  | .malformed _ | .fault _ => ""

def offset? : Failure → Option Nat
  | .expression _ offset => offset
  | _ => none

/-- What an operation reports about a failure of its numbers or arguments; other failures pass. -/
def reason? : Failure → Option String
  | .numeric .divisionByZero => some "division by zero"
  | .numeric .undefined => some "undefined numeric operation"
  | .numeric .overflow => some (signalText .overflow)
  | .floating .areaTangent => none
  | .floating cause => some (floatingText cause)
  | .tooLarge message => some message
  | .invalid message => some (if message.isEmpty then "ValueError" else message)
  | .expression .. | .tooDeep | .crashed _ | .malformed _ | .endless _ | .fault _ => none

def within (name : String) (failure : Failure) : Failure :=
  match failure.reason? with
  | some reason => .of (.operationFailed name reason)
  | none =>
    match failure with
    | .floating .areaTangent => .of .areaTangentDomain
    | other => other

end Failure

end Formula
