import Formula.Literal
import Formula.Registry

/-! # Expression trees

A tree is built from reverse Polish notation and is not evaluated while it is built. Runs of one
operator that associates to the left and forces its left operand first are kept flat, so that a long
script is no deeper than its deepest statement. Every node has a number of its own, under which an
evaluation counts how often the node is forced.
-/
namespace Formula

mutual
inductive Node where
  | constant (id : Nat) (label : String) (value : Value)
  | reference (id : Nat) (name : String) (offset : Nat)
  /-- A unary operator, or a binary one that does not run on. -/
  | operation (id : Nat) (label : String) (op : Operator) (offset : Nat) (operands : List Node)
  /-- A run of one operator. The value of its left side has the number after its own. -/
  | chain (id : Nat) (label : String) (op : Operator) (run : Run)
  | call (id : Nat) (label : String) (function : Function) (offset : Nat) (arguments : List Node)
  /-- The start of an argument list where an operand is needed. It has no value. -/
  | hole (id : Nat) (label : String)
/-- The operands `a op b op c ...` of a run, with the offset of each operator. -/
inductive Run where
  | pair (left : Node) (offset : Nat) (right : Node)
  | extended (run : Run) (offset : Nat) (right : Node)
end

namespace Node

def id : Node → Nat
  | .constant id .. | .reference id .. | .operation id .. | .chain id .. | .call id .. | .hole id _ => id

def label : Node → String
  | .constant _ label _ => label
  | .reference _ name _ => name
  | .operation _ label _ _ _ => label
  | .chain _ label _ _ => label
  | .call _ label _ _ _ => label
  | .hole _ label => label

def spelled (node : Node) : String :=
  match node with
  | .constant _ _ value => "<ConstantLazyValue " ++ value.spelled ++ ">"
  | other => "<LazyValue " ++ other.label ++ ">"

end Node

/-- Trees that wait for their operator, and the marks where argument lists start; the latest first. -/
structure Assembly where
  stack : List (Option Node)
  next : Nat

namespace Assembly

def push (node : Node) (stack : List (Option Node)) (next : Nat) : Assembly := ⟨some node :: stack, next⟩

def filled (next : Nat) : Option Node → Node
  | some node => node
  | none => .hole next "("

/-- The trees above the nearest mark, in the order they were pushed, and what lies below the mark. -/
def splitArguments (arguments : List Node) : List (Option Node) → List Node × List (Option Node)
  | [] => (arguments, [])
  | none :: rest => (arguments, rest)
  | some node :: rest => splitArguments (node :: arguments) rest

/-- Joins two operands. A run of the same operator on the left goes on, with or without parentheses
around it. One registry gives one operator for a label. -/
def binary (label : String) (op : Operator) (offset : Nat) (left right : Node) (next : Nat) :
    Node × Nat :=
  if !op.chainable then (.operation next label op offset [left, right], next + 1)
  else
    match left with
    | .chain id chained first run =>
      if chained = label then (.chain id chained first (.extended run offset right), next)
      else (.chain next label op (.pair left offset right), next + 2)
    | _ => (.chain next label op (.pair left offset right), next + 2)

def operator? (registry : Registry) (token : Token) : Except Failure Operator :=
  match registry.operator? token.surface with
  | some op => .ok op
  | none => .error (.at (.unregisteredOperator token.surface) token.offset)

def function? (registry : Registry) (token : Token) : Except Failure Function :=
  match registry.function? token.surface with
  | some f => .ok f
  | none => .error (.at (.unregisteredFunction token.surface) token.offset)

def step (registry : Registry) (context : Context) (assembly : Assembly) (token : Token) :
    Except Failure Assembly :=
  let next := assembly.next
  match token.kind with
  | .unaryOperator => do
    let op ← operator? registry token
    match assembly.stack with
    | [] => .error (.fault .missingItem)
    | operand :: rest =>
      let node := .operation next token.surface op token.offset [filled (next + 1) operand]
      return push node rest (next + 2)
  | .operator =>
    match assembly.stack with
    | right :: left :: rest => do
      let op ← operator? registry token
      let (node, next) :=
        binary token.surface op token.offset (filled next left) (filled (next + 1) right)
          (next + 2)
      return push node rest next
    | _ => .error (.fault .missingItem)
  | .functionName => do
    let (arguments, rest) := splitArguments [] assembly.stack
    let f ← function? registry token
    return push (.call next token.surface f token.offset arguments) rest (next + 1)
  | .openParen => .ok { assembly with stack := none :: assembly.stack }
  | .variableName => .ok (push (.reference next token.surface token.offset) assembly.stack (next + 1))
  | .number | .hexadecimal | .text => do
    let value ← Literal.value? context token
    return push (.constant next token.surface value) assembly.stack (next + 1)
  | .closeParen | .comma => .error (.at (.unexpectedToken token.surface) token.offset)

def steps (registry : Registry) (context : Context) (assembly : Assembly) :
    List Token → Except Failure Assembly
  | [] => .ok assembly
  | token :: tokens => do
    let assembly ← step registry context assembly token
    steps registry context assembly tokens

end Assembly

structure Tree where
  root : Node
  size : Nat

def Tree.ofRpn (registry : Registry) (context : Context) (rpn : List Token) : Except Failure Tree := do
  let assembly ← Assembly.steps registry context ⟨[], 0⟩ rpn
  match assembly.stack with
  | [place] => return ⟨Assembly.filled assembly.next place, assembly.next + 1⟩
  | _ => .error (.of .malformedExpression)

end Formula
