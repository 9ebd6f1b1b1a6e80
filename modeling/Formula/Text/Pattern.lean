/-! # Patterns

Regular patterns of characters. A text is matched character by character: the derivative of a pattern
by a character matches what may follow that character.
-/
namespace Formula.Text

inductive Pattern where
  /-- Matches no text. -/
  | nothing
  /-- Matches the empty text only. -/
  | blank
  | one (p : Char → Bool)
  | both (first second : Pattern)
  | either (left right : Pattern)
  | many (pattern : Pattern)

namespace Pattern

def isNullable : Pattern → Bool
  | nothing => false
  | blank => true
  | one _ => false
  | both first second => first.isNullable && second.isNullable
  | either left right => left.isNullable || right.isNullable
  | many _ => true

def andThen : Pattern → Pattern → Pattern
  | nothing, _ => nothing
  | blank, second => second
  | _, nothing => nothing
  | first, second => both first second

def orElse : Pattern → Pattern → Pattern
  | nothing, right => right
  | left, nothing => left
  | left, right => either left right

/-- Matches what may follow `c`. -/
def derivative (c : Char) : Pattern → Pattern
  | nothing | blank => nothing
  | one p => if p c then blank else nothing
  | both first second =>
    let ahead := (first.derivative c).andThen second
    if first.isNullable then ahead.orElse (second.derivative c) else ahead
  | either left right => (left.derivative c).orElse (right.derivative c)
  | many pattern => (pattern.derivative c).andThen (many pattern)

def accepts (pattern : Pattern) (cs : List Char) : Bool :=
  (cs.foldl (fun left c => left.derivative c) pattern).isNullable

def char (c : Char) : Pattern := one (· == c)

def anyOf (set : String) : Pattern := one fun c => set.toList.contains c

def between (low high : Char) : Pattern := one fun c => decide (low ≤ c) && decide (c ≤ high)

def word (text : String) : Pattern := text.toList.foldr (fun c rest => (char c).andThen rest) blank

def words (texts : List String) : Pattern := texts.foldr (fun text rest => (word text).orElse rest) nothing

def optional (pattern : Pattern) : Pattern := blank.orElse pattern

def some (pattern : Pattern) : Pattern := pattern.andThen (many pattern)

def sequence (patterns : List Pattern) : Pattern := patterns.foldr andThen blank

def choice (patterns : List Pattern) : Pattern := patterns.foldr orElse nothing

end Pattern

end Formula.Text
