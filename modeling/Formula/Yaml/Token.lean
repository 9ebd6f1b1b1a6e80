import Formula.Failure

/-! # Tokens of YAML

Block collections have tokens of their own where indentation opens and closes them. A text that cannot
be cut into tokens to its end has a last token that tells why.
-/
namespace Formula.Yaml

def malformed {α : Type} : Except Failure α := .error (.malformed .yaml)

def required {α : Type} : Option α → Except Failure α
  | some a => .ok a
  | none => malformed

inductive Token where
  | version (major minor : Nat)
  /-- Lets a handle stand for the start of tags. -/
  | handle (handle start : String)
  /-- A directive that has no meaning. -/
  | directive
  | documentStart
  | documentEnd
  | streamEnd
  | blockSequenceStart
  | blockMappingStart
  | blockEnd
  | flowSequenceStart
  | flowSequenceEnd
  | flowMappingStart
  | flowMappingEnd
  | blockEntry
  | flowEntry
  | key
  | value
  | alias (name : String)
  | anchor (name : String)
  | tag (handle : Option String) (rest : String)
  | scalar (content : String) (plain : Bool)
  | unreadable (failure : Failure)
deriving DecidableEq

end Formula.Yaml
