import Formula.Library.Arguments
import Formula.Value.Order

/-! # Lists, texts and output in the standard library -/
namespace Formula.Library

def maximum : Settings → List Value → Plan
  | _, [] => .fail (.of (.noArguments "max"))
  | _, value :: values => .done (Value.greatest value values)

def minimum : Settings → List Value → Plan
  | _, [] => .fail (.of (.noArguments "min"))
  | _, value :: values => .done (Value.least value values)

def listOf : Settings → List Value → Plan := fun _ values => .done (.list values none)

/-- The items of a list or the characters of a text; null has none. -/
def length : Settings → List Value → Plan :=
  unary fun _ value =>
    match value with
    | .list items _ => .done (.ofNat items.length)
    | .text content _ => .done (.ofNat content.length)
    | .null _ => .done .zero
    | other => .refuse other .noLength

def print : Settings → List Value → Plan :=
  unary fun _ value => .text value fun line => .print line (.done value)

end Formula.Library
