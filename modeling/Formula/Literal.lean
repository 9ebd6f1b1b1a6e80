import Formula.Value
import Formula.Token
import Formula.Text.Integer

/-! # Literals

The values of number, hexadecimal and text tokens. Numbers are rounded to the context. Texts that read
as no number, or as one outside the range, have no value.
-/
namespace Formula.Literal

/-- Words for what lies beyond all numbers. No operation accepts their values. -/
def unboundedNames : List (String × String) :=
  [("inf", "Infinity"), ("infinity", "Infinity"), ("nan", "NaN"), ("snan", "sNaN")]

def unbounded? (text : String) : Option Value :=
  let (sign, name) :=
    match text.toList with
    | '-' :: cs => ("-", cs)
    | '+' :: cs => ("", cs)
    | cs => ("", cs)
  (unboundedNames.lookup (String.ofList (name.map Char.toLower))).map fun word =>
    .host
      { kind := Value.numberKind
        text := sign ++ word
        truth := true
        spelling := Value.numberSpelling (sign ++ word) }
      none

def decimal? (context : Context) (text : String) : Option Value :=
  match Decimal.ofText? text with
  | some number => (context.round number).toOption.map .ofDecimal
  | none => unbounded? text

def hexadecimal? (context : Context) (surface : String) : Option Value := do
  let number ← Text.integer? 16 (surface.toList.drop 2)
  (context.round (.ofInt number)).toOption.map .ofDecimal

def value? (context : Context) (token : Token) : Except Failure Value :=
  let value :=
    match token.kind with
    | .hexadecimal => hexadecimal? context token.surface
    | .number => decimal? context token.surface
    | _ => some (.text token.surface none)
  match value with
  | some value => .ok value
  | none => .error (.at (.malformedLiteral token.surface) token.offset)

end Formula.Literal
