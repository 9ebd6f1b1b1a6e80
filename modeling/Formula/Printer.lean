import Formula.Datum

/-! # Readable values

Values as they would be written in an expression: texts in quotes and null by name. Data that are no
values are shown as a developer would spell them.
-/
namespace Formula

mutual
def Value.pretty : Value → String
  | .null _ => "null"
  | .text content _ => "'" ++ content ++ "'"
  | .list items _ => "[" ++ ", ".intercalate (Value.prettyItems items) ++ "]"
  | other => other.string
def Value.prettyItems : List Value → List String
  | [] => []
  | item :: items => item.pretty :: Value.prettyItems items
end

def Datum.pretty : Datum → String
  | .none => "null"
  | .value v => v.pretty
  | other => other.spelled

end Formula
