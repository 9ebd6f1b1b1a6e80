import Formula.Library.Arguments
import Formula.Session

/-! # A sample host

A game that lends its functions and variables to expressions. It remembers the hit points that are left.
-/
namespace Formula.Sample

open Library

def hitPoints : String := "hp"

def given (settings : Settings) (datum : Datum) : Plan := .ofExcept (datum.toValue (some settings.context))

def gifts : List (String × Datum) :=
  [("none", .none),
   ("true", .bool true),
   ("float", .float 0.1),
   ("tiny", .float 1e-7),
   ("nan", .float (0 / 0)),
   ("inf", .float (-1 / 0)),
   ("set", .set []),
   ("dict", .map [(.text "k", .int 1), (.int 2, .text "v"), (.none, .list [.bool true])]),
   ("big", .int (tenTo 40 + 7)),
   ("dec", .decimal ⟨false, 1230, -3⟩),
   ("tuple", .tuple [.int 1, .text "x"])]

/-- Takes whole hit points away and tells how many are left. -/
def damage : Settings → List Value → Plan :=
  unary fun settings amount =>
    match amount with
    | .number number _ _ =>
      .retrieve hitPoints fun left =>
        match left with
        | some (.number points _ _) =>
          let points := points.truncate - number.truncate
          .remember hitPoints (.ofInt points) (given settings (.int points))
        | _ => .fail (.fault .missingMember)
    | _ => .fail (.fault .missingMember)

def give : Settings → List Value → Plan :=
  unary fun settings name =>
    .text name fun name =>
      match gifts.lookup name with
      | some gift => given settings gift
      | none => .fail (.crashed (Text.quoted name))

def gameFunctions : List (String × Int × (Settings → List Value → Plan)) :=
  [("Every", -1, fun settings values => given settings (.int values.length)),
   ("damage", 1, damage),
   ("explode", 0, fun _ _ => .fail (.crashed "boom")),
   ("give", 1, give),
   ("invalid", 0, fun _ _ => .fail (.invalid "not valid")),
   ("opt", 2, binary fun settings a b =>
     given settings (.map [(.text "a", .value a), (.text "b", .value b)])),
   ("tag", 2, binary fun settings a b =>
     .text a fun x => .text b fun y => given settings (.list [.text x, .text y]))]

def game : Host where
  functions := gameFunctions
  presets :=
    [("level", .int 3),
     ("name", .text "hero"),
     ("rate", .float 0.25),
     ("bag", .list [.text "rope", .int 2, .none]),
     ("code", .text "0042")]
  memory := ⟨[(hitPoints, .ofNat 100)]⟩

end Formula.Sample
