import Formula.Json.Document
import Formula.Json.Text
import Formula.Yaml.Document
import Formula.Yaml.Text

/-! # Documents

Values as documents in one of two formats. A text whose first character that is no blank opens a list
or mapping is taken for JSON, any other for YAML.
-/
namespace Formula

namespace Format

def name : Format → String
  | json => "json"
  | yaml => "yaml"

def ofName (name : String) : Except Failure Format :=
  if name = json.name then .ok json
  else if name = yaml.name then .ok yaml
  else .error (.invalid ("Unsupported format " ++ Text.quoted name))

def detect (text : String) : Format :=
  match text.toList.dropWhile Text.isBlank with
  | c :: _ => if c = '\x7b' ∨ c = '[' then json else yaml
  | [] => yaml

/-- The format to read a text in: the named one, or without a name the one it looks like. -/
def forReading (name : String) (text : String) : Except Failure Format :=
  if name.isEmpty then .ok (detect text) else ofName name

def write (value : Value) : Format → String
  | json => Json.written value
  | yaml => Yaml.written value

def read (text : String) : Format → Except Failure Datum
  | json => Json.read text
  | yaml => Yaml.read text

end Format

def Value.serialize (name : String) (value : Value) : Except Failure String :=
  (Format.ofName name).map fun format => format.write value

def Value.deserialize (context : Option Context) (name text : String) : Except Failure Value := do
  let format ← Format.forReading name text
  (← format.read text).toValue context

end Formula
