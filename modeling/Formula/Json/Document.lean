import Formula.Json.Token

/-! # JSON documents

A document is one value. It is read token by token; lists and mappings that are not closed yet wait on
a stack, which has a limit. Of entries with one key the last wins.
-/
namespace Formula.Json

/-- A list or mapping that is not closed yet, with its parts so far, the latest first. -/
inductive Frame where
  | list (items : List Datum)
  | map (entries : List (Datum × Datum))
  /-- A mapping whose last key waits for its value. -/
  | entry (entries : List (Datum × Datum)) (key : String)

inductive Expected where
  | value
  /-- A value or the end of an empty list. -/
  | item
  | key
  /-- A key or the end of an empty mapping. -/
  | entry
  | colon
  /-- What follows a complete value. -/
  | continuation (datum : Datum)

def beginValue (frames : List Frame) : Token → Option (List Frame × Expected)
  | .openList => some (.list [] :: frames, .item)
  | .openMap => some (.map [] :: frames, .entry)
  | .text content => some (frames, .continuation (.text content))
  | .scalar datum => some (frames, .continuation datum)
  | _ => none

def beginEntry : List Frame → Token → Option (List Frame × Expected)
  | .map entries :: frames, .text key => some (.entry entries key :: frames, .colon)
  | _, _ => none

def continueWith (datum : Datum) : List Frame → Token → Option (List Frame × Expected)
  | .list items :: frames, .comma => some (.list (datum :: items) :: frames, .value)
  | .list items :: frames, .closeList => some (frames, .continuation (.list (datum :: items).reverse))
  | .entry entries key :: frames, .comma => some (.map ((.text key, datum) :: entries) :: frames, .key)
  | .entry entries key :: frames, .closeMap =>
    some (frames, .continuation (Datum.ofEntries ((.text key, datum) :: entries).reverse))
  | _, _ => none

def step (frames : List Frame) (expected : Expected) (token : Token) : Option (List Frame × Expected) :=
  match expected, token, frames with
  | .item, .closeList, .list _ :: frames => some (frames, .continuation (.list []))
  | .entry, .closeMap, .map _ :: frames => some (frames, .continuation (.map []))
  | .value, token, frames | .item, token, frames => beginValue frames token
  | .key, token, frames | .entry, token, frames => beginEntry frames token
  | .colon, .colon, frames => some (frames, .value)
  | .colon, _, _ => none
  | .continuation datum, token, frames => continueWith datum frames token

def depthBound : Nat := 980

/-- What goes on when one more list or mapping cannot be opened. -/
def activity : Token → String
  | .openMap => " while decoding a JSON object from a unicode string"
  | _ => " while decoding a JSON array from a unicode string"

def steps (frames : List Frame) (expected : Expected) : List Token → Except Failure Datum
  | [] =>
    match frames, expected with
    | [], .continuation datum => .ok datum
    | _, _ => .error (.malformed .json)
  | token :: tokens =>
    match step frames expected token with
    | some (frames, expected) =>
      if depthBound < frames.length then .error (.endless (activity token))
      else steps frames expected tokens
    | none => .error (.malformed .json)

def read (text : String) : Except Failure Datum := steps [] .value (scan text)

end Formula.Json
