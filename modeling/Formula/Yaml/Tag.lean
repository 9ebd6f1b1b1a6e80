import Formula.Text.Pattern

/-! # Tags

A tag says what kind of datum a part of a document is. A scalar whose kind is left open gets a tag from
how it is written, after the rules of YAML 1.1.
-/
namespace Formula.Yaml

inductive Tag where
  | null
  | bool
  | int
  | float
  | binary
  | timestamp
  | omap
  | pairs
  | set
  | str
  | seq
  | map
  | merge
  | value
  | other (name : String)
deriving DecidableEq, Inhabited

namespace Tag

def standardStart : String := "tag:yaml.org,2002:"

def standard : List (String × Tag) :=
  [("null", null), ("bool", bool), ("int", int), ("float", float), ("binary", binary),
   ("timestamp", timestamp), ("omap", omap), ("pairs", pairs), ("set", set), ("str", str),
   ("seq", seq), ("map", map), ("merge", merge), ("value", value)]

def ofName (name : String) : Tag :=
  let known := standard.find? fun entry => standardStart ++ entry.1 == name
  (known.map (·.2)).getD (other name)

open Text.Pattern

def digit : Text.Pattern := between '0' '9'

def digitOrGap : Text.Pattern := digit.orElse (char '_')

def sign : Text.Pattern := optional (anyOf "+-")

def sixties : Text.Pattern :=
  Text.Pattern.some (sequence [char ':', optional (between '0' '5'), digit])

def boolPattern : Text.Pattern :=
  words ["yes", "Yes", "YES", "no", "No", "NO", "true", "True", "TRUE", "false", "False", "FALSE",
    "on", "On", "ON", "off", "Off", "OFF"]

def exponentPattern : Text.Pattern :=
  optional (sequence [anyOf "eE", anyOf "+-", Text.Pattern.some digit])

def floatPattern : Text.Pattern :=
  choice
    [sequence [sign, digit, many digitOrGap, char '.', many digitOrGap, exponentPattern],
     sequence [char '.', digit, many digitOrGap, exponentPattern],
     sequence [sign, digit, many digitOrGap, sixties, char '.', many digitOrGap],
     sequence [sign, words [".inf", ".Inf", ".INF"]],
     words [".nan", ".NaN", ".NAN"]]

def intPattern : Text.Pattern :=
  choice
    [sequence [sign, word "0b", Text.Pattern.some (anyOf "01_")],
     sequence [sign, char '0', Text.Pattern.some ((between '0' '7').orElse (char '_'))],
     sequence [sign, char '0'],
     sequence [sign, between '1' '9', many digitOrGap],
     sequence [sign, word "0x", Text.Pattern.some (anyOf "0123456789abcdefABCDEF_")],
     sequence [sign, between '1' '9', many digitOrGap, sixties]]

def nullPattern : Text.Pattern := words ["~", "null", "Null", "NULL", ""]

def blanks : Text.Pattern := many (anyOf " \t")

/-- A date as it has to be written where no tag says that it is one. -/
def fullDatePattern : Text.Pattern :=
  sequence [digit, digit, digit, digit, char '-', digit, digit, char '-', digit, digit]

def datePattern : Text.Pattern :=
  sequence
    [digit, digit, digit, digit, char '-', digit, optional digit, char '-', digit, optional digit]

def timePattern : Text.Pattern :=
  sequence
    [datePattern, (anyOf "Tt").orElse (Text.Pattern.some (anyOf " \t")), digit, optional digit,
     char ':', digit, digit, char ':', digit, digit, optional ((char '.').andThen (many digit)),
     optional (blanks.andThen
       ((char 'Z').orElse
         (sequence [anyOf "+-", digit, optional digit, optional (sequence [char ':', digit, digit])])))]

/-- The tags that scalars may get, with how they are written. -/
def openPatterns : List (Tag × Text.Pattern) :=
  [(bool, boolPattern),
   (float, floatPattern),
   (int, intPattern),
   (merge, word "<<"),
   (null, nullPattern),
   (timestamp, fullDatePattern.orElse timePattern),
   (value, word "="),
   (other (standardStart ++ "yaml"), words ["!", "&", "*"])]

/-- What of a content decides on its kind: a line feed at its end does not, unless it stands alone. -/
def decisive (content : String) : List Char :=
  match content.toList.reverse with
  | '\n' :: c :: cs => (c :: cs).reverse
  | cs => cs.reverse

def ofContent (content : String) : Tag :=
  let cs := decisive content
  ((openPatterns.find? fun entry => entry.2.accepts cs).map (·.1)).getD str

end Tag

end Formula.Yaml
