import Formula.Datum
import Formula.Registry

/-! # Configuration

Precision, rounding and two switches. A configuration is checked when it is made from data; whether its
precision can be worked with shows when a context is made of it.
-/
namespace Formula

namespace Rounding

def named : List (String × Rounding) :=
  [("ROUND_UP", .up), ("ROUND_DOWN", .down), ("ROUND_CEILING", .ceiling), ("ROUND_FLOOR", .floor),
   ("ROUND_HALF_UP", .halfUp), ("ROUND_HALF_DOWN", .halfDown), ("ROUND_HALF_EVEN", .halfEven),
   ("ROUND_05UP", .zeroFiveUp)]

def ofName? (name : String) : Option Rounding := named.lookup name

def name (mode : Rounding) : String := ((named.find? fun pair => pair.2 == mode).map (·.1)).getD ""

end Rounding

structure Config where
  precision : Nat := 34
  rounding : Rounding := .halfEven
  legacyInequality : Bool := false
  debug : Bool := false
deriving Inhabited

namespace Config

def precisionBound : Nat := tenTo 18

def wordBound : Nat := twoTo 63

/-- How many frames the stack of an evaluation usually holds. -/
def frameBound : Nat := 1000

def machine : Machine := { frames := some frameBound }

def context (config : Config) : Except Failure Context :=
  if wordBound ≤ config.precision then
    .error (.tooLarge "Python int too large to convert to C ssize_t")
  else if precisionBound ≤ config.precision then
    .error (.invalid "valid range for prec is [1, MAX_PREC]")
  else .ok ⟨config.precision, config.rounding⟩

def settings (config : Config) : Except Failure Settings := do
  let context ← config.context
  return { context, legacyInequality := config.legacyInequality, traced := config.debug,
           machine }

structure Given where
  precision : Datum
  rounding : Datum
  legacyInequality : Datum
  debug : Datum
  config : Config

def precisionOf? : Datum → Option Nat
  | .int n => if 1 ≤ n then some n.toNat else none
  | .bool true => some 1
  | _ => none

def roundingOf? (datum : Datum) : Except Failure Rounding :=
  match datum with
  | .text name =>
    match Rounding.ofName? name with
    | some mode => .ok mode
    | none => .error (.invalid ("Unknown rounding mode " ++ datum.spelled))
  | other =>
    if other.isKey then .error (.invalid ("Unknown rounding mode " ++ other.spelled))
    else .error (.fault .wrongType)

def setting (name : String) (absent : Datum) (entries : List (String × Datum)) : Datum :=
  (entries.lookup name).getD absent

/-- Checks named settings. `debugging` is the switch's position where none is given. -/
def ofSettings (debugging : Bool) (entries : List (String × Datum)) : Except Failure Given := do
  let precision := setting "precision" (.int 34) entries
  let rounding := setting "rounding" (.text "ROUND_HALF_EVEN") entries
  let legacyInequality := setting "legacy_inequality" (.bool false) entries
  let debug := setting "debug" (.bool debugging) entries
  match precisionOf? precision with
  | none => .error (.invalid ("precision must be a positive integer, not " ++ precision.spelled))
  | some digits =>
    let mode ← roundingOf? rounding
    return { precision, rounding, legacyInequality, debug,
             config := ⟨digits, mode, legacyInequality.truth, debug.truth⟩ }

def settingNames : List String := ["precision", "rounding", "legacy_inequality", "debug"]

def textEntries? : List (Datum × Datum) → Option (List (String × Datum))
  | [] => some []
  | (.text key, value) :: entries => (textEntries? entries).map fun rest => (key, value) :: rest
  | _ :: _ => none

/-- The unknown names of a mapping in order. A name that is no text cannot be ordered among others or
listed. -/
def checkNames (entries : List (Datum × Datum)) : Except Failure (List (String × Datum)) :=
  match textEntries? entries with
  | none => .error (.fault .wrongType)
  | some named =>
    let unknown := (named.map (·.1)).filter fun name => !settingNames.contains name
    if unknown.isEmpty then .ok named
    else
      let sorted := unknown.mergeSort fun a b => decide (a ≤ b)
      .error (.invalid ("Unknown configuration keys: " ++ ", ".intercalate sorted))

def pairOf (index : Nat) (item : Datum) : Except Failure (Datum × Datum) :=
  let misfit (length : Nat) : Except Failure (Datum × Datum) :=
    .error (.invalid ("dictionary update sequence element #" ++ toString index ++ " has length " ++
      toString length ++ "; 2 is required"))
  let keyed (key entry : Datum) : Except Failure (Datum × Datum) :=
    if key.isKey then .ok (key, entry) else .error (.fault .wrongType)
  match item with
  | .list [key, entry] | .tuple [key, entry] => keyed key entry
  | .list items | .tuple items => misfit items.length
  | .text s =>
    match s.toList with
    | [key, entry] => .ok (.text (String.singleton key), .text (String.singleton entry))
    | cs => misfit cs.length
  | .map [(key, _), (entry, _)] => keyed key entry
  | .map entries => misfit entries.length
  | _ => .error (.fault .wrongType)

def pairsOf (index : Nat) : List Datum → Except Failure (List (Datum × Datum))
  | [] => .ok []
  | item :: items => do
    let pair ← pairOf index item
    let pairs ← pairsOf (index + 1) items
    return pair :: pairs

/-- A configuration from a mapping or from pairs of names and settings. What is false, such as nothing,
stands for an empty mapping. -/
def ofDatum (debugging : Bool) (datum : Datum) : Except Failure Given :=
  let ofPairs (items : List Datum) : Except Failure Given := do
    match Datum.ofEntries (← pairsOf 0 items) with
    | .map entries => do ofSettings debugging (← checkNames entries)
    | _ => ofSettings debugging []
  if !datum.truth then ofSettings debugging []
  else
    match datum with
    | .map entries => do ofSettings debugging (← checkNames entries)
    | .list items | .tuple items => ofPairs items
    | .text s => ofPairs (s.toList.map fun c => .text (String.singleton c))
    | .set items => ofPairs items
    | _ => .error (.fault .wrongType)

def ofDocument (path : String) (debugging : Bool) (document : Datum) : Except Failure Given :=
  match document with
  | .map _ | .none => ofDatum debugging document
  | _ => .error (.invalid (path ++ ": configuration must be a mapping"))

end Config

end Formula
