import Formula.Printer
import Formula.Proofs.Decimal.Printed
import Formula.Proofs.Decimal.Value
import Formula.Proofs.Expression.NumberText
import Formula.Proofs.Token.Longest

/-! # Printed values are read back

The readable text of a number, evaluated as a source, gives the number, and that of a text gives the text.
A number with a sign is read as its magnitude under a unary minus, so the minus of zero may lose its sign; its
digits and its exponent stay in every case.
-/
namespace Formula

namespace Context

structure Admits (c : Context) (d : Decimal) : Prop where
  digits : d.digits ≤ c.precision
  low : c.lastPlace ≤ d.exponent
  high : d.adjusted ≤ maxExponent

variable {c : Context} {d : Decimal}

theorem Admits.of_magnitude (h : c.Admits d) (negative : Bool) : c.Admits { d with negative } :=
  ⟨h.digits, h.low, h.high⟩

theorem Admits.round (h : c.Admits d) : c.round d = .ok d := by
  have hcount : 0 < digitCount d.coefficient := digitCount_pos _
  have hhigh : d.exponent ≤ maxExponent := by
    have hadjusted := h.high
    unfold Decimal.adjusted at hadjusted
    omega
  unfold Context.round
  split
  next => rw [Int.min_eq_right hhigh, Int.max_eq_right h.low]
  rw [if_neg (Int.not_lt.mpr h.high)]
  split
  next => rw [toLastPlace, if_pos h.low]
  next => rw [toPrecision, if_pos h.digits]

/-- Every context that keeps a digit has numbers of one digit. -/
theorem admits_digit (hprecision : 0 < c.precision) (hdigits : d.digits = 1) (hexponent : d.exponent = 0) :
    c.Admits d := by
  refine ⟨by omega, ?_, ?_⟩
  · rw [lastPlace, hexponent, minExponent]
    omega
  · rw [Decimal.digits] at hdigits
    rw [Decimal.adjusted, hdigits, hexponent, maxExponent]
    decide

/-- The minus of a magnitude is the number itself, but for the sign of zero. -/
theorem Admits.exists_minus (h : c.Admits d) (hsign : d.negative = true) :
    ∃ e : Decimal, c.minus d.magnitude = .ok e ∧ e.coefficient = d.coefficient ∧ e.exponent = d.exponent ∧
      e.value = d.value := by
  unfold minus
  split
  next hzero =>
    simp only [Bool.and_eq_true] at hzero
    have hnone : d.coefficient = 0 := Decimal.isZero_iff.mp hzero.1
    refine ⟨_, (h.of_magnitude false).round, rfl, rfl, ?_⟩
    rw [Decimal.value_eq_zero_iff.mpr hnone, Decimal.value_eq_zero_iff]
    exact hnone
  next =>
    have hnegated : d.magnitude.negate = d := by
      rw [Decimal.negate, Decimal.magnitude, Bool.not_false, ← hsign]
    exact ⟨d, by rw [hnegated, h.round], rfl, rfl, rfl⟩

end Context

namespace Lexeme

/-- A minus at the start of a text is unary, and a digit is no part of it. -/
theorem scan_minus (registry : Registry) {c : Char} (hdigit : Text.isAsciiDigit c = true) (cs : List Char) :
    scan registry none 0 '-' (c :: cs) = .ok ⟨⟨.unaryOperator, "-u", 0⟩, 1⟩ := by
  have hminus : Registry.isSymbolChar '-' = true := by decide +kernel
  have hsymbol : Registry.isSymbolChar c = false := by
    rw [Registry.isSymbolChar, Text.isAlphanumeric_of_isAsciiDigit hdigit]
    rfl
  have hrun : ('-' :: c :: cs).takeWhile Registry.isSymbolChar = ['-'] := by simp [hminus, hsymbol]
  have htaken : operatorChars registry ['-'] = ['-'] := by
    rcases takes_operatorChars registry ['-'] with ⟨hnonempty, hprefix, -, -⟩ | ⟨hwhole, -⟩
    · simpa [List.prefix_cons_iff, hnonempty] using hprefix
    · exact hwhole
  have hstart : startsNumber '-' (c :: cs) = false := rfl
  have hname : Registry.isNameStart '-' = false := by decide +kernel
  rw [scan, if_neg (by simp [hstart]), if_neg (by decide), if_neg (by simp [hname]), if_neg (by decide),
    if_neg (by decide), if_neg (by decide), operator, hrun]
  dsimp only
  rw [htaken]
  rfl

end Lexeme

variable {registry : Registry} {text : String}

/-- A minus and an unsigned number are two tokens. -/
theorem tokenize_minus {c : Char} {cs : List Char} (hchars : text.toList = c :: cs)
    (hdigit : Text.isAsciiDigit c = true) (hascii : ∀ c ∈ text.toList, c.toNat < 128)
    (h : (Decimal.unsignedOf? text.toList).isSome = true) :
    tokenize registry ("-" ++ text) = .ok [⟨.unaryOperator, "-u", 0⟩, ⟨.number, text, 1⟩] := by
  have hminus : Text.isBlank '-' = false := by decide +kernel
  have hscans : Lexeme.Scans registry
      (([⟨⟨.unaryOperator, "-u", 0⟩, 1⟩] : List Lexeme).head?.map (·.token.kind)) ⟨.number, text, 1⟩
        text.toList [] := by
    rw [hchars] at hascii h
    have hnumber (offset : Nat) := (Lexeme.number_whole_iff hascii offset).mpr h
    exact Lexeme.scans_number hchars (hnumber 0).1 (fun offset => (hnumber offset).2) Lexeme.separated_nil
  have hscan := hscans.scanFrom_append
  rw [List.append_nil] at hscan
  have hsource : ("-" ++ text).toList = '-' :: text.toList := by rw [String.toList_append]; rfl
  rw [tokenize, scanText, hsource, Lexeme.scanFrom]
  simp only [hminus, Bool.false_eq_true, ↓reduceIte, List.head?_nil, Option.map_none]
  rw [hchars, Lexeme.scan_minus registry hdigit, ← hchars]
  dsimp only
  rw [hscan]
  rfl

/-- A text in quotes is scanned as one text if it has no quote in it. -/
theorem tokenize_quoted (h : '\'' ∉ text.toList) :
    tokenize registry ("'" ++ text ++ "'") = .ok [⟨.text, text, 0⟩] := by
  have hscans : Lexeme.Scans registry (([] : List Lexeme).head?.map (·.token.kind)) ⟨.text, text, 0⟩
      ("'" ++ text ++ "'").toList [] := Lexeme.scans_text h nofun
  have hscan := hscans.scanFrom_append
  rw [List.append_nil] at hscan
  rw [tokenize, scanText, hscan]
  rfl

def Library.minusOperator : Operator := unaryOperator "-" (onNumber "-" Context.minus)

namespace Registry

theorem treeOf_minus {source : String}
    (htokens : tokenize standard.freeze source = .ok [⟨.unaryOperator, "-u", 0⟩, ⟨.number, text, 1⟩])
    (context : Context) :
    standard.freeze.treeOf context source = (Literal.value? context ⟨.number, text, 1⟩).map fun value =>
      ⟨.operation 1 "-u" Library.minusOperator 0 [.constant 0 text value], 4⟩ := by
  have hlisted : Rpn.checked standard.freeze [⟨.unaryOperator, "-u", 0⟩, ⟨.number, text, 1⟩] =
      .ok [⟨.number, text, 1⟩, ⟨.unaryOperator, "-u", 0⟩] := rfl
  have hrpn : standard.freeze.rpnOf source = .ok [⟨.number, text, 1⟩, ⟨.unaryOperator, "-u", 0⟩] := by
    rw [rpnOf, htokens]
    exact hlisted
  have hop : Assembly.operator? standard.freeze ⟨.unaryOperator, "-u", 0⟩ = .ok Library.minusOperator := rfl
  rw [treeOf, hrpn]
  simp only [bind, Except.bind, Tree.ofRpn, Assembly.steps, Assembly.step]
  cases Literal.value? context ⟨.number, text, 1⟩ with
  | error failure => rfl
  | ok value =>
    simp only [Assembly.push, hop]
    rfl

end Registry

/-- Where there is room for a level, a number is negated. -/
theorem Node.force_minus {settings : Settings} {room next : Option Nat} (hroom : deeper room = some next)
    {number negated : Decimal} (hminus : settings.context.minus number = .ok negated) (state : State) :
    ((operation 1 "-u" Library.minusOperator 0 [.constant 0 text (.ofDecimal number)]).force settings room
      state).1 = .ok (.ofDecimal negated) := by
  rw [force, hroom]
  dsimp only [Library.minusOperator, Library.unaryOperator, Behaviour.apply, operandsOf, forceAll, force]
  simp only [applyEager, Library.onNumber, Library.unary, List.reverse_cons, List.reverse_nil, List.nil_append,
    Value.ofDecimal, Plan.number, hminus]
  rfl

section Evaluation

variable {settings : Settings} {d : Decimal}

theorem Tree.result_evaluate {tree : Tree} {state : State} {value : Value}
    (h : (tree.root.force settings settings.machine.frames state).1 = .ok value) :
    (tree.evaluate settings state).1 = .ok value := by
  unfold evaluate
  generalize tree.root.force settings settings.machine.frames state = outcome at h ⊢
  obtain ⟨result, after⟩ := outcome
  obtain rfl : result = .ok value := h
  rfl

theorem ofText?_unsigned (d : Decimal) :
    Decimal.ofText? (String.ofList d.unsignedChars) = some d.magnitude := by
  obtain ⟨c, cs, hchars, hdigit⟩ := d.exists_unsignedChars_head
  have hsign : ∀ c ∈ (String.ofList d.unsignedChars).toList.head?, c ≠ '+' ∧ c ≠ '-' := by
    rw [String.toList_ofList, hchars]
    rintro _ ⟨⟩
    constructor <;> rintro rfl <;> cases hdigit
  rw [ofText?_of_unsigned hsign, String.toList_ofList, d.unsignedOf?_unsignedChars]

theorem literal_unsigned (h : settings.context.Admits d) (offset : Nat) :
    Literal.value? settings.context ⟨.number, String.ofList d.unsignedChars, offset⟩ =
      .ok (.ofDecimal d.magnitude) := by
  have hround : settings.context.round d.magnitude = .ok d.magnitude := (h.of_magnitude false).round
  rw [Literal.value?_number (ofText?_unsigned d), hround]

/-- A number without a sign is read back as it is. -/
theorem result_unsigned (h : settings.context.Admits d) (hsign : d.negative = false) (workspace : Workspace) :
    (Expression.evaluate { source := d.text, settings } workspace).result = .ok (.ofDecimal d) := by
  have hsource : d.text = String.ofList d.unsignedChars := by simp [Decimal.text, Decimal.chars, hsign]
  have hsame : d.magnitude = d := by rw [Decimal.magnitude, ← hsign]
  have htokens : tokenize workspace.registry.freeze (String.ofList d.unsignedChars) =
      .ok [⟨.number, String.ofList d.unsignedChars, 0⟩] := by
    refine tokenize_number ?_ ?_
    · rw [String.toList_ofList]
      exact d.unsignedChars_ascii
    · rw [String.toList_ofList, d.unsignedOf?_unsignedChars]
      rfl
  obtain ⟨state, hresult⟩ := Expression.exists_result_new d.text settings workspace
  rw [hresult, hsource, Registry.outcomeOf_literal (.inl rfl) htokens, literal_unsigned h, hsame]

/-- A number with a sign is read as the minus of its magnitude. -/
theorem exists_result_signed (h : settings.context.Admits d) (hsign : d.negative = true)
    {next : Option Nat} (hroom : deeper settings.machine.frames = some next) (workspace : Workspace)
    (hregistry : workspace.registry.freeze = Registry.standard.freeze) :
    ∃ e : Decimal, (Expression.evaluate { source := d.text, settings } workspace).result = .ok (.ofDecimal e) ∧
      e.coefficient = d.coefficient ∧ e.exponent = d.exponent ∧ e.value = d.value := by
  have hsource : d.text = "-" ++ String.ofList d.unsignedChars := by
    rw [← String.toList_inj, Decimal.text, Decimal.chars, if_pos hsign, String.toList_append]
    simp
  obtain ⟨c, cs, hchars, hdigit⟩ := d.exists_unsignedChars_head
  have htokens : tokenize Registry.standard.freeze ("-" ++ String.ofList d.unsignedChars) =
      .ok [⟨.unaryOperator, "-u", 0⟩, ⟨.number, String.ofList d.unsignedChars, 1⟩] := by
    refine tokenize_minus (String.toList_ofList.trans hchars) hdigit ?_ ?_
    · rw [String.toList_ofList]
      exact d.unsignedChars_ascii
    · rw [String.toList_ofList, d.unsignedOf?_unsignedChars]
      rfl
  obtain ⟨e, hminus, hcoefficient, hexponent, hvalue⟩ := h.exists_minus hsign
  obtain ⟨state, hresult⟩ := Expression.exists_result_new d.text settings workspace
  refine ⟨e, ?_, hcoefficient, hexponent, hvalue⟩
  rw [hresult, hregistry, hsource, Registry.outcomeOf, Registry.treeOf_minus htokens, literal_unsigned h]
  exact Tree.result_evaluate (Node.force_minus hroom hminus state)

theorem result_quoted {text : String} (h : '\'' ∉ text.toList) (settings : Settings) (workspace : Workspace) :
    (Expression.evaluate { source := "'" ++ text ++ "'", settings } workspace).result =
      .ok (.text text none) := by
  obtain ⟨state, hresult⟩ := Expression.exists_result_new ("'" ++ text ++ "'") settings workspace
  rw [hresult, Registry.outcomeOf_literal (.inr rfl) (tokenize_quoted h)]
  rfl

end Evaluation

/-- The readable text of a number that the context can hold is evaluated to the same number, with its digits and
its exponent. That of a text without quotes is evaluated to the text. -/
theorem printed_evaluates_back {config : Config} {settings : Settings} (hsettings : config.settings = .ok settings)
    {workspace : Workspace} (hregistry : workspace.registry.freeze = Registry.standard.freeze) :
    (∀ (d : Decimal) (binding : Option String), settings.context.Admits d →
      ∃ e : Decimal, (Expression.evaluate { source := (Value.number d none binding).pretty, settings }
          workspace).result = .ok (.ofDecimal e) ∧
        e.coefficient = d.coefficient ∧ e.exponent = d.exponent ∧ e.value = d.value) ∧
    ∀ (text : String) (binding : Option String), '\'' ∉ text.toList →
      (Expression.evaluate { source := (Value.text text binding).pretty, settings } workspace).result =
        .ok (.text text none) := by
  have hroom : deeper settings.machine.frames = some (some 999) := by
    rw [Config.machine_of_settings hsettings]
    rfl
  refine ⟨fun d binding hd => ?_, fun text binding htext => ?_⟩
  · have hpretty : (Value.number d none binding).pretty = d.text := rfl
    rw [hpretty]
    cases hsign : d.negative with
    | false => exact ⟨d, result_unsigned hd hsign workspace, rfl, rfl, rfl⟩
    | true => exact exists_result_signed hd hsign hroom workspace hregistry
  · have hpretty : (Value.text text binding).pretty = "'" ++ text ++ "'" := rfl
    rw [hpretty]
    exact result_quoted htext settings workspace

/-- A small number in scientific form under a sign, at a precision that just holds it. -/
theorem smallNegative_evaluates_back :
    (Value.number ⟨true, 150, -12⟩ none none).pretty = "-1.50E-10" ∧
      (∃ e : Decimal, (Expression.evaluate
          { source := (Value.number ⟨true, 150, -12⟩ none none).pretty,
            settings := { context := ⟨3, .down⟩, machine := Config.machine } }
          ⟨.standard, .empty, .empty⟩).result = .ok (.ofDecimal e) ∧
        e.coefficient = 150 ∧ e.exponent = -12 ∧ e.value = Decimal.value ⟨true, 150, -12⟩) ∧
      (Expression.evaluate
          { source := (Value.text "a(b" none).pretty,
            settings := { context := ⟨3, .down⟩, machine := Config.machine } }
          ⟨.standard, .empty, .empty⟩).result = .ok (.text "a(b" none) := by
  have hsettings : Config.settings { precision := 3, rounding := .down } =
      .ok { context := ⟨3, .down⟩, machine := Config.machine } := rfl
  have hadmits : Context.Admits ⟨3, .down⟩ ⟨true, 150, -12⟩ :=
    ⟨by decide +kernel, by decide +kernel, by decide +kernel⟩
  have hquote : '\'' ∉ "a(b".toList := by decide
  have hregistry : (Workspace.mk .standard .empty .empty).registry.freeze = Registry.standard.freeze := rfl
  obtain ⟨hnumbers, htexts⟩ := printed_evaluates_back hsettings hregistry
  exact ⟨by decide +kernel, hnumbers _ none hadmits, htexts _ none hquote⟩

end Formula
