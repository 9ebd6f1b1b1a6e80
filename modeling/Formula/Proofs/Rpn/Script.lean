import Formula.Proofs.Rpn.Enclosed
import Formula.Proofs.Token.Enclosed

/-! # Scripts are read as their sources

A script is made of sources in parentheses with semicolons between them. Its tokens are those of the
sources, and it is listed as the terms of the sources, joined from the left.
-/
namespace Formula

def script (sources : List String) : String :=
  " ; ".intercalate (sources.map fun source => "(" ++ source ++ ")")

namespace Term

def semicolon : TokenOf .operator := ⟨⟨.operator, ";", 0⟩, rfl⟩

def enclosed (tokens : List Token) : List Token := opening.val :: (tokens ++ [closing.val])

def joined (sign : TokenOf .operator) (first : Term) (rest : List Term) : Term :=
  rest.foldl (.infixed sign) first

variable {sign : TokenOf .operator} {registry : Registry}

@[simp] theorem joined_nil (first : Term) : joined sign first [] = first := rfl

@[simp] theorem joined_cons (first next : Term) (rest : List Term) :
    joined sign first (next :: rest) = joined sign (.infixed sign first next) rest := rfl

theorem listing_joined (first : Term) (rest : List Term) :
    (joined sign first rest).listing =
      first.listing ++ rest.flatMap fun term => term.listing ++ [sign.val] := by
  induction rest generalizing first with
  | nil => simp
  | cons next rest ih =>
    rw [joined_cons, ih]
    simp [listing]

theorem callable_joined {first : Term} {rest : List Term} (hfirst : first.Callable registry)
    (hrest : ∀ term ∈ rest, term.Callable registry) : (joined sign first rest).Callable registry := by
  induction rest generalizing first with
  | nil => exact hfirst
  | cons next rest ih =>
    obtain ⟨hnext, hrest⟩ := List.forall_mem_cons.mp hrest
    exact ih ⟨hfirst, hnext⟩ hrest

end Term

open Term

namespace Lexeme

variable {registry : Registry} {sign : TokenOf .operator}

theorem OperandScanned.enclosed {source : String} {tokens : List Token}
    (h : tokenize registry source = .ok tokens) :
    OperandScanned registry (Term.enclosed tokens) ("(" ++ source ++ ")") where
  ends _ := ⟨.closeParen, by simp [Term.enclosed, closing], rfl⟩
  scans previous rest hrest := by
    have hsource : ScansTo registry (kindAfter previous [opening.val]) tokens source.toList
        (")".toList ++ rest) := scansTo_of_tokenize h rfl (.closing rest)
    have hclosed := hsource.append (scansTo_closing _ hrest)
    have hopened := (scansTo_opening opening rfl previous _).append hclosed
    simpa [Term.enclosed] using hopened

def sequelText (sign : Token) (texts : List String) : List Char :=
  texts.flatMap fun text => (" " ++ sign.written ++ " " ++ text).toList

def sequel (sign : TokenOf .operator) (operands : List (List Token)) : List Token :=
  operands.flatMap fun tokens => sign.val :: tokens

/-- Before further operands an operand may end. -/
theorem operandEnds_sequelText (hsign : sign.val.Scannable registry) (texts : List String) :
    OperandEnds (sequelText sign.val texts) := by
  cases texts with
  | nil => exact .nil
  | cons text texts =>
    have hends := OperandEnds.sign (hsign.isOperator sign.property)
      (" ".toList ++ (text.toList ++ sequelText sign.val texts))
    simpa [sequelText] using hends

theorem scansTo_sequelText (hsign : sign.val.Scannable registry) {operands : List (List Token)}
    {texts : List String} (h : List.Forall₂ (OperandScanned registry) operands texts)
    {kind : TokenKind} (hkind : kind.endsOperand = true) :
    ScansTo registry (some kind) (sequel sign operands) (sequelText sign.val texts) [] := by
  induction h generalizing kind with
  | nil => exact .nil registry _ _
  | @cons tokens text operands texts hoperand _ ih =>
    obtain ⟨last, hlast, hends⟩ := hoperand.ends (some .operator)
    have hbinary : sign.val.kind = .unaryOperator ↔
        (some kind : Option TokenKind).all TokenKind.precedesUnary = true := by
      simp [sign.property, Rpn.precedesUnary_eq_false hkind]
    have hoperator : sign.val.kind.isOperator = true := by rw [sign.property]; rfl
    have hkindAfter : kindAfter (kindAfter (some kind) [sign.val]) tokens = some last := by
      simpa [sign.property] using hlast
    have htext := (hoperand.scans (kindAfter (some kind) [sign.val]) (sequelText sign.val texts ++ [])
      (by simpa using operandEnds_sequelText hsign texts)).append (by
        rw [hkindAfter]
        exact ih hends)
    have hsigned := (scansTo_sign hsign hoperator hbinary _).append htext
    have hsequel := (scansTo_blank (some kind) _).append hsigned
    simpa [sequel, sequelText] using hsequel

theorem toList_script (source : String) (sources : List String) :
    (script (source :: sources)).toList =
      ("(" ++ source ++ ")").toList ++
        sequelText semicolon.val (sources.map fun source => "(" ++ source ++ ")") := by
  have hsign : semicolon.val.written = ";" := rfl
  induction sources generalizing source with
  | nil => simp [script, sequelText]
  | cons next sources ih =>
    have hnext := ih next
    rw [script, List.map_cons] at hnext
    rw [script, List.map_cons, List.map_cons, String.intercalate_cons_cons, String.toList_append, hnext]
    simp [sequelText, hsign]

/-- A script is scanned into the tokens of its sources. -/
theorem tokenize_script (hsign : semicolon.val.Scannable registry) {source : String} {tokens : List Token}
    {sources : List String} {operands : List (List Token)} (hsource : tokenize registry source = .ok tokens)
    (hsources : List.Forall₂ (fun source tokens => tokenize registry source = .ok tokens) sources operands) :
    ∃ found, tokenize registry (script (source :: sources)) = .ok found ∧
      found.map Token.unplaced =
        (Term.enclosed tokens ++ sequel semicolon (operands.map Term.enclosed)).map Token.unplaced := by
  have hoperands : List.Forall₂ (OperandScanned registry) (operands.map Term.enclosed)
      (sources.map fun source => "(" ++ source ++ ")") := by
    induction hsources with
    | nil => exact .nil
    | cons hnext _ ih => exact .cons (.enclosed hnext) ih
  have hfirst := OperandScanned.enclosed hsource
  obtain ⟨kind, hkind, hends⟩ := hfirst.ends none
  refine tokenize_of_scansTo ?_
  rw [toList_script]
  refine ScansTo.append (hfirst.scans none _ ?_) ?_
  · simpa using operandEnds_sequelText hsign _
  · rw [hkind]
    exact scansTo_sequelText hsign hoperands hends

end Lexeme

namespace Rpn

open Lexeme

variable {registry : Registry} {sign : TokenOf .operator} {op : Operator}

/-- A sign that ends its own left operand ends the operand before it in a sequence. -/
theorem stops_sequel (hop : registry.operator? sign.val.surface = some op) (hunary : op.unary = false)
    (hends : op.Ends (some op)) (ending : TokenKind) (operands : List (List Token)) :
    Reader.Stops registry (some op) ending (sequel sign operands) := by
  obtain ⟨⟨kind, surface, offset⟩, hkind⟩ := sign
  cases hkind
  cases operands with
  | nil => exact .inl rfl
  | cons tokens operands =>
    exact .inr ⟨_, op, _, by simp [sequel, Reader.joint?, hop, hunary]; exact ⟨rfl, rfl⟩, hends⟩

theorem steps_sequel (hop : registry.operator? sign.val.surface = some op) (hunary : op.unary = false)
    (hends : op.Ends (some op)) {operands : List (List Token)} {terms : List Term}
    (h : List.Forall₂ (fun tokens term => OperandListed registry tokens (Term.listing term)) operands terms)
    {last : Token} (hlast : last.kind.endsOperand = true) (output : List Token) :
    steps registry (some last) ⟨output, []⟩ (sequel sign operands) =
      .ok (output.reverse ++ terms.flatMap fun term => term.listing ++ [sign.val]) := by
  have hkind : sign.val.kind.isOperator = true := by rw [sign.property]; rfl
  induction h generalizing last output with
  | nil => simp [sequel, steps, finish]
  | @cons tokens term operands terms hoperand _ ih =>
    obtain ⟨next, hnext, hsteps⟩ := @hoperand _ _ output [sign.val] (expecting_of_kind sign rfl)
      (.operator [] hkind hop) (sequel sign operands)
    have hrelease : releaseFor registry op output [] = .ok ⟨output, []⟩ := rfl
    have hstops := stops_sequel hop hunary hends next.kind operands
    have hsequel : sequel sign (tokens :: operands) = sign.val :: (tokens ++ sequel sign operands) := rfl
    rw [hsequel, steps_cons, step_written hlast sign hop hunary, hrelease, Except.bind, Except.bind,
      hsteps, steps_release (fun _ => hnext) hkind hop hstops, ih hnext]
    simp

def ReadAs (registry : Registry) (source : String) (term : Term) : Prop :=
  ∃ tokens, tokenize registry source = .ok tokens ∧ checked registry tokens = .ok term.listing ∧
    term.Callable registry

theorem exists_readAs {source : String} {tokens rpn : List Token}
    (htokens : tokenize registry source = .ok tokens) (hchecked : checked registry tokens = .ok rpn) :
    ∃ term, ReadAs registry source term ∧ term.listing = rpn := by
  obtain ⟨phrase, term, -, -, -, -, hterm, -, hcallable, -⟩ :=
    exists_phrase_of_checked (successive_of_tokenize htokens) hchecked
  exact ⟨term, ⟨tokens, htokens, hterm ▸ hchecked, hcallable⟩, hterm⟩

/-- What other tokens would be listed as, a text with such tokens is read as, up to their places. -/
theorem exists_readAs_like {source : String} {found tokens : List Token} {term : Term}
    (hfound : tokenize registry source = .ok found)
    (hunplaced : found.map Token.unplaced = tokens.map Token.unplaced)
    (hchecked : checked registry tokens = .ok term.listing) :
    ∃ whole, ReadAs registry source whole ∧
      whole.listing.map Token.unplaced = term.listing.map Token.unplaced := by
  have hlisted := checked_unplaced registry tokens
  rw [hchecked] at hlisted
  have hread := checked_unplaced registry found
  rw [hunplaced, hlisted.of_ok_left] at hread
  obtain ⟨rpn, hrpn, hplaces⟩ := hread.of_ok_right
  obtain ⟨whole, hreadAs, rfl⟩ := exists_readAs hfound hrpn
  exact ⟨whole, hreadAs, hplaces⟩

/-- A script is read as the terms of its sources, joined from the left, up to the places of tokens. -/
theorem readAs_script (hkeyed : registry.Keyed)
    (hop : registry.operator? semicolon.val.surface = some op) (hunary : op.unary = false)
    (hends : op.Ends (some op)) {source : String} {term : Term} {sources : List String}
    {terms : List Term} (hsource : ReadAs registry source term)
    (hsources : List.Forall₂ (ReadAs registry) sources terms) :
    ∃ whole, ReadAs registry (script (source :: sources)) whole ∧
      whole.listing.map Token.unplaced =
        (Term.joined semicolon term terms).listing.map Token.unplaced := by
  obtain ⟨tokens, htokens, hchecked, hcallable⟩ := hsource
  have hparts : ∃ operands : List (List Token),
      List.Forall₂ (fun source tokens => tokenize registry source = .ok tokens) sources operands ∧
      List.Forall₂ (fun tokens term => OperandListed registry tokens (Term.listing term))
        (operands.map Term.enclosed) terms ∧ ∀ term ∈ terms, term.Callable registry := by
    induction hsources with
    | nil => exact ⟨[], .nil, .nil, nofun⟩
    | cons hnext _ ih =>
      obtain ⟨more, hmore, hcheckedMore, hcallableMore⟩ := hnext
      obtain ⟨operands, hscanned, hlisted, hcallables⟩ := ih
      exact ⟨more :: operands, .cons hmore hscanned,
        .cons (operandListed_enclosed (successive_of_tokenize hmore) hcheckedMore) hlisted,
        List.forall_mem_cons.mpr ⟨hcallableMore, hcallables⟩⟩
  obtain ⟨operands, hscanned, hlisted, hcallables⟩ := hparts
  have hwhole : checked registry (Term.enclosed tokens ++ sequel semicolon (operands.map Term.enclosed)) =
      .ok (Term.joined semicolon term terms).listing := by
    have hexpecting : Expecting none := rfl
    obtain ⟨last, hlast, hsteps⟩ := @operandListed_enclosed registry tokens _
      (successive_of_tokenize htokens) hchecked none none [] [] hexpecting .bottom
      (sequel semicolon (operands.map Term.enclosed))
    refine checked_eq_ok_iff.mpr ⟨?_, validate_listing (callable_joined hcallable hcallables)⟩
    rw [ofTokens, Term.enclosed, hsteps, steps_sequel hop hunary hends hlisted hlast, listing_joined]
    simp
  obtain ⟨found, hfound, hunplaced⟩ :=
    tokenize_script (hkeyed.scannable_operator semicolon.property hop hunary) htokens hscanned
  exact exists_readAs_like hfound hunplaced hwhole

end Rpn

end Formula
