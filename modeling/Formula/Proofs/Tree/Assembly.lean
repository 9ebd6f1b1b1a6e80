import Formula.Proofs.Failure.Place
import Formula.Proofs.Tree.Plain

/-! # Building the tree of a listing

Building takes in the listing of a term as one step that pushes the term's tree: up to runs and
numbers it pushes the plain tree of the term.
-/
namespace Formula.Assembly

open Term

variable {registry : Registry} {context : Context}

/-- Joining two operands makes the operation on them, or the run that stands for it. -/
theorem binary_plain {label : String} {op : Operator} (hop : registry.operator? label = some op)
    (offset : Nat) {left right : Node} (hleft : left.IsFrom registry)
    (hright : right.IsFrom registry) (next : Nat) :
    (binary label op offset left right next).1.plain =
        .operation 0 label op offset [left.plain, right.plain] ∧
      (binary label op offset left right next).1.IsFrom registry := by
  have hpair (chainable : op.chainable = true) :
      (Node.chain next label op (.pair left offset right)).plain =
          .operation 0 label op offset [left.plain, right.plain] ∧
        (Node.chain next label op (.pair left offset right)).IsFrom registry :=
    ⟨rfl, hop, chainable, hleft, hright⟩
  unfold binary
  cases hchainable : op.chainable with
  | false => exact ⟨rfl, hop, hleft, hright, trivial⟩
  | true =>
    cases left with
    | chain id chained first run =>
      by_cases hlabel : chained = label
      · -- one label stands for one operator, so the run on the left is of this operator
        subst hlabel
        obtain ⟨hfirst, hruns, hrun⟩ := hleft
        obtain rfl : first = op := Option.some.inj (hfirst.symm.trans hop)
        simp only [Bool.not_true, Bool.false_eq_true, ↓reduceIte]
        exact ⟨rfl, hop, hchainable, hrun, hright⟩
      · simpa only [Bool.not_true, Bool.false_eq_true, ↓reduceIte, if_neg hlabel] using
          hpair hchainable
    | constant | reference | operation | call | hole => exact hpair hchainable

theorem splitArguments_pushed (arguments pushed : List Node) (stack : List (Option Node)) :
    splitArguments arguments (pushed.map some ++ none :: stack) =
      (pushed.reverse ++ arguments, stack) := by
  induction pushed generalizing arguments with
  | nil => rfl
  | cons node pushed ih => simp [splitArguments, ih]

theorem steps_cons (assembly : Assembly) (token : Token) (tokens : List Token) :
    steps registry context assembly (token :: tokens) =
      (step registry context assembly token).bind fun assembly =>
        steps registry context assembly tokens :=
  rfl

theorem step_literal {token : Token} {value : Value} (hkind : token.kind.isLiteral = true)
    (hvalue : Literal.value? context token = .ok value) (stack : List (Option Node)) (next : Nat) :
    step registry context ⟨stack, next⟩ token =
      .ok ⟨some (.constant next token.surface value) :: stack, next + 1⟩ := by
  obtain ⟨kind, surface, offset⟩ := token
  cases kind with
  | number | hexadecimal | text => simp [step, hvalue, push, bind, Except.bind, pure, Except.pure]
  | _ => cases hkind

theorem step_atom {leaf : Leaf} {node : Node}
    (h : (Term.atom leaf).node? registry context = some node) (stack : List (Option Node))
    (next : Nat) :
    ∃ built, built.plain = node ∧ built.IsFrom registry ∧
      step registry context ⟨stack, next⟩ leaf.token = .ok ⟨some built :: stack, next + 1⟩ := by
  unfold node? at h
  split at h
  next hvariable =>
    obtain ⟨⟨kind, surface, offset⟩, isLeaf⟩ := leaf
    cases hvariable
    cases h
    exact ⟨.reference next surface offset, rfl, trivial, rfl⟩
  next hvariable =>
    cases hvalue : Literal.value? context leaf.token with
    | error failure => simp [hvalue, Except.toOption] at h
    | ok value =>
      simp only [hvalue, Except.toOption, Option.map_some, Option.some.injEq] at h
      exact ⟨.constant next leaf.token.surface value, h, trivial,
        step_literal (leaf.isLiteral hvariable) hvalue stack next⟩

theorem step_prefixed {sign : TokenOf .unaryOperator} {op : Operator}
    (hop : registry.operator? sign.val.surface = some op) (operand : Node)
    (stack : List (Option Node)) (next : Nat) :
    step registry context ⟨some operand :: stack, next⟩ sign.val =
      .ok ⟨some (.operation next sign.val.surface op sign.val.offset [operand]) :: stack,
        next + 2⟩ := by
  obtain ⟨⟨kind, surface, offset⟩, h⟩ := sign
  cases h
  simp [step, operator?, hop, filled, push, bind, Except.bind, pure, Except.pure]

theorem step_infixed (context : Context) {sign : TokenOf .operator} {op : Operator}
    (hop : registry.operator? sign.val.surface = some op) (left right : Node)
    (stack : List (Option Node)) (next : Nat) :
    ∃ after, step registry context ⟨some right :: some left :: stack, next⟩ sign.val =
      .ok ⟨some (binary sign.val.surface op sign.val.offset left right (next + 2)).1 :: stack,
        after⟩ := by
  obtain ⟨⟨kind, surface, offset⟩, h⟩ := sign
  cases h
  exact ⟨_, by simp [step, operator?, hop, filled, push, bind, Except.bind, pure, Except.pure]; rfl⟩

theorem step_mark (mark : TokenOf .openParen) (stack : List (Option Node)) (next : Nat) :
    step registry context ⟨stack, next⟩ mark.val = .ok ⟨none :: stack, next⟩ := by
  obtain ⟨⟨kind, surface, offset⟩, h⟩ := mark
  cases h
  rfl

theorem step_name {name : TokenOf .functionName} {f : Function}
    (hf : registry.function? name.val.surface = some f) (arguments : List Node)
    (stack : List (Option Node)) (next : Nat) :
    step registry context ⟨arguments.reverse.map some ++ none :: stack, next⟩ name.val =
      .ok ⟨some (.call next name.val.surface f name.val.offset arguments) :: stack, next + 1⟩ := by
  obtain ⟨⟨kind, surface, offset⟩, h⟩ := name
  cases h
  simp only [step, splitArguments_pushed, List.reverse_reverse, List.append_nil, function?, hf]
  rfl

mutual
/-- The listing of a term pushes the tree of the term, whatever follows the listing. -/
theorem steps_listing (stack : List (Option Node)) (next : Nat) (rest : List Token) :
    (term : Term) → {node : Node} → term.node? registry context = some node →
      ∃ built after, built.plain = node ∧ built.IsFrom registry ∧
        steps registry context ⟨stack, next⟩ (term.listing ++ rest) =
          steps registry context ⟨some built :: stack, after⟩ rest
  | .atom leaf, node, h => by
    obtain ⟨built, hplain, hfrom, hstep⟩ := step_atom h stack next
    exact ⟨built, _, hplain, hfrom, by rw [listing, List.singleton_append, steps_cons, hstep]; rfl⟩
  | .prefixed sign operand, node, h => by
    simp only [node?, bind, Option.bind_eq_some_iff, pure, Option.some.injEq] at h
    obtain ⟨op, hop, _, hoperand, rfl⟩ := h
    obtain ⟨built, after, rfl, hfrom, hsteps⟩ :=
      steps_listing stack next ([sign.val] ++ rest) operand hoperand
    refine ⟨_, _, ?_, ?_, by
      rw [listing, List.append_assoc, hsteps, List.singleton_append, steps_cons,
        step_prefixed hop]; rfl⟩
    · rfl
    · exact ⟨hop, hfrom, trivial⟩
  | .infixed sign left right, node, h => by
    simp only [node?, bind, Option.bind_eq_some_iff, pure, Option.some.injEq] at h
    obtain ⟨op, hop, _, hleft, _, hright, rfl⟩ := h
    obtain ⟨builtLeft, between, rfl, hfromLeft, hstepsLeft⟩ :=
      steps_listing stack next (right.listing ++ ([sign.val] ++ rest)) left hleft
    obtain ⟨builtRight, after, rfl, hfromRight, hstepsRight⟩ :=
      steps_listing (some builtLeft :: stack) between ([sign.val] ++ rest) right hright
    obtain ⟨last, hstep⟩ := step_infixed context hop builtLeft builtRight stack after
    obtain ⟨hplain, hfrom⟩ := binary_plain hop sign.val.offset hfromLeft hfromRight (after + 2)
    refine ⟨_, last, hplain, hfrom, ?_⟩
    rw [listing, List.append_assoc, List.append_assoc, hstepsLeft, hstepsRight,
      List.singleton_append, steps_cons, hstep]
    rfl
  | .call mark name arguments, node, h => by
    simp only [node?, bind, Option.bind_eq_some_iff, pure, Option.some.injEq] at h
    obtain ⟨f, hf, _, harguments, rfl⟩ := h
    obtain ⟨built, after, rfl, hfrom, hsteps⟩ :=
      steps_listings (none :: stack) next ([name.val] ++ rest) arguments harguments
    refine ⟨_, _, ?_, ?_, by
      rw [listing, List.cons_append, List.append_assoc, steps_cons, step_mark, Except.bind, hsteps,
        List.singleton_append, steps_cons, step_name hf]; rfl⟩
    · rfl
    · exact ⟨hf, hfrom⟩
theorem steps_listings (stack : List (Option Node)) (next : Nat) (rest : List Token) :
    (terms : List Term) → {nodes : List Node} → nodes? registry context terms = some nodes →
      ∃ built after, Node.plainAll built = nodes ∧ Node.AllFrom registry built ∧
        steps registry context ⟨stack, next⟩ (listings terms ++ rest) =
          steps registry context ⟨built.reverse.map some ++ stack, after⟩ rest
  | [], nodes, h => by
    cases h
    exact ⟨[], next, rfl, trivial, rfl⟩
  | term :: terms, nodes, h => by
    simp only [nodes?, bind, Option.bind_eq_some_iff, pure, Option.some.injEq] at h
    obtain ⟨_, hterm, _, hterms, rfl⟩ := h
    obtain ⟨built, between, rfl, hfrom, hsteps⟩ :=
      steps_listing stack next (listings terms ++ rest) term hterm
    obtain ⟨more, after, rfl, hfromMore, hstepsMore⟩ :=
      steps_listings (some built :: stack) between rest terms hterms
    refine ⟨built :: more, after, rfl, ⟨hfrom, hfromMore⟩, ?_⟩
    rw [listings, List.append_assoc, hsteps, hstepsMore]
    simp
end

theorem isSome_of_operator? {token : Token} {op : Operator}
    (h : operator? registry token = .ok op) :
    (registry.operator? token.surface).isSome = true := by
  unfold operator? at h
  cases hregistered : registry.operator? token.surface with
  | none => simp [hregistered] at h
  | some op => rfl

/-- What building takes in is no comma and no closing parenthesis; an operator is registered, and a
literal has a value. -/
theorem step_inversion {assembly after : Assembly} {token : Token}
    (h : step registry context assembly token = .ok after) :
    (token.kind ≠ .comma ∧ token.kind ≠ .closeParen) ∧
      (token.kind.isOperator = true → (registry.operator? token.surface).isSome = true) ∧
      (token.kind.isLiteral = true → (Literal.value? context token).isOk = true) := by
  obtain ⟨kind, surface, offset⟩ := token
  cases kind with
  | number | hexadecimal | text =>
    refine ⟨by simp, by simp [TokenKind.isOperator], fun _ => ?_⟩
    simp only [step] at h
    revert h
    generalize Literal.value? context _ = value
    intro h
    cases value with
    | error failure => cases h
    | ok value => rfl
  | variableName | functionName | openParen =>
    exact ⟨by simp, by simp [TokenKind.isOperator], by simp [TokenKind.isLiteral]⟩
  | unaryOperator =>
    refine ⟨by simp, fun _ => ?_, by simp [TokenKind.isLiteral]⟩
    simp only [step] at h
    cases hop : operator? registry ⟨.unaryOperator, surface, offset⟩ with
    | error failure => simp [hop, bind, Except.bind] at h
    | ok op => exact isSome_of_operator? hop
  | operator =>
    refine ⟨by simp, fun _ => ?_, by simp [TokenKind.isLiteral]⟩
    simp only [step] at h
    cases hop : operator? registry ⟨.operator, surface, offset⟩ with
    | error failure =>
      split at h
      · simp [hop, bind, Except.bind] at h
      · cases h
    | ok op => exact isSome_of_operator? hop
  | closeParen | comma => simp [step] at h

theorem steps_inversion {assembly last : Assembly} {tokens : List Token}
    (h : steps registry context assembly tokens = .ok last) :
    ∀ token ∈ tokens, (token.kind ≠ .comma ∧ token.kind ≠ .closeParen) ∧
      (token.kind.isOperator = true → (registry.operator? token.surface).isSome = true) ∧
      (token.kind.isLiteral = true → (Literal.value? context token).isOk = true) := by
  induction tokens generalizing assembly with
  | nil => simp
  | cons token tokens ih =>
    obtain ⟨after, hstep, hsteps⟩ := exists_of_bind_eq_ok h
    exact List.forall_mem_cons.mpr ⟨step_inversion hstep, ih hsteps⟩

end Formula.Assembly

namespace Formula

variable {registry : Registry} {context : Context}

/-- The tree of a listing is that of its term, up to runs and numbers. -/
theorem Tree.ofRpn_listing {term : Term} {node : Node}
    (h : term.node? registry context = some node) :
    ∃ tree, Tree.ofRpn registry context term.listing = .ok tree ∧ tree.root.plain = node ∧
      tree.root.IsFrom registry := by
  obtain ⟨built, after, hplain, hfrom, hsteps⟩ := Assembly.steps_listing [] 0 [] term h
  rw [List.append_nil] at hsteps
  refine ⟨⟨built, after + 1⟩, ?_, hplain, hfrom⟩
  rw [Tree.ofRpn, hsteps]
  rfl

end Formula
