import Formula.Proofs.Rpn.Script
import Formula.Proofs.Tree.Listing

/-! # Trees up to their places

Building looks at the places of tokens only to note them in the nodes. So the same tokens at other places
build the same tree but for places and numbers, also in the middle of a longer listing; and a script builds
the trees of its sources, joined as operands of its semicolons.
-/
namespace Formula

def TokenOf.unplaced {kind : TokenKind} (token : TokenOf kind) : TokenOf kind :=
  ⟨token.val.unplaced, token.property⟩

theorem TokenOf.surface_of_unplaced {kind : TokenKind} {token other : TokenOf kind}
    (h : TokenOf.unplaced token = TokenOf.unplaced other) : token.val.surface = other.val.surface :=
  congrArg (fun token => token.val.surface) h

def Leaf.unplaced (leaf : Leaf) : Leaf := ⟨leaf.token.unplaced, leaf.isLeaf⟩

theorem Leaf.token_of_unplaced {leaf other : Leaf} (h : leaf.unplaced = other.unplaced) :
    leaf.token.unplaced = other.token.unplaced := congrArg Leaf.token h

theorem Leaf.kind_of_unplaced {leaf other : Leaf} (h : leaf.unplaced = other.unplaced) :
    leaf.token.kind = other.token.kind := (Token.mk.inj (token_of_unplaced h)).1

theorem Leaf.surface_of_unplaced {leaf other : Leaf} (h : leaf.unplaced = other.unplaced) :
    leaf.token.surface = other.token.surface := (Token.mk.inj (token_of_unplaced h)).2.1

mutual
def Term.unplaced : Term → Term
  | .atom leaf => .atom leaf.unplaced
  | .prefixed sign operand => .prefixed (TokenOf.unplaced sign) operand.unplaced
  | .infixed sign left right => .infixed (TokenOf.unplaced sign) left.unplaced right.unplaced
  | .call mark name arguments =>
    .call (TokenOf.unplaced mark) (TokenOf.unplaced name) (Term.unplacedAll arguments)
def Term.unplacedAll : List Term → List Term
  | [] => []
  | term :: terms => term.unplaced :: Term.unplacedAll terms
end

mutual
theorem Term.listing_unplaced : (term : Term) →
    term.unplaced.listing = term.listing.map Token.unplaced
  | .atom leaf => rfl
  | .prefixed sign operand => by
    simp [Term.unplaced, listing, operand.listing_unplaced, TokenOf.unplaced]
  | .infixed sign left right => by
    simp [Term.unplaced, listing, left.listing_unplaced, right.listing_unplaced, TokenOf.unplaced]
  | .call mark name arguments => by
    simp [Term.unplaced, listing, Term.listings_unplaced arguments, TokenOf.unplaced]
theorem Term.listings_unplaced : (terms : List Term) →
    Term.listings (Term.unplacedAll terms) = (Term.listings terms).map Token.unplaced
  | [] => rfl
  | term :: terms => by
    simp [Term.unplacedAll, listings, term.listing_unplaced, Term.listings_unplaced terms]
end

/-- Listings that differ in places only list terms that differ in places only. -/
theorem Term.unplaced_eq_of_listing {term other : Term}
    (h : term.listing.map Token.unplaced = other.listing.map Token.unplaced) :
    term.unplaced = other.unplaced := by
  rw [← listing_unplaced, ← listing_unplaced] at h
  exact listing_injective h

mutual
/-- The tree without the numbers and the places of its nodes. -/
def Node.unplaced : Node → Node
  | .constant _ label value => .constant 0 label value
  | .reference _ name _ => .reference 0 name 0
  | .operation _ label op _ operands => .operation 0 label op 0 (Node.unplacedAll operands)
  | .chain _ label op run => .chain 0 label op run.unplaced
  | .call _ label f _ arguments => .call 0 label f 0 (Node.unplacedAll arguments)
  | .hole _ label => .hole 0 label
def Node.unplacedAll : List Node → List Node
  | [] => []
  | node :: nodes => node.unplaced :: Node.unplacedAll nodes
def Run.unplaced : Run → Run
  | .pair left _ right => .pair left.unplaced 0 right.unplaced
  | .extended run _ right => .extended run.unplaced 0 right.unplaced
end

def Node.joined (label : String) (op : Operator) (first : Node) (rest : List Node) : Node :=
  rest.foldl (fun left right => (Assembly.binary label op 0 left right 0).1) first

namespace Assembly

open Term

variable {registry : Registry} {context : Context} {label : String} {op : Operator}

/-- Whether a run goes on does not depend on places. -/
theorem binary_unplaced (label : String) (op : Operator) (offset : Nat) (left right : Node)
    (next : Nat) :
    (binary label op offset left right next).1.unplaced =
      (binary label op 0 left.unplaced right.unplaced 0).1 := by
  unfold binary
  cases op.chainable with
  | false => rfl
  | true =>
    cases left with
    | chain id chained first run =>
      by_cases hlabel : chained = label
      · simp [hlabel, Node.unplaced, Run.unplaced]
      · simp [hlabel, Node.unplaced, Run.unplaced]
    | constant | reference | operation | call | hole => rfl

theorem binary_congr {left right other further : Node} (hleft : left.unplaced = other.unplaced)
    (hright : right.unplaced = further.unplaced) (offset place next number : Nat) :
    (binary label op offset left right next).1.unplaced =
      (binary label op place other further number).1.unplaced := by
  rw [binary_unplaced, binary_unplaced, hleft, hright]

/-- Wherever the tokens are taken in, they push a tree that differs from the node in places only. -/
def Pushes (registry : Registry) (context : Context) (tokens : List Token) (node : Node) : Prop :=
  ∀ (stack : List (Option Node)) (next : Nat) (rest : List Token), ∃ built after,
    built.unplaced = node.unplaced ∧
      steps registry context ⟨stack, next⟩ (tokens ++ rest) =
        steps registry context ⟨some built :: stack, after⟩ rest

def PushesAll (registry : Registry) (context : Context) (tokens : List Token) (nodes : List Node) :
    Prop :=
  ∀ (stack : List (Option Node)) (next : Nat) (rest : List Token), ∃ built after,
    Node.unplacedAll built = Node.unplacedAll nodes ∧
      steps registry context ⟨stack, next⟩ (tokens ++ rest) =
        steps registry context ⟨built.reverse.map some ++ stack, after⟩ rest

theorem Pushes.reference {leaf : Leaf} (h : leaf.token.kind = .variableName) :
    Pushes registry context [leaf.token] (.reference 0 leaf.token.surface 0) := by
  intro stack next rest
  obtain ⟨⟨kind, surface, offset⟩, isLeaf⟩ := leaf
  cases h
  exact ⟨.reference next surface offset, next + 1, rfl, rfl⟩

theorem Pushes.constant {token : Token} {value : Value} (hkind : token.kind.isLiteral = true)
    (hvalue : Literal.value? context token = .ok value) :
    Pushes registry context [token] (.constant 0 token.surface value) := by
  intro stack next rest
  refine ⟨.constant next token.surface value, next + 1, rfl, ?_⟩
  rw [List.singleton_append, steps_cons, step_literal hkind hvalue]
  rfl

theorem Pushes.prefixed {tokens : List Token} {operand : Node}
    (h : Pushes registry context tokens operand) {sign : TokenOf .unaryOperator}
    (hop : registry.operator? sign.val.surface = some op) :
    Pushes registry context (tokens ++ [sign.val]) (.operation 0 sign.val.surface op 0 [operand]) := by
  intro stack next rest
  obtain ⟨built, after, hbuilt, hsteps⟩ := h stack next (sign.val :: rest)
  refine ⟨.operation after sign.val.surface op sign.val.offset [built], after + 2, ?_, ?_⟩
  · simp [Node.unplaced, Node.unplacedAll, hbuilt]
  · rw [List.append_assoc, List.singleton_append, hsteps, steps_cons, step_prefixed hop]
    rfl

theorem Pushes.infixed {tokens more : List Token} {left right : Node}
    (h : Pushes registry context tokens left) (k : Pushes registry context more right)
    {sign : TokenOf .operator} (hop : registry.operator? sign.val.surface = some op) :
    Pushes registry context (tokens ++ more ++ [sign.val])
      (binary sign.val.surface op 0 left right 0).1 := by
  intro stack next rest
  obtain ⟨builtLeft, between, hleft, hstepsLeft⟩ := h stack next (more ++ sign.val :: rest)
  obtain ⟨builtRight, after, hright, hstepsRight⟩ := k (some builtLeft :: stack) between (sign.val :: rest)
  obtain ⟨last, hstep⟩ := step_infixed context hop builtLeft builtRight stack after
  refine ⟨_, last, binary_congr hleft hright sign.val.offset 0 (after + 2) 0, ?_⟩
  rw [List.append_assoc, List.append_assoc, List.singleton_append, hstepsLeft, hstepsRight, steps_cons,
    hstep]
  rfl

theorem Pushes.call {tokens : List Token} {arguments : List Node}
    (h : PushesAll registry context tokens arguments) (mark : TokenOf .openParen)
    {name : TokenOf .functionName} {f : Function} (hf : registry.function? name.val.surface = some f) :
    Pushes registry context (mark.val :: (tokens ++ [name.val]))
      (.call 0 name.val.surface f 0 arguments) := by
  intro stack next rest
  obtain ⟨built, after, hbuilt, hsteps⟩ := h (none :: stack) next (name.val :: rest)
  refine ⟨.call after name.val.surface f name.val.offset built, after + 1, ?_, ?_⟩
  · simp [Node.unplaced, hbuilt]
  · rw [List.cons_append, List.append_assoc, List.singleton_append, steps_cons, step_mark, Except.bind,
      hsteps, steps_cons, step_name hf]
    rfl

theorem PushesAll.nil : PushesAll registry context [] [] := fun _ next _ => ⟨[], next, rfl, rfl⟩

theorem PushesAll.cons {tokens more : List Token} {node : Node} {nodes : List Node}
    (h : Pushes registry context tokens node) (k : PushesAll registry context more nodes) :
    PushesAll registry context (tokens ++ more) (node :: nodes) := by
  intro stack next rest
  obtain ⟨built, between, hbuilt, hsteps⟩ := h stack next (more ++ rest)
  obtain ⟨others, after, hothers, hstepsMore⟩ := k (some built :: stack) between rest
  refine ⟨built :: others, after, ?_, ?_⟩
  · rw [Node.unplacedAll, Node.unplacedAll, hbuilt, hothers]
  · rw [List.append_assoc, hsteps, hstepsMore]
    simp

end Assembly

theorem Literal.value?_unplaced {context : Context} {token other : Token} {value : Value}
    (h : token.unplaced = other.unplaced) (hvalue : value? context other = .ok value) :
    value? context token = .ok value := by
  obtain ⟨kind, surface, offset⟩ := token
  obtain ⟨_, _, place⟩ := other
  obtain ⟨rfl, rfl, -⟩ := Token.mk.inj h
  unfold value? at hvalue ⊢
  dsimp only at hvalue ⊢
  split at hvalue
  next => exact hvalue
  next => cases hvalue

namespace Term

open Assembly

variable {registry : Registry} {context : Context} {op : Operator}

def Makes (registry : Registry) (context : Context) (term : Term) (node : Node) : Prop :=
  ∀ other : Term, other.unplaced = term.unplaced → Pushes registry context other.listing node

def AllMake (registry : Registry) (context : Context) (terms : List Term) (nodes : List Node) : Prop :=
  ∀ others : List Term, unplacedAll others = unplacedAll terms →
    PushesAll registry context (listings others) nodes

theorem Makes.infixed {left right : Term} {leftNode rightNode : Node}
    (h : left.Makes registry context leftNode) (k : right.Makes registry context rightNode)
    {sign : TokenOf .operator} (hop : registry.operator? sign.val.surface = some op) :
    (Term.infixed sign left right).Makes registry context
      (binary sign.val.surface op 0 leftNode rightNode 0).1 := by
  intro other hother
  cases other with
  | infixed sign' left' right' =>
    simp only [unplaced, infixed.injEq] at hother
    obtain ⟨hsign, hleft, hright⟩ := hother
    have hsurface := TokenOf.surface_of_unplaced hsign
    have hpushes := (h left' hleft).infixed (k right' hright) (hsurface ▸ hop)
    rwa [hsurface] at hpushes
  | atom | prefixed | call => simp [unplaced] at hother

theorem Makes.call {arguments : List Term} {nodes : List Node}
    (h : AllMake registry context arguments nodes) (mark : TokenOf .openParen)
    {name : TokenOf .functionName} {f : Function} (hf : registry.function? name.val.surface = some f) :
    (Term.call mark name arguments).Makes registry context (.call 0 name.val.surface f 0 nodes) := by
  intro other hother
  cases other with
  | call mark' name' arguments' =>
    simp only [unplaced, call.injEq] at hother
    obtain ⟨-, hname, harguments⟩ := hother
    have hsurface := TokenOf.surface_of_unplaced hname
    rw [← hsurface] at hf ⊢
    exact .call (h arguments' harguments) mark' hf
  | atom | prefixed | infixed => simp [unplaced] at hother

theorem AllMake.nil : AllMake registry context [] [] := by
  intro others hothers
  cases others with
  | nil => exact .nil
  | cons => simp [unplacedAll] at hothers

theorem AllMake.cons {term : Term} {terms : List Term} {node : Node} {nodes : List Node}
    (h : term.Makes registry context node) (k : AllMake registry context terms nodes) :
    AllMake registry context (term :: terms) (node :: nodes) := by
  intro others hothers
  cases others with
  | nil => simp [unplacedAll] at hothers
  | cons other others =>
    simp only [unplacedAll, List.cons.injEq] at hothers
    exact .cons (h other hothers.1) (k others hothers.2)

mutual
/-- A term that has a tree makes one wherever its tokens are taken in. -/
theorem exists_makes : (term : Term) → {plain : Node} → term.node? registry context = some plain →
    ∃ node, term.Makes registry context node
  | .atom leaf, plain, h => by
    unfold node? at h
    split at h
    next hvariable =>
      refine ⟨.reference 0 leaf.token.surface 0, fun other hother => ?_⟩
      cases other with
      | atom leaf' =>
        have hleaf : leaf'.unplaced = leaf.unplaced := atom.inj hother
        rw [← Leaf.surface_of_unplaced hleaf]
        exact .reference ((Leaf.kind_of_unplaced hleaf).trans hvariable)
      | prefixed | infixed | call => simp [unplaced] at hother
    next hvariable =>
      obtain ⟨value, hvalue, rfl⟩ := Option.map_eq_some_iff.mp h
      have hvalue : Literal.value? context leaf.token = .ok value := by
        generalize Literal.value? context leaf.token = result at hvalue
        cases result with
        | error failure => cases hvalue
        | ok found => exact congrArg Except.ok (Option.some.inj hvalue)
      refine ⟨.constant 0 leaf.token.surface value, fun other hother => ?_⟩
      cases other with
      | atom leaf' =>
        have hleaf : leaf'.unplaced = leaf.unplaced := atom.inj hother
        have hliteral := leaf.isLiteral hvariable
        rw [← Leaf.kind_of_unplaced hleaf] at hliteral
        rw [← Leaf.surface_of_unplaced hleaf]
        exact .constant hliteral (Literal.value?_unplaced (Leaf.token_of_unplaced hleaf) hvalue)
      | prefixed | infixed | call => simp [unplaced] at hother
  | .prefixed sign operand, plain, h => by
    simp only [node?, bind, Option.bind_eq_some_iff, pure, Option.some.injEq] at h
    obtain ⟨op, hop, _, hoperand, -⟩ := h
    obtain ⟨node, hnode⟩ := exists_makes operand hoperand
    refine ⟨.operation 0 sign.val.surface op 0 [node], fun other hother => ?_⟩
    cases other with
    | prefixed sign' operand' =>
      simp only [unplaced, prefixed.injEq] at hother
      have hsurface := TokenOf.surface_of_unplaced hother.1
      rw [← hsurface] at hop ⊢
      exact (hnode operand' hother.2).prefixed hop
    | atom | infixed | call => simp [unplaced] at hother
  | .infixed sign left right, plain, h => by
    simp only [node?, bind, Option.bind_eq_some_iff, pure, Option.some.injEq] at h
    obtain ⟨op, hop, _, hleft, _, hright, -⟩ := h
    obtain ⟨leftNode, hleftNode⟩ := exists_makes left hleft
    obtain ⟨rightNode, hrightNode⟩ := exists_makes right hright
    exact ⟨_, hleftNode.infixed hrightNode hop⟩
  | .call mark name arguments, plain, h => by
    simp only [node?, bind, Option.bind_eq_some_iff, pure, Option.some.injEq] at h
    obtain ⟨f, hf, _, harguments, -⟩ := h
    obtain ⟨nodes, hnodes⟩ := exists_allMake arguments harguments
    exact ⟨_, .call hnodes mark hf⟩
theorem exists_allMake : (terms : List Term) → {plain : List Node} →
    nodes? registry context terms = some plain → ∃ nodes, AllMake registry context terms nodes
  | [], plain, _ => ⟨[], .nil⟩
  | term :: terms, plain, h => by
    simp only [nodes?, bind, Option.bind_eq_some_iff, pure, Option.some.injEq] at h
    obtain ⟨_, hterm, _, hterms, -⟩ := h
    obtain ⟨node, hnode⟩ := exists_makes term hterm
    obtain ⟨nodes, hnodes⟩ := exists_allMake terms hterms
    exact ⟨node :: nodes, .cons hnode hnodes⟩
end

/-- Building the listing of a term gives the tree that it makes. -/
theorem Makes.ofRpn {term other : Term} {node : Node} (h : term.Makes registry context node)
    (hother : other.unplaced = term.unplaced) :
    ∃ tree, Tree.ofRpn registry context other.listing = .ok tree ∧
      tree.root.unplaced = node.unplaced := by
  obtain ⟨built, after, hbuilt, hsteps⟩ := h other hother [] 0 []
  rw [List.append_nil] at hsteps
  refine ⟨⟨built, after + 1⟩, ?_, hbuilt⟩
  rw [Tree.ofRpn, hsteps]
  rfl

/-- A term whose listing builds a tree makes this tree. -/
theorem makes_of_ofRpn {term : Term} {tree : Tree} (hcallable : term.Callable registry)
    (h : Tree.ofRpn registry context term.listing = .ok tree) :
    term.Makes registry context tree.root ∧ tree.root.IsFrom registry := by
  obtain ⟨plain, hplain, -, hfrom⟩ :=
    Tree.exists_node_of_ofRpn (fun _ _ => Registry.Accepts.registered) hcallable h
  obtain ⟨node, hnode⟩ := term.exists_makes hplain
  obtain ⟨built, hbuilt, hroot⟩ := hnode.ofRpn rfl
  obtain rfl := Except.ok.inj (hbuilt.symm.trans h)
  refine ⟨fun other hother stack next rest => ?_, hfrom⟩
  rw [hroot]
  exact hnode other hother stack next rest

/-- Joined terms make the joined trees. -/
theorem makes_joined {sign : TokenOf .operator} (hop : registry.operator? sign.val.surface = some op)
    {terms : List Term} {nodes : List Node} (h : List.Forall₂ (Makes registry context) terms nodes)
    {first : Term} {node : Node} (hfirst : first.Makes registry context node) :
    (Term.joined sign first terms).Makes registry context
      (Node.joined sign.val.surface op node nodes) := by
  induction h generalizing first node with
  | nil => exact hfirst
  | cons hnext _ ih => exact ih (hfirst.infixed hnext hop)

end Term

end Formula
