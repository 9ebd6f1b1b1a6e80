import Formula.Proofs.Expression.Reading
import Formula.Proofs.Rpn.Extension

/-! # Functions that a text does not call

A registry without some functions builds the same trees of the texts that call none of them. What holds
of all trees of the smaller registry so holds of these texts.
-/
namespace Formula.Registry

variable {registry : Registry} {context : Context} {source name : String} {names : List String}

def functionNames (registry : Registry) (source : String) : List String :=
  (((tokenize registry source).toOption.getD []).filter fun token =>
    token.kind = .functionName).map fun token => Text.lower token.surface

theorem mem_functionNames {tokens : List Token} (h : tokenize registry source = .ok tokens)
    {token : Token} (htoken : token ∈ tokens) (hkind : token.kind = .functionName) :
    Text.lower token.surface ∈ registry.functionNames source := by
  rw [functionNames, h]
  exact List.mem_map.mpr ⟨token, List.mem_filter.mpr ⟨htoken, by simpa using hkind⟩, rfl⟩

def without (registry : Registry) : (names : List String) → Registry
  | [] => registry
  | name :: names =>
    { registry.without names with functions := (registry.without names).functions.erase name }

theorem operator?_without (surface : String) (names : List String) :
    (registry.without names).operator? surface = registry.operator? surface := by
  induction names with
  | nil => rfl
  | cons first names ih => exact ih

theorem function?_without (name : String) (names : List String) :
    (registry.without names).function? name =
      if Text.lower name ∈ names then none else registry.function? name := by
  induction names with
  | nil => rfl
  | cons first names ih =>
    by_cases hfirst : Text.lower name = first
    · rw [if_pos (List.mem_cons.mpr (.inl hfirst)), ← hfirst]
      exact Table.get?_erase_self _ _
    · simp only [List.mem_cons, hfirst, false_or]
      exact (Table.get?_erase_of_ne hfirst _).trans ih

/-- No token of the text tells the two registries apart. -/
theorem sameIn_without (h : ∀ name ∈ registry.functionNames source, name ∉ names) {tokens : List Token}
    (htokens : tokenize registry source = .ok tokens) :
    ∀ token ∈ tokens, token.SameIn registry (registry.without names) := by
  intro token htoken
  refine ⟨fun _ => operator?_without _ _, fun hkind => ?_⟩
  rw [function?_without, if_neg (h _ (mem_functionNames htokens htoken hkind))]

theorem treeOf_without (h : ∀ name ∈ registry.functionNames source, name ∉ names) {tree : Tree}
    (htree : registry.treeOf context source = .ok tree) :
    ∃ rpn, Tree.ofRpn (registry.without names) context rpn = .ok tree := by
  obtain ⟨rpn, hchecked, hbuilt⟩ := exists_of_bind_eq_ok htree
  obtain ⟨tokens, htokens, hrpn⟩ := exists_of_bind_eq_ok hchecked
  obtain ⟨listed, hlisted, hvalid⟩ := exists_of_bind_eq_ok hrpn
  obtain ⟨-, -, hlast⟩ := exists_of_bind_eq_ok hvalid
  obtain rfl := Except.ok.inj hlast
  have hempty : Rpn.Yard.SameIn registry (registry.without names) ⟨[], []⟩ :=
    ⟨List.forall_mem_nil _, List.forall_mem_nil _⟩
  obtain ⟨-, hsame⟩ := Rpn.steps_unchanged (operator?_without _ _) none hempty (sameIn_without h htokens)
  refine ⟨listed, ?_⟩
  rw [Tree.ofRpn, Assembly.steps_eq context _ (hsame listed hlisted)]
  exact hbuilt

end Formula.Registry
