import Formula.Proofs.Failure.Place
import Formula.Proofs.Registry.Entry

/-! # Registries that registrations lead to

Registrations, libraries, closing and copying are all that ever happens to a registry. On every way
they leave each operator under its own key, with a symbol that consists of symbol characters.
-/
namespace Formula.Registry

variable {registry next : Registry}

inductive Reachable : Registry → Prop
  | empty : Reachable {}
  | standard : Reachable .standard
  | register {registry next : Registry} {registration : Registration} (h : Reachable registry)
      (hnext : registry.register registration = .ok next) : Reachable next
  | freeze {registry : Registry} (h : Reachable registry) : Reachable registry.freeze
  | copy {registry : Registry} (h : Reachable registry) : Reachable registry.copy

theorem Reachable.load (h : Reachable registry) {registrations : List Registration}
    (hnext : registry.load registrations = .ok next) : Reachable next := by
  induction registrations generalizing registry with
  | nil =>
    cases hnext
    exact h
  | cons registration rest ih =>
    obtain ⟨middle, hregister, hrest⟩ := exists_of_bind_eq_ok hnext
    exact ih (h.register hregister) hrest

/-- Every operator is found under its own key, and its symbol is one. -/
def Keyed (registry : Registry) : Prop :=
  ∀ surface op, registry.operator? surface = some op → surface = op.key ∧ isSymbol op.symbol = true

theorem Keyed.insert (h : registry.Keyed) {op : Operator} (hsymbol : isSymbol op.symbol = true) :
    Keyed { registry with operators := registry.operators.insert op.key op } := by
  intro surface found hfound
  by_cases hkey : surface = op.key
  · subst hkey
    rw [operator?, Table.get?_insert_self] at hfound
    obtain rfl := Option.some.inj hfound
    exact ⟨rfl, hsymbol⟩
  · rw [operator?, Table.get?_insert_of_ne hkey] at hfound
    exact h surface found hfound

/-- Functions and constants leave the operators alone. -/
theorem Keyed.of_operators_eq (h : registry.Keyed) (heq : next.operators = registry.operators) :
    next.Keyed := by
  intro surface op hop
  rw [operator?, heq] at hop
  exact h surface op hop

theorem Keyed.register {registration : Registration} (h : registry.Keyed)
    (hnext : registry.register registration = .ok next) : next.Keyed := by
  obtain ⟨-, ⟨op, -, hsymbol, rfl⟩ | ⟨_, _, -, rfl⟩ | ⟨_, _, rfl⟩⟩ := register_inversion hnext
  · exact h.insert hsymbol
  · exact h.of_operators_eq rfl
  · exact h.of_operators_eq rfl

theorem keyed_standard : Registry.standard.Keyed := by
  intro surface op hop
  obtain ⟨hkey, hmem⟩ := mem_of_operator?_standard hop
  have hsymbols : ∀ op ∈ Library.operators, isSymbol op.symbol = true := by
    simp only [Library.operators, List.forall_mem_cons, List.not_mem_nil, false_implies,
      implies_true, and_true]
    decide +kernel
  exact ⟨hkey, hsymbols op hmem⟩

theorem Reachable.keyed (h : Reachable registry) : registry.Keyed := by
  induction h with
  | empty => exact fun _ _ hop => nomatch hop
  | standard => exact keyed_standard
  | register _ hnext ih => exact ih.register hnext
  | freeze _ ih => exact ih.of_operators_eq rfl
  | copy _ ih => exact ih.of_operators_eq rfl

end Formula.Registry
