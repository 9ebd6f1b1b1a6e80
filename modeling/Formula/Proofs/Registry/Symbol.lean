import Formula.Proofs.Registry.Reachable
import Formula.Proofs.Token.Written

/-! # Registered symbols are scanned whole

Of a run of symbol characters the longest registered beginning is taken. So a registered symbol is one
operator where it stands alone, whatever else is registered.
-/
namespace Formula

namespace Lexeme

variable {registry : Registry}

theorem le_foldl_max (keys : List String) (start : Nat) :
    start ≤ keys.foldl (fun bound key => max bound key.length) start ∧
      ∀ key ∈ keys, key.length ≤ keys.foldl (fun bound key => max bound key.length) start := by
  induction keys generalizing start with
  | nil => exact ⟨Nat.le_refl start, nofun⟩
  | cons other keys ih =>
    obtain ⟨hstart, hkeys⟩ := ih (max start other.length)
    refine ⟨Nat.le_trans (Nat.le_max_left _ _) hstart, ?_⟩
    intro key hkey
    rcases List.mem_cons.mp hkey with rfl | hkey
    · exact Nat.le_trans (Nat.le_max_right _ _) hstart
    · exact hkeys key hkey

theorem le_symbolBound {key : String} {op : Operator} (h : registry.operator? key = some op) :
    key.length ≤ symbolBound registry := by
  have hkey : key ∈ registry.operators.keys := List.mem_map.mpr ⟨_, Table.mem_of_get? h, rfl⟩
  exact (le_foldl_max registry.operators.keys 0).2 key hkey

/-- A symbol whose key is registered is one operator where nothing but its characters stands. -/
theorem isOperator_of_operator? {symbol key : String} {op : Operator}
    (hsymbol : Registry.isSymbol symbol = true) (hkey : key = symbol ∨ key = symbol ++ unaryMark)
    (hop : registry.operator? key = some op) : IsOperator registry symbol.toList := by
  simp only [Registry.isSymbol, Bool.and_eq_true, List.all_eq_true, Bool.not_eq_true',
    String.isEmpty_eq_false_iff] at hsymbol
  obtain ⟨hempty, hall⟩ := hsymbol
  have hlength : 0 < symbol.toList.length := by
    rw [List.length_pos_iff]
    simpa using hempty
  have hregistered : registry.hasSymbol symbol = true := by
    have hcontains : registry.operators.contains key = true := by
      rw [Table.contains, show registry.operators.get? key = some op from hop]
      rfl
    rcases hkey with rfl | rfl
    · simp [Registry.hasSymbol, hcontains]
    · simp [Registry.hasSymbol, hcontains]
  have hbound : symbol.toList.length ≤ symbolBound registry := by
    have hkeyBound := le_symbolBound hop
    rw [String.length_toList]
    rcases hkey with rfl | rfl
    · exact hkeyBound
    · rw [String.length_append] at hkeyBound
      omega
  refine ⟨List.length_pos_iff.mp hlength, hall, ?_⟩
  obtain ⟨length, hsucc⟩ := Nat.exists_eq_add_of_lt hlength
  rw [Nat.zero_add] at hsucc
  have hfound : registeredLength registry symbol.toList symbol.toList.length =
      some symbol.toList.length := by
    rw [hsucc, registeredLength, ← hsucc, List.take_length, String.ofList_toList, if_pos hregistered]
  rw [operatorChars, Nat.min_eq_left hbound, hfound]
  exact List.take_length

end Lexeme

namespace Registry

variable {registry : Registry} {op : Operator}

theorem Keyed.scannable_operator (h : registry.Keyed) {token : Token} (hkind : token.kind = .operator)
    (hop : registry.operator? token.surface = some op) (hunary : op.unary = false) :
    token.Scannable registry := by
  obtain ⟨kind, surface, offset⟩ := token
  cases hkind
  obtain ⟨hkey, hsymbol⟩ := h surface op hop
  have hsurface : surface = op.symbol := by rw [hkey, Operator.key, hunary]; rfl
  exact hsurface ▸ Lexeme.isOperator_of_operator? hsymbol (.inl hsurface) hop

theorem Keyed.scannable_unaryOperator (h : registry.Keyed) {token : Token}
    (hkind : token.kind = .unaryOperator) (hop : registry.operator? token.surface = some op)
    (hunary : op.unary = true) : token.Scannable registry := by
  obtain ⟨kind, surface, offset⟩ := token
  cases hkind
  obtain ⟨hkey, hsymbol⟩ := h surface op hop
  have hsurface : surface = op.symbol ++ unaryMark := by rw [hkey, Operator.key, hunary]; rfl
  exact ⟨op.symbol, hsurface, Lexeme.isOperator_of_operator? hsymbol (.inr hsurface) hop⟩

end Registry

end Formula
