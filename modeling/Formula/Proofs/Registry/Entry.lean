import Formula.Registration

/-! # The entry that a registration makes

A registration is refused by a closed registry. An open one gets one entry: an operator under its key, a
function under its name in small letters, or a constant. Everything else stays.
-/
namespace Formula

namespace Registration

def symbol? : Registration → Option String
  | .binary symbol _ _ _ | .lazyBinary symbol _ _ _ _ | .unary symbol _ => some symbol
  | .function .. | .lazyFunction .. | .float .. | .constant .. => none

def functionKey? : Registration → Option String
  | .function name _ _ | .lazyFunction name _ _ | .float name _ _ => some (Text.lower name)
  | .binary .. | .lazyBinary .. | .unary .. | .constant .. => none

end Registration

namespace Registry

variable {registry next : Registry} {registration : Registration}

/-- The letter that marks unary operators is no symbol character, so no symbol ends like a marked one. -/
theorem mark_not_mem {symbol : String} (h : isSymbol symbol = true) : 'u' ∉ symbol.toList := by
  intro hmem
  simp only [isSymbol, Bool.and_eq_true, List.all_eq_true] at h
  have hchar := h.2 'u' hmem
  revert hchar
  decide

theorem addOperator_inversion {op : Operator} (h : registry.addOperator op = .ok next) :
    registry.frozen = false ∧ isSymbol op.symbol = true ∧
      next = { registry with operators := registry.operators.insert op.key op } := by
  unfold addOperator at h
  split at h
  · cases h
  next hopen =>
    split at h
    · cases h
    next hsymbol => exact ⟨by simpa using hopen, by simpa using hsymbol, (Except.ok.inj h).symm⟩

theorem addBehaviour_inversion {name : String} {arity : Int} {behaviour : Behaviour}
    (h : registry.addBehaviour name arity behaviour = .ok next) :
    registry.frozen = false ∧ next = { registry with
      functions := registry.functions.insert (Text.lower name) ⟨Text.lower name, arity, behaviour⟩ } := by
  unfold addBehaviour at h
  split at h
  · cases h
  next hopen =>
    split at h
    · cases h
    · exact ⟨by simpa using hopen, (Except.ok.inj h).symm⟩

theorem addConstant_inversion {name : String} {value : Value}
    (h : registry.addConstant name value = .ok next) :
    registry.frozen = false ∧
      next = { registry with constants := registry.constants.insert name value } := by
  unfold addConstant at h
  split at h
  · cases h
  next hopen => exact ⟨by simpa using hopen, (Except.ok.inj h).symm⟩

theorem register_inversion (h : registry.register registration = .ok next) :
    registry.frozen = false ∧
      ((∃ op : Operator, registration.symbol? = some op.symbol ∧ isSymbol op.symbol = true ∧
          next = { registry with operators := registry.operators.insert op.key op }) ∨
        (∃ key f, registration.functionKey? = some key ∧
          next = { registry with functions := registry.functions.insert key f }) ∨
        ∃ name value, next = { registry with constants := registry.constants.insert name value }) := by
  cases registration with
  | binary | lazyBinary | unary =>
    obtain ⟨hopen, hsymbol, hinsert⟩ := addOperator_inversion h
    exact ⟨hopen, .inl ⟨_, rfl, hsymbol, hinsert⟩⟩
  | function | lazyFunction | float =>
    obtain ⟨hopen, hinsert⟩ := addBehaviour_inversion h
    exact ⟨hopen, .inr (.inl ⟨_, _, rfl, hinsert⟩)⟩
  | constant =>
    obtain ⟨hopen, hinsert⟩ := addConstant_inversion h
    exact ⟨hopen, .inr (.inr ⟨_, _, hinsert⟩)⟩

theorem isSymbol_of_register (h : registry.register registration = .ok next) {symbol : String}
    (hsymbol : registration.symbol? = some symbol) : isSymbol symbol = true := by
  cases registration with
  | binary | lazyBinary | unary =>
    obtain rfl := Option.some.inj hsymbol
    exact (addOperator_inversion h).2.1
  | function | lazyFunction | float | constant => cases hsymbol

theorem operator?_register (h : registry.register registration = .ok next) {key : String}
    (hkey : ∀ symbol ∈ registration.symbol?, key ≠ symbol ∧ key ≠ symbol ++ unaryMark) :
    next.operator? key = registry.operator? key := by
  obtain ⟨-, ⟨op, hsymbol, -, rfl⟩ | ⟨_, f, -, rfl⟩ | ⟨name, value, rfl⟩⟩ := register_inversion h
  · obtain ⟨hplain, hmarked⟩ := hkey _ hsymbol
    have hne : key ≠ op.key := by
      unfold Operator.key
      split
      · exact hmarked
      · exact hplain
    rw [operator?, Table.get?_insert_of_ne hne, operator?]
  · rfl
  · rfl

theorem function?_register (h : registry.register registration = .ok next) {name : String}
    (hname : registration.functionKey? ≠ some (Text.lower name)) :
    next.function? name = registry.function? name := by
  obtain ⟨-, ⟨op, -, -, rfl⟩ | ⟨key, f, hkey, rfl⟩ | ⟨constant, value, rfl⟩⟩ := register_inversion h
  · rfl
  · have hne : Text.lower name ≠ key := fun heq => hname (heq ▸ hkey)
    rw [function?, Table.get?_insert_of_ne hne, function?]
  · rfl

theorem isSome_function?_register (h : registry.register registration = .ok next) {name : String}
    (hsome : (registry.function? name).isSome = true) : (next.function? name).isSome = true := by
  by_cases hname : registration.functionKey? = some (Text.lower name)
  · obtain ⟨-, ⟨op, -, -, rfl⟩ | ⟨key, f, hkey, rfl⟩ | ⟨constant, value, rfl⟩⟩ := register_inversion h
    · exact hsome
    · obtain rfl := Option.some.inj (hname.symm.trans hkey)
      rw [function?, Table.get?_insert_self]
      rfl
    · exact hsome
  · rwa [function?_register h hname]

end Registry

end Formula
