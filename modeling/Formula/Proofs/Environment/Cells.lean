import Formula.Environment

/-! # The cells of an environment

Defining, binding and reading a name leave the cells of all other names alone, and putting saved cells
back undoes whatever happened to them. Where every entry holds its value, reading cannot fail and gives
what is stored.
-/
namespace Formula

@[simp] theorem Value.boundTo_boundTo (value : Value) (name other : String) :
    (value.boundTo name).boundTo other = value.boundTo other := by
  cases value <;> rfl

@[simp] theorem Value.binding_boundTo (value : Value) (name : String) :
    (value.boundTo name).binding = some name := by
  cases value <;> rfl

namespace Environment

variable {env before : Environment} {name other : String}

theorem mem_names_iff : name ∈ env.names ↔ (env.cell? name).isSome = true := by
  obtain ⟨⟨entries⟩, forces⟩ := env
  simp only [names, Table.keys, cell?, Table.get?]
  induction entries with
  | nil => simp [Table.find?]
  | cons pair rest ih =>
    by_cases hpair : pair.1 = name
    · simp [Table.find?, hpair]
    · simp [Table.find?, hpair, Ne.symm hpair, ih]

@[simp] theorem cell?_define_self (env : Environment) (name : String) (entry : Entry) :
    (env.define name entry).cell? name = some ⟨entry, env.forces.size⟩ :=
  Table.get?_insert_self _ _ _

theorem cell?_define_of_ne (h : other ≠ name) (env : Environment) (entry : Entry) :
    (env.define name entry).cell? other = env.cell? other :=
  Table.get?_insert_of_ne h _ _

theorem cell?_bind_of_ne (h : other ≠ name) (env : Environment) (value : Value) :
    (env.bind name value).cell? other = env.cell? other :=
  cell?_define_of_ne h env _

@[simp] theorem cell?_unbind_self (env : Environment) (name : String) :
    (env.unbind name).cell? name = none :=
  Table.get?_erase_self _ _

theorem cell?_unbind_of_ne (h : other ≠ name) (env : Environment) :
    (env.unbind name).cell? other = env.cell? other :=
  Table.get?_erase_of_ne h _

@[simp] theorem cell?_lookup_self (env : Environment) (name : String) :
    (env.lookup name).2.cell? name = some (env.lookup name).1 := by
  unfold lookup
  split
  next cell hcell => exact hcell
  next => exact cell?_define_self _ _ _

theorem cell?_lookup_of_ne (h : other ≠ name) (env : Environment) :
    (env.lookup name).2.cell? other = env.cell? other := by
  unfold lookup
  split
  next => rfl
  next => exact cell?_define_of_ne h _ _

@[simp] theorem cell?_read (env : Environment) (name other : String) :
    (env.read name).2.cell? other = (env.lookup name).2.cell? other := rfl

theorem cell?_read_of_ne (h : other ≠ name) (env : Environment) :
    (env.read name).2.cell? other = env.cell? other :=
  cell?_lookup_of_ne h env

/-- Saved cells come back, also those that were missing; no other cell changes. -/
theorem cell?_restore_save (before env : Environment) (names : List String) (name : String) :
    (env.restore (before.save names)).cell? name =
      if name ∈ names then before.cell? name else env.cell? name := by
  induction names generalizing env with
  | nil => rfl
  | cons first names ih =>
    -- The first name is put back before the rest, which may name it again.
    have hfirst : ∃ next : Environment,
        env.restore (before.save (first :: names)) = next.restore (before.save names) ∧
          next.cell? first = before.cell? first ∧
          ∀ other, other ≠ first → next.cell? other = env.cell? other := by
      cases hcell : before.cell? first with
      | none =>
        refine ⟨env.unbind first, ?_, cell?_unbind_self env first,
          fun other hother => cell?_unbind_of_ne hother env⟩
        rw [save, List.map_cons, hcell, restore, save]
      | some cell =>
        refine ⟨{ env with table := env.table.insert first cell }, ?_,
          Table.get?_insert_self _ _ _, fun other hother => Table.get?_insert_of_ne hother _ _⟩
        rw [save, List.map_cons, hcell, restore, save]
    obtain ⟨next, hrestore, hself, hothers⟩ := hfirst
    rw [hrestore, ih]
    by_cases hmem : name ∈ names
    · simp [hmem]
    by_cases hname : name = first
    · simp [hname, hself]
    · simp [hmem, hname, hothers name hname]

def Constant (env : Environment) : Prop :=
  ∀ ⦃name cell⦄, env.cell? name = some cell → ∃ value, cell.entry.source = .constant value

def stored (env : Environment) (name : String) : Value :=
  (((env.cell? name).bind fun cell => cell.entry.source.constant?).getD .zero).boundTo name

theorem stored_congr (h : env.cell? name = before.cell? name) :
    env.stored name = before.stored name := by
  rw [stored, stored, h]

@[simp] theorem stored_bind_self (env : Environment) (name : String) (value : Value) :
    (env.bind name value).stored name = value.boundTo name := by
  rw [stored, bind, cell?_define_self]
  exact value.boundTo_boundTo name name

theorem stored_bind_of_ne (h : other ≠ name) (env : Environment) (value : Value) :
    (env.bind name value).stored other = env.stored other :=
  stored_congr (cell?_bind_of_ne h env value)

/-- A missing name is defined as what it would have been read as. -/
theorem stored_read (env : Environment) (name other : String) :
    (env.read name).2.stored other = env.stored other := by
  by_cases hother : other = name
  · subst hother
    cases hcell : env.cell? other with
    | some cell => exact stored_congr (by simp [lookup, hcell])
    | none =>
      rw [stored, stored, cell?_read, cell?_lookup_self, hcell, lookup, hcell]
      exact Value.zero.boundTo_boundTo other other
  · exact stored_congr (cell?_read_of_ne hother env)

theorem constant_empty : empty.Constant := nofun

namespace Constant

theorem define (h : env.Constant) (name : String) {entry : Entry} {value : Value}
    (hentry : entry.source = .constant value) : (env.define name entry).Constant := by
  intro other cell hcell
  by_cases hother : other = name
  · rw [hother, cell?_define_self] at hcell
    obtain rfl := Option.some.inj hcell
    exact ⟨value, hentry⟩
  · rw [cell?_define_of_ne hother] at hcell
    exact h hcell

theorem bind (h : env.Constant) (name : String) (value : Value) : (env.bind name value).Constant :=
  h.define name rfl

theorem lookup (h : env.Constant) (name : String) : (env.lookup name).2.Constant := by
  unfold Environment.lookup
  split
  next => exact h
  next => exact h.define name rfl

theorem read (h : env.Constant) (name : String) : (env.read name).2.Constant := h.lookup name

theorem restore_save (h : env.Constant) (hbefore : before.Constant) (names : List String) :
    (env.restore (before.save names)).Constant := by
  intro name cell hcell
  rw [cell?_restore_save] at hcell
  split at hcell
  next => exact hbefore hcell
  next => exact h hcell

/-- Reading a held value cannot fail. -/
theorem read_eq (h : env.Constant) (name : String) : (env.read name).1 = .ok (env.stored name) := by
  cases hcell : env.cell? name with
  | none =>
    rw [Environment.read, Environment.lookup, hcell, stored, hcell]
    exact congrArg Except.ok (Value.zero.boundTo_boundTo name name)
  | some cell =>
    obtain ⟨value, hvalue⟩ := h hcell
    rw [Environment.read, Environment.lookup, hcell, stored, hcell]
    simp [Environment.force, Source.force, Source.constant?, hvalue, Except.map]

end Constant

end Environment

end Formula
