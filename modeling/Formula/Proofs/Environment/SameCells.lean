import Formula.Proofs.Environment.Restoration

/-! # The same cells under all names

Environments may hold the same cells without listing their names in the same order. Reading, binding and putting
back names cannot tell them apart; and where they differ under some names only, binding these names or putting
them back makes them the same.
-/
namespace Formula.Environment

/-- The same cells are under all names but these, and all cells were forced as often. -/
structure SameBut (names : List String) (left right : Environment) : Prop where
  cells : ∀ ⦃name⦄, name ∉ names → left.cell? name = right.cell? name
  forces : left.forces = right.forces

namespace SameBut

variable {names : List String} {name : String} {left right other before past : Environment}

theorem refl (names : List String) (env : Environment) : SameBut names env env := ⟨fun _ _ => rfl, rfl⟩

theorem symm (h : SameBut names left right) : SameBut names right left :=
  ⟨fun _ hname => (h.cells hname).symm, h.forces.symm⟩

theorem trans (h : SameBut names left right) (k : SameBut names right other) : SameBut names left other :=
  ⟨fun _ hname => (h.cells hname).trans (k.cells hname), h.forces.trans k.forces⟩

theorem weaken (h : SameBut [] left right) (names : List String) : SameBut names left right :=
  ⟨fun _ _ => h.cells List.not_mem_nil, h.forces⟩

theorem cell?_eq (h : SameBut [] left right) (name : String) : left.cell? name = right.cell? name :=
  h.cells List.not_mem_nil

/-- New cells have the same number on both sides. -/
theorem define (h : SameBut (name :: names) left right) (entry : Entry) :
    SameBut names (left.define name entry) (right.define name entry) := by
  constructor
  · intro other hother
    by_cases hname : other = name
    · subst hname
      rw [cell?_define_self, cell?_define_self, h.forces]
    · rw [cell?_define_of_ne hname, cell?_define_of_ne hname]
      exact h.cells (by simp [hname, hother])
  · exact congrArg (·.push 0) h.forces

theorem bind (h : SameBut (name :: names) left right) (value : Value) :
    SameBut names (left.bind name value) (right.bind name value) :=
  h.define _

theorem lookup (h : SameBut [] left right) (name : String) :
    (left.lookup name).1 = (right.lookup name).1 ∧ SameBut [] (left.lookup name).2 (right.lookup name).2 := by
  unfold Environment.lookup
  rw [h.cell?_eq name]
  cases right.cell? name with
  | some cell => exact ⟨rfl, h⟩
  | none =>
    refine ⟨?_, (h.weaken [name]).define _⟩
    rw [h.forces]

/-- Reading has the same result and leaves the same cells. -/
theorem exists_read (h : SameBut [] left right) (name : String) :
    ∃ result first second, left.read name = (result, first) ∧ right.read name = (result, second) ∧
      SameBut [] first second := by
  obtain ⟨hcell, hlookup⟩ := h.lookup name
  unfold Environment.read
  generalize left.lookup name = first at hcell hlookup
  generalize right.lookup name = second at hcell hlookup
  obtain ⟨cell, ⟨table, forces⟩⟩ := first
  obtain ⟨_, ⟨entries, counts⟩⟩ := second
  obtain rfl : cell = _ := hcell
  obtain rfl : forces = counts := hlookup.forces
  exact ⟨_, _, _, rfl, rfl, hlookup.cells, rfl⟩

/-- Names under which the environments differ are put back to what both held before. -/
theorem restore_save (hbefore : ∀ name ∈ names, before.cell? name = past.cell? name)
    (h : SameBut names left right) :
    SameBut [] (left.restore (before.save names)) (right.restore (past.save names)) := by
  constructor
  · intro name _
    rw [cell?_restore_save, cell?_restore_save]
    split
    next hname => exact hbefore name hname
    next hname => exact h.cells hname
  · rw [forces_restore, forces_restore, h.forces]

/-- Putting names back changes nothing but them. -/
theorem restored (before env : Environment) (names : List String) :
    SameBut names (env.restore (before.save names)) env := by
  constructor
  · intro name hname
    rw [cell?_restore_save, if_neg hname]
  · exact forces_restore env _

end SameBut

end Formula.Environment
