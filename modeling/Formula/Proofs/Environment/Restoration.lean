import Formula.Proofs.Environment.Cells

/-! # Names that are put back

Names that are preserved around some actions hold afterwards what they held before: the same cell, or none.
Nothing is forced for that, and all other names are as the actions left them.
-/
namespace Formula

namespace Table

variable {α : Type} {name : String} {entry old : α}

theorem put_put (name : String) (old entry : α) (entries : List (String × α)) :
    put name entry (put name old entries) = put name entry entries := by
  induction entries with
  | nil => simp [put]
  | cons pair rest ih =>
    by_cases h : pair.1 = name
    · simp [put, h]
    · simp [put, h, ih]

theorem put_find? {entries : List (String × α)} (h : find? name entries = some entry) :
    put name entry entries = entries := by
  induction entries with
  | nil => cases h
  | cons pair rest ih =>
    obtain ⟨key, found⟩ := pair
    by_cases hkey : key = name
    · rw [find?, if_pos hkey] at h
      obtain rfl := Option.some.inj h
      rw [put, if_pos hkey]
    · rw [find?, if_neg hkey] at h
      rw [put, if_neg hkey, ih h]

theorem filter_put (name : String) (entry : α) (entries : List (String × α)) :
    (put name entry entries).filter (fun pair => pair.1 ≠ name) =
      entries.filter fun pair => pair.1 ≠ name := by
  induction entries with
  | nil => simp [put]
  | cons pair rest ih =>
    by_cases h : pair.1 = name
    · simp [put, h]
    · simpa [put, h] using ih

theorem filter_find? {entries : List (String × α)} (h : find? name entries = none) :
    entries.filter (fun pair => pair.1 ≠ name) = entries := by
  induction entries with
  | nil => rfl
  | cons pair rest ih =>
    obtain ⟨key, found⟩ := pair
    by_cases hkey : key = name
    · rw [find?, if_pos hkey] at h
      cases h
    · rw [find?, if_neg hkey] at h
      rw [List.filter_cons_of_pos (by simpa using hkey), ih h]

theorem insert_insert (table : Table α) (name : String) (old entry : α) :
    (table.insert name old).insert name entry = table.insert name entry :=
  congrArg Table.mk (put_put name old entry _)

theorem insert_of_get? {table : Table α} (h : table.get? name = some entry) :
    table.insert name entry = table :=
  congrArg Table.mk (put_find? h)

theorem erase_insert (table : Table α) (name : String) (entry : α) :
    (table.insert name entry).erase name = table.erase name :=
  congrArg Table.mk (filter_put name entry _)

theorem erase_of_get? {table : Table α} (h : table.get? name = none) : table.erase name = table :=
  congrArg Table.mk (filter_find? h)

end Table

namespace Environment

variable {env before after : Environment} {names : List String} {name : String}

theorem forces_restore (env : Environment) (saved : List (String × Option Cell)) :
    (env.restore saved).forces = env.forces := by
  induction saved generalizing env with
  | nil => rfl
  | cons pair saved ih =>
    obtain ⟨name, _ | cell⟩ := pair
    · exact ih _
    · exact ih _

/-- Where nothing was done there is nothing to put back. -/
theorem restore_save_self (env : Environment) (names : List String) :
    env.restore (env.save names) = env := by
  induction names with
  | nil => rfl
  | cons name names ih =>
    cases hcell : env.cell? name with
    | none =>
      have hgone : env.unbind name = env := by
        rw [unbind, Table.erase_of_get? hcell]
      rw [save, List.map_cons, hcell, restore, hgone]
      exact ih
    | some cell =>
      have hback : { env with table := env.table.insert name cell } = env := by
        rw [Table.insert_of_get? hcell]
      rw [save, List.map_cons, hcell, restore, hback]
      exact ih

/-- `last` holds the names as `begun` did and all else as `ran` does; no cell was forced meanwhile. -/
structure PutsBack (names : List String) (begun ran last : Environment) : Prop where
  held : ∀ ⦃name⦄, name ∈ names → last.cell? name = begun.cell? name
  others : ∀ ⦃name⦄, name ∉ names → last.cell? name = ran.cell? name
  forces : ∀ cell, last.forcesOf cell = ran.forcesOf cell

theorem putsBack_restore (begun ran : Environment) (names : List String) :
    PutsBack names begun ran (ran.restore (begun.save names)) where
  held name hname := by rw [cell?_restore_save, if_pos hname]
  others name hname := by rw [cell?_restore_save, if_neg hname]
  forces cell := by rw [forcesOf, forces_restore, forcesOf]

inductive Action where
  | read (name : String)
  | bind (name : String) (value : Value)
  | define (name : String) (entry : Entry)
  | unbind (name : String)
  | fail (failure : Failure)
  | preserving (names : List String) (actions : List Action)

namespace Action

mutual
/-- An action ends where something fails. Names are put back also then. -/
def run : Action → Environment → Except Failure Unit × Environment
  | .read name, env => ((env.read name).1.map fun _ => (), (env.read name).2)
  | .bind name value, env => (.ok (), env.bind name value)
  | .define name entry, env => (.ok (), env.define name entry)
  | .unbind name, env => (.ok (), env.unbind name)
  | .fail failure, env => (.error failure, env)
  | .preserving names actions, env =>
    let (result, after) := runAll actions env
    (result, after.restore (env.save names))
def runAll : List Action → Environment → Except Failure Unit × Environment
  | [], env => (.ok (), env)
  | action :: actions, env =>
    match action.run env with
    | (.ok (), env) => runAll actions env
    | (.error failure, env) => (.error failure, env)
end

theorem run_preserving (names : List String) (actions : List Action) (env : Environment) :
    ((preserving names actions).run env).1 = (runAll actions env).1 ∧
      PutsBack names env (runAll actions env).2 ((preserving names actions).run env).2 := by
  rw [run]
  exact ⟨rfl, putsBack_restore env _ names⟩

end Action

end Environment

end Formula
