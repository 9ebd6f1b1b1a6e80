import Formula.Proofs.Evaluation.Invariant

/-! # The numbers of an environment

A property of numbers extends to values, where all numbers in them have it, those in lists and in lists
of lists as well, and to environments, where all values that are read have it. Evaluations keep such a
property if zero has it, which is what a missing name is read as.
-/
namespace Formula

namespace Value

mutual
/-- Every number in the value, at any depth of its lists, is good. -/
def Numbers (good : Decimal → Prop) : Value → Prop
  | .number amount _ _ => good amount
  | .list items _ => AllNumbers good items
  | .null _ | .text .. | .host .. => True
def AllNumbers (good : Decimal → Prop) : List Value → Prop
  | [] => True
  | item :: items => item.Numbers good ∧ AllNumbers good items
end

variable {good better : Decimal → Prop} {value : Value} {values : List Value}

theorem allNumbers_iff : AllNumbers good values ↔ ∀ value ∈ values, value.Numbers good := by
  induction values with
  | nil => simp [AllNumbers]
  | cons value values ih => simp [AllNumbers, ih]

theorem numbers_list {binding : Option String} :
    (Value.list values binding).Numbers good ↔ ∀ value ∈ values, value.Numbers good :=
  allNumbers_iff

theorem Numbers.boundTo (h : value.Numbers good) (name : String) : (value.boundTo name).Numbers good := by
  cases value <;> exact h

mutual
theorem Numbers.imp (himp : ∀ d, better d → good d) :
    (value : Value) → value.Numbers better → value.Numbers good
  | .number amount _ _, h => himp amount h
  | .list items _, h => AllNumbers.imp himp items h
  | .null _, _ | .text .., _ | .host .., _ => trivial
theorem AllNumbers.imp (himp : ∀ d, better d → good d) :
    (values : List Value) → AllNumbers better values → AllNumbers good values
  | [], _ => trivial
  | value :: values, h => ⟨Numbers.imp himp value h.1, AllNumbers.imp himp values h.2⟩
end

end Value

namespace Environment

def Numbers (good : Decimal → Prop) (env : Environment) : Prop :=
  ∀ ⦃name cell⦄, env.cell? name = some cell →
    ∀ ⦃n value⦄, cell.entry.source.force n = .ok value → value.Numbers good

variable {good better : Decimal → Prop} {env before : Environment}

theorem numbers_empty : empty.Numbers good := nofun

namespace Numbers

theorem imp (himp : ∀ d, better d → good d) (h : env.Numbers better) : env.Numbers good :=
  fun _ _ hcell _ value hvalue => Value.Numbers.imp himp value (h hcell hvalue)

theorem bind (h : env.Numbers good) (name : String) {value : Value} (hvalue : value.Numbers good) :
    (env.bind name value).Numbers good := by
  intro other cell hcell n result hresult
  by_cases hother : other = name
  · rw [hother, Environment.bind, cell?_define_self] at hcell
    obtain rfl := Option.some.inj hcell
    obtain rfl := Except.ok.inj hresult
    exact hvalue.boundTo name
  · rw [cell?_bind_of_ne hother] at hcell
    exact h hcell hresult

theorem lookup (h : env.Numbers good) (hzero : good .zero) (name : String) :
    (env.lookup name).2.Numbers good := by
  unfold Environment.lookup
  split
  next => exact h
  next =>
    have hnone : Value.zero.Numbers good := hzero
    exact h.bind name hnone

theorem restore_save (h : env.Numbers good) (hbefore : before.Numbers good) (names : List String) :
    (env.restore (before.save names)).Numbers good := by
  intro name cell hcell
  rw [cell?_restore_save] at hcell
  split at hcell
  next => exact hbefore hcell
  next => exact h hcell

/-- A value that is read is that of its cell, bound to the name. -/
theorem of_read (h : env.Numbers good) (hzero : good .zero) {name : String} {value : Value}
    (hvalue : (env.read name).1 = .ok value) : value.Numbers good := by
  have hcell := cell?_lookup_self env name
  unfold Environment.read Environment.force at hvalue
  dsimp only at hvalue
  cases hforced : (env.lookup name).1.entry.source.force
      ((env.lookup name).2.forces.getD (env.lookup name).1.id 0 + 1) with
  | error failure =>
    rw [hforced] at hvalue
    cases hvalue
  | ok result =>
    rw [hforced] at hvalue
    obtain rfl := Except.ok.inj hvalue
    exact (h.lookup hzero name hcell hforced).boundTo name

end Numbers

/-- Evaluations keep properties of numbers that zero has. -/
theorem invariant_numbers (hzero : good .zero) : Invariant (Numbers good) (Value.Numbers good) where
  bind name h hvalue := h.bind name hvalue
  read name h := h.lookup hzero name
  value h hvalue := h.of_read hzero hvalue
  restore names hbefore h := h.restore_save hbefore names
  boundTo name hvalue := hvalue.boundTo name

end Environment

end Formula
