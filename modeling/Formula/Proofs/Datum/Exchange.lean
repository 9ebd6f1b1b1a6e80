import Formula.Datum
import Formula.Proofs.Decimal.Whole
import Formula.Proofs.Value.Order

/-! # Values and plain data

Nulls, texts, whole numbers and lists of them pass between expressions and hosts without loss. A value that
goes out and comes back is equal to what it was, though a whole number may come back in another spelling. A
datum that comes in and goes out again is the same datum.
-/
namespace Formula

inductive Value.Exchangeable : Value → Prop
  | null (binding : Option String) : Exchangeable (.null binding)
  | number {amount : Decimal} {n : ℤ} (unit : Option Denomination) (binding : Option String)
      (hvalue : amount.value = n) : Exchangeable (.number amount unit binding)
  | text (content : String) (binding : Option String) : Exchangeable (.text content binding)
  | list {items : List Value} (binding : Option String) (hitems : ∀ item ∈ items, Exchangeable item) :
      Exchangeable (.list items binding)

inductive Datum.Exchangeable : Datum → Prop
  | none : Exchangeable .none
  | int (n : ℤ) : Exchangeable (.int n)
  | text (s : String) : Exchangeable (.text s)
  | list {items : List Datum} (hitems : ∀ item ∈ items, Exchangeable item) : Exchangeable (.list items)

namespace Datum

/-- A whole number becomes an integer, which is read back to a number of the same value. -/
theorem exists_toValue_number {amount : Decimal} {n : ℤ} (unit : Option Denomination)
    (binding : Option String) (hvalue : amount.value = n) :
    ∃ w, (ofValue (.number amount unit binding)).toValue Option.none = .ok w ∧
      w.compare (.number amount unit binding) = .eq := by
  have hdatum : ofValue (.number amount unit binding) = .int n := by
    rw [ofValue, if_pos (Decimal.isIntegral_of_value hvalue), Decimal.truncate_of_intValue hvalue]
  refine ⟨.ofDecimal (.ofInt n), by rw [hdatum, toValue, ofNumber], ?_⟩
  have hsame : (Decimal.ofInt n).compare amount = .eq := by
    rw [Decimal.compare_eq, Decimal.value_ofInt, hvalue]
    exact compare_eq_iff_eq.mpr rfl
  exact hsame

/-- Lists go out and come back item by item. -/
theorem exists_toValues {items : List Value}
    (h : ∀ item ∈ items, ∃ w, (ofValue item).toValue Option.none = .ok w ∧ w.compare item = .eq) :
    ∃ values, toValues Option.none (ofValues items) = .ok values ∧ Value.compareItems values items = .eq := by
  induction items with
  | nil => exact ⟨[], rfl, rfl⟩
  | cons item items ih =>
    obtain ⟨hitem, hitems⟩ := List.forall_mem_cons.mp h
    obtain ⟨w, hw, hsame⟩ := hitem
    obtain ⟨values, hvalues, hrest⟩ := ih hitems
    refine ⟨w :: values, by rw [ofValues, toValues, hw, hvalues]; rfl, ?_⟩
    rw [Value.compareItems, hsame, hrest]
    rfl

theorem exists_toValue_equal {v : Value} (h : v.Exchangeable) :
    ∃ w, (ofValue v).toValue Option.none = .ok w ∧ w.compare v = .eq := by
  induction h with
  | null binding => exact ⟨.null Option.none, rfl, rfl⟩
  | number unit binding hvalue => exact exists_toValue_number unit binding hvalue
  | text content binding =>
    refine ⟨.text content Option.none, rfl, ?_⟩
    exact @Std.ReflCmp.compare_self _ Value.compareText _ _
  | list binding hitems ih =>
    obtain ⟨values, hvalues, hsame⟩ := exists_toValues ih
    exact ⟨.list values Option.none, by rw [ofValue, toValue, hvalues]; rfl, hsame⟩

theorem exists_ofValues {items : List Datum}
    (h : ∀ item ∈ items, ∃ v, item.toValue Option.none = .ok v ∧ ofValue v = item) :
    ∃ values, toValues Option.none items = .ok values ∧ ofValues values = items := by
  induction items with
  | nil => exact ⟨[], rfl, rfl⟩
  | cons item items ih =>
    obtain ⟨hitem, hitems⟩ := List.forall_mem_cons.mp h
    obtain ⟨v, hv, hback⟩ := hitem
    obtain ⟨values, hvalues, hrest⟩ := ih hitems
    exact ⟨v :: values, by rw [toValues, hv, hvalues]; rfl, by rw [ofValues, hback, hrest]⟩

theorem exists_toValue_back {d : Datum} (h : d.Exchangeable) :
    ∃ v, d.toValue Option.none = .ok v ∧ ofValue v = d := by
  induction h with
  | none => exact ⟨.null Option.none, rfl, rfl⟩
  | int n =>
    refine ⟨.ofDecimal (.ofInt n), rfl, ?_⟩
    have hvalue := Decimal.value_ofInt n
    rw [Value.ofDecimal, ofValue, if_pos (Decimal.isIntegral_of_value hvalue),
      Decimal.truncate_of_intValue hvalue]
  | text s => exact ⟨.text s Option.none, rfl, rfl⟩
  | list hitems ih =>
    obtain ⟨values, hvalues, hback⟩ := exists_ofValues ih
    exact ⟨.list values Option.none, by rw [toValue, hvalues]; rfl, by rw [ofValue, hback]⟩

end Datum

end Formula
