import Formula.Proofs.Environment.Restoration
import Formula.Proofs.Registry.Reachable
import Mathlib.Data.List.Nodup

/-! # Keys of operators

A table has one entry for each name. An operator stands under its own key, and the key of a unary operator is
that of no binary one.
-/
namespace Formula

namespace Table

variable {α : Type} {name : String} {entry : α}

theorem mem_keys_put (name : String) (entry : α) (entries : List (String × α)) {key : String} :
    key ∈ (put name entry entries).map (·.1) ↔ key = name ∨ key ∈ entries.map (·.1) := by
  induction entries with
  | nil => simp [put]
  | cons pair rest ih =>
    obtain ⟨other, old⟩ := pair
    rw [put]
    split
    next hsame => simp [hsame]
    next => simp only [List.map_cons, List.mem_cons, ih, or_left_comm]

/-- No name gets a second entry. -/
theorem nodup_keys_put {entries : List (String × α)} (h : (entries.map (·.1)).Nodup) :
    ((put name entry entries).map (·.1)).Nodup := by
  induction entries with
  | nil => simp [put]
  | cons pair rest ih =>
    obtain ⟨other, old⟩ := pair
    obtain ⟨hother, hrest⟩ := List.nodup_cons.mp h
    rw [put]
    split
    next => exact List.nodup_cons.mpr ⟨hother, hrest⟩
    next hne =>
      refine List.nodup_cons.mpr ⟨?_, ih hrest⟩
      rw [mem_keys_put]
      exact not_or.mpr ⟨hne, hother⟩

theorem nodup_keys_insert {table : Table α} (h : table.keys.Nodup) : (table.insert name entry).keys.Nodup :=
  nodup_keys_put h

theorem find?_of_mem {entries : List (String × α)} (h : (entries.map (·.1)).Nodup)
    (hmem : (name, entry) ∈ entries) : find? name entries = some entry := by
  induction entries with
  | nil => cases hmem
  | cons pair rest ih =>
    obtain ⟨hother, hrest⟩ := List.nodup_cons.mp h
    rcases List.mem_cons.mp hmem with rfl | hlater
    · rw [find?, if_pos rfl]
    · have hne : pair.1 ≠ name := fun heq => hother (List.mem_map.mpr ⟨_, hlater, heq.symm⟩)
      rw [find?, if_neg hne]
      exact ih hrest hlater

structure Sets (table next : Table α) (name : String) (entry : α) : Prop where
  entry : next.get? name = some entry
  others : next.erase name = table.erase name

theorem sets_insert (table : Table α) (name : String) (entry : α) :
    table.Sets (table.insert name entry) name entry :=
  ⟨get?_insert_self table name entry, erase_insert table name entry⟩

end Table

namespace Registry

variable {registry : Registry}

/-- No two operators have one key. -/
theorem Reachable.nodup_keys (h : Reachable registry) : registry.operators.keys.Nodup := by
  induction h with
  | empty => exact List.nodup_nil
  | standard => decide +kernel
  | register _ hnext ih =>
    obtain ⟨-, ⟨op, -, -, rfl⟩ | ⟨_, _, -, rfl⟩ | ⟨_, _, rfl⟩⟩ := register_inversion hnext
    · exact Table.nodup_keys_insert ih
    · exact ih
    · exact ih
  | freeze _ ih => exact ih
  | copy _ ih => exact ih

theorem Reachable.filed (h : Reachable registry) {pair : String × Operator}
    (hpair : pair ∈ registry.operators.entries) : pair.1 = pair.2.key ∧ isSymbol pair.2.symbol = true :=
  h.keyed pair.1 pair.2 (Table.find?_of_mem h.nodup_keys hpair)

/-- A marked key is no symbol. -/
theorem key_ne_key {op other : Operator} (hsymbol : isSymbol op.symbol = true)
    (hother : isSymbol other.symbol = true) (hkind : op.unary ≠ other.unary) : op.key ≠ other.key := by
  have hmarked {plain marked : String} (hplain : isSymbol plain = true) : plain ≠ marked ++ unaryMark := by
    rintro rfl
    refine mark_not_mem hplain ?_
    rw [String.toList_append]
    exact List.mem_append_right _ List.mem_cons_self
  unfold Operator.key
  cases hunary : op.unary with
  | true =>
    cases hsecond : other.unary with
    | true => exact absurd (hunary.trans hsecond.symm) hkind
    | false => exact (hmarked hother).symm
  | false =>
    cases hsecond : other.unary with
    | true => exact hmarked hsymbol
    | false => exact absurd (hunary.trans hsecond.symm) hkind

end Registry

end Formula
