/-! # Tables in insertion order

A table holds one entry a name. A new name goes to the end; a name that is there keeps its place when
its entry is replaced.
-/
namespace Formula

structure Table (α : Type) where
  entries : List (String × α)

namespace Table

variable {α : Type}

def empty : Table α := ⟨[]⟩

instance : Inhabited (Table α) := ⟨empty⟩

def find? (name : String) : List (String × α) → Option α
  | [] => none
  | (key, entry) :: rest => if key = name then some entry else find? name rest

/-- Replaces the entry of `name`, or adds it at the end. -/
def put (name : String) (entry : α) : List (String × α) → List (String × α)
  | [] => [(name, entry)]
  | (key, old) :: rest =>
    if key = name then (key, entry) :: rest else (key, old) :: put name entry rest

def get? (table : Table α) (name : String) : Option α := find? name table.entries

def contains (table : Table α) (name : String) : Bool := (table.get? name).isSome

def insert (table : Table α) (name : String) (entry : α) : Table α :=
  ⟨put name entry table.entries⟩

def erase (table : Table α) (name : String) : Table α :=
  ⟨table.entries.filter fun pair => pair.1 ≠ name⟩

def keys (table : Table α) : List String := table.entries.map (·.1)

def size (table : Table α) : Nat := table.entries.length

section Lookup

variable {name other : String} {entry : α}

theorem find?_put_self (name : String) (entry : α) (entries : List (String × α)) :
    find? name (put name entry entries) = some entry := by
  induction entries with
  | nil => simp [put, find?]
  | cons pair rest ih =>
    by_cases h : pair.1 = name
    · simp [put, find?, h]
    · simp [put, find?, h, ih]

theorem find?_put_of_ne (h : other ≠ name) (entry : α) (entries : List (String × α)) :
    find? other (put name entry entries) = find? other entries := by
  induction entries with
  | nil => simp [put, find?, h.symm]
  | cons pair rest ih =>
    by_cases hpair : pair.1 = name
    · simp [put, find?, hpair, h.symm]
    · simp [put, find?, hpair, ih]

theorem find?_filter_self (name : String) (entries : List (String × α)) :
    find? name (entries.filter fun pair => pair.1 ≠ name) = none := by
  induction entries with
  | nil => rfl
  | cons pair rest ih =>
    by_cases h : pair.1 = name
    · simpa [h] using ih
    · simpa [h, find?] using ih

theorem find?_filter_of_ne (h : other ≠ name) (entries : List (String × α)) :
    find? other (entries.filter fun pair => pair.1 ≠ name) = find? other entries := by
  induction entries with
  | nil => rfl
  | cons pair rest ih =>
    by_cases hpair : pair.1 = name
    · have hother : pair.1 ≠ other := fun heq => h (heq.symm.trans hpair)
      simpa [hpair, find?, hother, h.symm] using ih
    · by_cases hother : pair.1 = other
      · simp [find?, hother, h]
      · simpa [hpair, find?, hother] using ih

@[simp] theorem get?_insert_self (table : Table α) (name : String) (entry : α) :
    (table.insert name entry).get? name = some entry := find?_put_self name entry _

theorem get?_insert_of_ne (h : other ≠ name) (table : Table α) (entry : α) :
    (table.insert name entry).get? other = table.get? other := find?_put_of_ne h entry _

@[simp] theorem get?_erase_self (table : Table α) (name : String) :
    (table.erase name).get? name = none := find?_filter_self name _

theorem get?_erase_of_ne (h : other ≠ name) (table : Table α) :
    (table.erase name).get? other = table.get? other := find?_filter_of_ne h _

theorem mem_of_get? {table : Table α} (h : table.get? name = some entry) :
    (name, entry) ∈ table.entries := by
  obtain ⟨entries⟩ := table
  change find? name entries = some entry at h
  induction entries with
  | nil => cases h
  | cons pair rest ih =>
    obtain ⟨key, old⟩ := pair
    by_cases hkey : key = name
    · rw [find?, if_pos hkey] at h
      obtain rfl := Option.some.inj h
      exact hkey ▸ List.mem_cons_self
    · rw [find?, if_neg hkey] at h
      exact List.mem_cons_of_mem _ (ih h)

end Lookup

end Table

end Formula
