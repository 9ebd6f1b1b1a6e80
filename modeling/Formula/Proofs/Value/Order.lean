import Formula.Evaluation
import Formula.Library.Collection
import Formula.Proofs.Decimal.Order

/-! # Values are ordered

The order of values is total and transitive, across kinds and through lists of any depth, and names make no
difference to it. The greatest and the least of some arguments are the first ones that no argument is above
or below.
-/
namespace Formula

theorem isLE_of_not_lt {α : Type} {cmp : α → α → Ordering} [Std.OrientedCmp cmp] {a b : α}
    (h : cmp a b ≠ .lt) : (cmp b a).isLE :=
  by_contra fun hgreater => h (Std.OrientedCmp.lt_of_not_isLE hgreater)

/-- Of two steps that do not go down the first that goes up decides. -/
theorem compare_then {α : Type} (cmp : α → α → Ordering) [Std.TransCmp cmp] {a b c : α}
    (hab : (cmp a b).isLE) (hbc : (cmp b c).isLE) : cmp a c = (cmp a b).then (cmp b c) := by
  cases hfirst : cmp a b with
  | lt => exact Std.TransCmp.lt_of_lt_of_isLE hfirst hbc
  | eq => exact Std.TransCmp.congr_left hfirst
  | gt => simp [hfirst] at hab

namespace Value

variable {a b c : Value}

theorem compare_of_rank_ne (h : a.rank ≠ b.rank) : compare a b = Ord.compare a.rank b.rank := by
  cases a <;> cases b <;> first | rfl | exact absurd rfl h

/-- Null comes before numbers, then texts, lists and host objects. -/
theorem compare_of_rank_lt (h : a.rank < b.rank) : compare a b = .lt := by
  rw [compare_of_rank_ne h.ne]
  exact compare_lt_iff_lt.mpr h

theorem rank_le_of_isLE (h : (compare a b).isLE) : a.rank ≤ b.rank := by
  by_contra hgreater
  have hless : b.rank < a.rank := Nat.lt_of_not_le hgreater
  rw [compare_of_rank_ne hless.ne', compare_gt_iff_gt.mpr hless] at h
  cases h

/-- A step to another kind is strict. -/
theorem then_of_rank_ne (h : a.rank ≠ b.rank ∨ b.rank ≠ c.rank) (hab : (compare a b).isLE)
    (hbc : (compare b c).isLE) : compare a c = (compare a b).then (compare b c) := by
  have hlow := rank_le_of_isLE hab
  have hhigh := rank_le_of_isLE hbc
  have hless : a.rank < c.rank := by omega
  rw [compare_of_rank_lt hless]
  by_cases hfirst : a.rank = b.rank
  · have hsecond : b.rank < c.rank := by omega
    rw [compare_of_rank_lt hsecond]
    cases hequal : compare a b with
    | lt | eq => rfl
    | gt => simp [hequal] at hab
  · have hstrict : a.rank < b.rank := by omega
    rw [compare_of_rank_lt hstrict]
    rfl

mutual
/-- Values compare as their sort keys do. -/
theorem compare_sortKey : (a b : Value) → a.sortKey.compare b.sortKey = compare a b
  | .null _, b => by cases b <;> rfl
  | .number x _ _, b => by
    cases b with
    | number y => exact Ordering.then_eq
    | _ => rfl
  | .text x _, b => by
    cases b with
    | text y => exact Ordering.then_eq
    | _ => rfl
  | .list items _, b => by
    cases b with
    | list others => exact Ordering.then_eq.trans (compareItems_sortKeys items others)
    | _ => rfl
  | .host x _, b => by
    cases b with
    | host y =>
      exact congrArg (compareText x.kind y.kind).then Ordering.then_eq
    | _ => rfl
theorem compareItems_sortKeys : (items others : List Value) →
    Key.compareAll (sortKeys items) (sortKeys others) = compareItems items others
  | [], [] | [], _ :: _ | _ :: _, [] => rfl
  | item :: items, other :: others => by
    rw [sortKeys, sortKeys, Key.compareAll, compare_sortKey item other,
      compareItems_sortKeys items others, compareItems]
end

def compareHost (a b : HostObject) : Ordering :=
  compareLex (compareOn HostObject.kind) (compareOn HostObject.text) a b

instance : Std.TransCmp compareHost :=
  inferInstanceAs (Std.TransCmp (compareLex (compareOn HostObject.kind) (compareOn HostObject.text)))

instance : Std.TransCmp compareText := inferInstanceAs (Std.TransOrd String)

mutual
theorem compare_swap : (a b : Value) → compare b a = (compare a b).swap
  | .null _, b => by cases b <;> rfl
  | .number x _ _, b => by
    cases b with
    | number y => exact @Std.OrientedCmp.eq_swap _ Decimal.compare _ _ _
    | _ => rfl
  | .text x _, b => by
    cases b with
    | text y => exact @Std.OrientedCmp.eq_swap _ compareText _ _ _
    | _ => rfl
  | .list items _, b => by
    cases b with
    | list others => exact compareItems_swap items others
    | _ => rfl
  | .host x _, b => by
    cases b with
    | host y => exact @Std.OrientedCmp.eq_swap _ compareHost _ _ _
    | _ => rfl
theorem compareItems_swap : (items others : List Value) →
    compareItems others items = (compareItems items others).swap
  | [], [] | [], _ :: _ | _ :: _, [] => rfl
  | item :: items, other :: others => by
    simp only [compareItems, Ordering.swap_then]
    rw [compare_swap item other, compareItems_swap items others]
end

mutual
theorem compare_then_compare : (a b c : Value) → (compare a b).isLE → (compare b c).isLE →
    compare a c = (compare a b).then (compare b c)
  | .null _, b, c => fun hab hbc => by
    cases b with
    | null =>
      cases c with
      | null => rfl
      | _ => exact then_of_rank_ne (.inr (by simp [rank])) hab hbc
    | _ => exact then_of_rank_ne (.inl (by simp [rank])) hab hbc
  | .number x _ _, b, c => fun hab hbc => by
    cases b with
    | number y =>
      cases c with
      | number z => exact compare_then Decimal.compare hab hbc
      | _ => exact then_of_rank_ne (.inr (by simp [rank])) hab hbc
    | _ => exact then_of_rank_ne (.inl (by simp [rank])) hab hbc
  | .text x _, b, c => fun hab hbc => by
    cases b with
    | text y =>
      cases c with
      | text z => exact compare_then compareText hab hbc
      | _ => exact then_of_rank_ne (.inr (by simp [rank])) hab hbc
    | _ => exact then_of_rank_ne (.inl (by simp [rank])) hab hbc
  | .list first _, b, c => fun hab hbc => by
    cases b with
    | list second =>
      cases c with
      | list third => exact compareItems_then first second third hab hbc
      | _ => exact then_of_rank_ne (.inr (by simp [rank])) hab hbc
    | _ => exact then_of_rank_ne (.inl (by simp [rank])) hab hbc
  | .host x _, b, c => fun hab hbc => by
    cases b with
    | host y =>
      cases c with
      | host z => exact compare_then compareHost hab hbc
      | _ => exact then_of_rank_ne (.inr (by simp [rank])) hab hbc
    | _ => exact then_of_rank_ne (.inl (by simp [rank])) hab hbc
theorem compareItems_then : (first second third : List Value) → (compareItems first second).isLE →
    (compareItems second third).isLE →
      compareItems first third = (compareItems first second).then (compareItems second third)
  | [], [], third => fun _ _ => rfl
  | [], _ :: _, [] => fun _ hbc => by cases hbc
  | [], _ :: _, _ :: _ => fun _ _ => rfl
  | _ :: _, [], _ => fun hab _ => by cases hab
  | _ :: _, _ :: _, [] => fun _ hbc => by cases hbc
  | a :: first, b :: second, c :: third => fun hab hbc => by
    simp only [compareItems] at hab hbc ⊢
    have hhead := compare_then_compare a b c (Ordering.isLE_left_of_isLE_then hab)
      (Ordering.isLE_left_of_isLE_then hbc)
    rw [hhead]
    -- The rests matter only while the heads are equal.
    obtain hless | ⟨hequal, hfirst⟩ := Ordering.isLE_then_iff_or.mp hab
    · rw [hless]
      rfl
    · rw [hequal]
      obtain hless | ⟨hequal, hsecond⟩ := Ordering.isLE_then_iff_or.mp hbc
      · rw [hless]
        cases hrest : compareItems first second with
        | lt | eq => rfl
        | gt => simp [hrest] at hfirst
      · rw [hequal]
        exact compareItems_then first second third hfirst hsecond
end

instance : Std.TransCmp compare where
  eq_swap {a b} := compare_swap b a
  isLE_trans {a b c} hab hbc := by
    rw [compare_then_compare a b c hab hbc]
    cases hfirst : compare a b with
    | lt => rfl
    | eq => exact hbc
    | gt => simp [hfirst] at hab

theorem compareItems_eq (items others : List Value) :
    compareItems items others = List.compareLex compare items others := by
  induction items generalizing others with
  | nil => cases others <;> rfl
  | cons item items ih =>
    cases others with
    | nil => rfl
    | cons other others => rw [compareItems, List.compareLex_cons_cons, ih]

mutual
def unbound : Value → Value
  | .null _ => .null none
  | .number amount unit _ => .number amount unit none
  | .text content _ => .text content none
  | .list items _ => .list (unboundItems items) none
  | .host object _ => .host object none
def unboundItems : List Value → List Value
  | [] => []
  | item :: items => item.unbound :: unboundItems items
end

mutual
/-- Names make no difference to the order. -/
theorem compare_unbound : (a b : Value) → compare a.unbound b.unbound = compare a b
  | .null _, b | .number .., b | .text .., b | .host .., b => by cases b <;> rfl
  | .list items _, b => by
    cases b with
    | list others => exact compareItems_unbound items others
    | _ => rfl
theorem compareItems_unbound : (items others : List Value) →
    compareItems (unboundItems items) (unboundItems others) = compareItems items others
  | [], [] | [], _ :: _ | _ :: _, [] => rfl
  | item :: items, other :: others => by
    simp only [unboundItems, compareItems]
    rw [compare_unbound item other, compareItems_unbound items others]
end

end Value

section Extremes

variable {α : Type} (cmp : α → α → Ordering)

def topmost (best : α) : List α → α
  | [] => best
  | value :: values => topmost (if cmp best value = .lt then value else best) values

variable [Std.TransCmp cmp]

theorem isLE_topmost (best : α) (values : List α) :
    ∀ value ∈ best :: values, (cmp value (topmost cmp best values)).isLE := by
  induction values generalizing best with
  | nil => simp [topmost, Std.ReflCmp.isLE_rfl]
  | cons next values ih =>
    rw [topmost]
    split
    next hless =>
      obtain ⟨hnext, hvalues⟩ := List.forall_mem_cons.mp (ih next)
      have hbest := Std.TransCmp.isLE_trans (Ordering.isLE_of_eq_lt hless) hnext
      exact List.forall_mem_cons.mpr ⟨hbest, List.forall_mem_cons.mpr ⟨hnext, hvalues⟩⟩
    next hless =>
      obtain ⟨hbest, hvalues⟩ := List.forall_mem_cons.mp (ih best)
      have hnext := Std.TransCmp.isLE_trans (isLE_of_not_lt hless) hbest
      exact List.forall_mem_cons.mpr ⟨hbest, List.forall_mem_cons.mpr ⟨hnext, hvalues⟩⟩

/-- What stands before it is below it. -/
theorem exists_topmost_split (best : α) (values : List α) :
    ∃ before after, best :: values = before ++ topmost cmp best values :: after ∧
      ∀ value ∈ before, cmp value (topmost cmp best values) = .lt := by
  induction values generalizing best with
  | nil => exact ⟨[], [], rfl, nofun⟩
  | cons next values ih =>
    rw [topmost]
    split
    next hless =>
      obtain ⟨before, after, hsplit, hbefore⟩ := ih next
      have hbest := Std.TransCmp.lt_of_lt_of_isLE hless
        (isLE_topmost cmp next values next List.mem_cons_self)
      exact ⟨best :: before, after, by rw [hsplit, List.cons_append],
        List.forall_mem_cons.mpr ⟨hbest, hbefore⟩⟩
    next hless =>
      obtain ⟨_ | ⟨first, before⟩, after, hsplit, hbefore⟩ := ih best
      · obtain ⟨hbest, -⟩ := List.cons.inj hsplit
        exact ⟨[], next :: values, congrArg (· :: next :: values) hbest, nofun⟩
      · -- `best` is not the topmost, and `next` is not above it.
        obtain ⟨rfl, hvalues⟩ := List.cons.inj hsplit
        obtain ⟨hbest, hrest⟩ := List.forall_mem_cons.mp hbefore
        have hnext := Std.TransCmp.lt_of_isLE_of_lt (isLE_of_not_lt hless) hbest
        refine ⟨best :: next :: before, after, ?_, ?_⟩
        · exact congrArg (best :: next :: ·) hvalues
        · exact List.forall_mem_cons.mpr ⟨hbest, List.forall_mem_cons.mpr ⟨hnext, hrest⟩⟩

/-- It is the first element that none is above. -/
theorem find?_eq_topmost (best : α) (values : List α) :
    (best :: values).find? (fun value => (best :: values).all fun other => (cmp other value).isLE) =
      some (topmost cmp best values) := by
  obtain ⟨before, after, hsplit, hbefore⟩ := exists_topmost_split cmp best values
  have htop := isLE_topmost cmp best values
  refine List.find?_eq_some_iff_append.mpr ⟨by simpa using htop, before, after, hsplit, ?_⟩
  intro value hvalue
  have hmem : topmost cmp best values ∈ best :: values := by
    rw [hsplit]
    exact List.mem_append_right _ List.mem_cons_self
  rw [Bool.not_eq_true', List.all_eq_false]
  refine ⟨_, hmem, ?_⟩
  rw [Std.OrientedCmp.gt_of_lt (hbefore value hvalue)]
  exact Bool.false_ne_true

end Extremes

namespace Value

theorem greatest_eq_topmost (best : Value) (values : List Value) :
    greatest best values = topmost compare best values := by
  induction values generalizing best with
  | nil => rfl
  | cons value values ih => simp only [greatest, topmost, beq_iff_eq, ih]

theorem least_eq_topmost (best : Value) (values : List Value) :
    least best values = topmost (fun a b => compare b a) best values := by
  induction values generalizing best with
  | nil => rfl
  | cons value values ih => simp only [least, topmost, beq_iff_eq, ih]

end Value

end Formula
