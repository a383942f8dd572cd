/-
**Sums over the entries of a list.**

Totals are often gathered from a list of records of which only some contribute: the value is
optional, or a condition selects the records.  Such a total is the sum over all records with zero
for those that do not contribute, and in this form two totals over one list can be compared entry by
entry.  A total of numbers that are not negative vanishes only when every entry does.

Main results:

* `sum_filterMap`, `sum_filter_map` — a total over some of the records as one over all of them;
* `sum_map_sub` — the difference of two totals;
* `sum_map_eq_zero_iff` — **when a total of non-negative entries vanishes**.
-/

import Mathlib.Algebra.Order.BigOperators.Group.List
import Mathlib.Tactic.Abel

namespace ListSums

variable {α K : Type*} (xs : List α)

section Monoid

variable [AddCommMonoid K]

theorem sum_filterMap (f : α → Option K) :
    (xs.filterMap f).sum = (xs.map fun a => (f a).getD 0).sum := by
  induction xs with
  | nil => rfl
  | cons a xs ih =>
    cases hf : f a with
    | none => simp [hf, ih]
    | some v => simp [hf, ih]

theorem sum_filter_map (p : α → Bool) (f : α → K) :
    ((xs.filter p).map f).sum = (xs.map fun a => if p a then f a else 0).sum := by
  induction xs with
  | nil => rfl
  | cons a xs ih =>
    cases hp : p a with
    | true => simp [hp, ih]
    | false => simp [hp, ih]

end Monoid

theorem sum_map_sub [AddCommGroup K] (f g : α → K) :
    (xs.map fun a => f a - g a).sum = (xs.map f).sum - (xs.map g).sum := by
  induction xs with
  | nil => simp
  | cons a xs ih =>
    simp only [List.map_cons, List.sum_cons, ih]
    abel

/-- A total of non-negative entries vanishes when each of them does. -/
theorem sum_map_eq_zero_iff [AddCommMonoid K] [PartialOrder K] [IsOrderedAddMonoid K] {f : α → K}
    (hf : ∀ a ∈ xs, 0 ≤ f a) : (xs.map f).sum = 0 ↔ ∀ a ∈ xs, f a = 0 := by
  constructor
  · intro hsum a ha
    refine List.all_zero_of_le_zero_le_of_sum_eq_zero ?_ hsum (List.mem_map_of_mem ha)
    intro x hx
    obtain ⟨b, hb, rfl⟩ := List.mem_map.1 hx
    exact hf b hb
  · intro hzero
    refine List.sum_eq_zero ?_
    intro x hx
    obtain ⟨b, hb, rfl⟩ := List.mem_map.1 hx
    exact hzero b hb

end ListSums
