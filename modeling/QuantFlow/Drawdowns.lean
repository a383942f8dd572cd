/-
**The worst fall of a series.**

The loss from a value to a later one is the quotient of the two less one.  The worst of these losses
is found in one pass: it is enough to compare every value with the largest value so far.

Main definitions:

* `Change` — the relative change from a value of a series to itself or a later one;
* `runningMax`, `falls` — the largest value so far, and the fall from it;
* `Worst` — the least of all changes.

Main results:

* `worst_foldl_falls` — **the least fall from the running maximum is the worst change**;
* `Worst.eq_zero_iff` — it is zero exactly if the series never falls;
* `worst_map_mul_iff` — it does not depend on the unit;
* `Worst.cons_iff` — **what a value in front of a series adds to it**.
-/

import Mathlib.Algebra.Order.Field.Basic
import Mathlib.Order.Bounds.Basic
import Mathlib.Tactic.Linarith

namespace Drawdown

/-! ### Least and largest elements of a list -/

section Least

variable {α : Type} [LinearOrder α]

theorem foldl_min_le (xs : List α) (c : α) : xs.foldl min c ≤ c ∧ ∀ x ∈ xs, xs.foldl min c ≤ x := by
  induction xs generalizing c with
  | nil => exact ⟨le_rfl, fun x hx => absurd hx List.not_mem_nil⟩
  | cons y xs ih =>
    obtain ⟨hstart, hall⟩ := ih (min c y)
    refine ⟨hstart.trans (min_le_left c y), ?_⟩
    intro x hx
    rcases List.mem_cons.1 hx with rfl | hx
    · exact hstart.trans (min_le_right c x)
    · exact hall x hx

theorem foldl_min_mem (xs : List α) (c : α) : xs.foldl min c = c ∨ xs.foldl min c ∈ xs := by
  induction xs generalizing c with
  | nil => exact Or.inl rfl
  | cons y xs ih =>
    rcases ih (min c y) with h | h
    · rw [List.foldl_cons, h]
      rcases min_choice c y with hmin | hmin
      · exact Or.inl hmin
      · exact Or.inr (by rw [hmin]; exact List.mem_cons_self)
    · exact Or.inr (List.mem_cons_of_mem y h)

/-- A fold that starts from an element of the list ends with its least one. -/
theorem isLeast_foldl_min {xs : List α} {c : α} (hc : c ∈ xs) :
    IsLeast {x | x ∈ xs} (xs.foldl min c) := by
  refine ⟨?_, fun x hx => (foldl_min_le xs c).2 x hx⟩
  rcases foldl_min_mem xs c with h | h
  · show xs.foldl min c ∈ xs
    rwa [h]
  · exact h

/-- The largest value so far, at every place. -/
def runningMax : List α → List α
  | [] => []
  | v :: vs => vs.scanl max v

/-- The running maximum at `j` is one of the values up to `j`, and none of them is larger. -/
theorem getElem?_runningMax {vs : List α} {j : ℕ} (hj : j < vs.length) :
    ∃ p, (runningMax vs)[j]? = some p ∧ (∃ i, i ≤ j ∧ vs[i]? = some p) ∧
      ∀ i a, i ≤ j → vs[i]? = some a → a ≤ p := by
  cases vs with
  | nil => simp at hj
  | cons v vs =>
    induction j with
    | zero =>
      refine ⟨v, by simp [runningMax], ⟨0, le_rfl, rfl⟩, ?_⟩
      intro i a hi ha
      obtain rfl : i = 0 := by omega
      exact (Option.some.inj ha).ge
    | succ j ih =>
      obtain ⟨p, hp, ⟨i, hi, hget⟩, hmax⟩ := ih (by omega)
      have hlast : j < vs.length := by simpa using hj
      refine ⟨max p vs[j], ?_, ?_, ?_⟩
      · rw [runningMax] at hp ⊢
        rw [List.getElem?_succ_scanl, hp, List.getElem?_eq_getElem hlast]
        rfl
      · rcases max_choice p vs[j] with h | h
        · exact ⟨i, by omega, by rw [h]; exact hget⟩
        · refine ⟨j + 1, le_rfl, ?_⟩
          rw [h, List.getElem?_cons_succ, List.getElem?_eq_getElem hlast]
      · intro i a hi ha
        rcases Nat.lt_or_eq_of_le hi with hlt | rfl
        · exact (hmax i a (by omega) ha).trans (le_max_left _ _)
        · rw [List.getElem?_cons_succ, List.getElem?_eq_getElem hlast] at ha
          exact (Option.some.inj ha).ge.trans (le_max_right _ _)

end Least

/-! ### Changes and falls -/

section Changes

variable {K : Type} [Field K]

/-- `x` is the relative change from a value to itself or a later one. -/
def Change (vs : List K) (x : K) : Prop :=
  ∃ (i j : ℕ) (a b : K), i ≤ j ∧ vs[i]? = some a ∧ vs[j]? = some b ∧ x = b / a - 1

/-- The changes of a series that begins with `v`. -/
theorem change_cons_iff (v : K) (vs : List K) (x : K) :
    Change (v :: vs) x ↔ (∃ b ∈ v :: vs, x = b / v - 1) ∨ Change vs x := by
  constructor
  · rintro ⟨i, j, a, b, hij, ha, hb, hx⟩
    cases i with
    | zero =>
      cases ha
      exact Or.inl ⟨b, List.mem_of_getElem? hb, hx⟩
    | succ i =>
      obtain ⟨k, rfl⟩ : ∃ k, j = k + 1 := ⟨j - 1, by omega⟩
      exact Or.inr ⟨i, k, a, b, by omega, ha, hb, hx⟩
  · rintro (⟨b, hb, hx⟩ | ⟨i, j, a, b, hij, ha, hb, hx⟩)
    · obtain ⟨j, hj⟩ := List.getElem?_of_mem hb
      exact ⟨0, j, v, b, Nat.zero_le j, rfl, hj, hx⟩
    · exact ⟨i + 1, j + 1, a, b, by omega, ha, hb, hx⟩

theorem change_map_mul_iff {c : K} (hc : c ≠ 0) (vs : List K) (x : K) :
    Change (vs.map (c * ·)) x ↔ Change vs x := by
  constructor
  · rintro ⟨i, j, a, b, hij, ha, hb, hx⟩
    rw [List.getElem?_map] at ha hb
    obtain ⟨a', ha', rfl⟩ := Option.map_eq_some_iff.1 ha
    obtain ⟨b', hb', rfl⟩ := Option.map_eq_some_iff.1 hb
    exact ⟨i, j, a', b', hij, ha', hb', by rw [hx, mul_div_mul_left _ _ hc]⟩
  · rintro ⟨i, j, a, b, hij, ha, hb, hx⟩
    refine ⟨i, j, c * a, c * b, hij, ?_, ?_, by rw [hx, mul_div_mul_left _ _ hc]⟩
    · rw [List.getElem?_map, ha, Option.map_some]
    · rw [List.getElem?_map, hb, Option.map_some]

theorem change_zero {vs : List K} {v : K} (hv : v ∈ vs) (hne : v ≠ 0) : Change vs 0 := by
  obtain ⟨i, hi⟩ := List.getElem?_of_mem hv
  exact ⟨i, i, v, v, le_rfl, hi, hi, by rw [div_self hne, sub_self]⟩

variable [LinearOrder K]

/-- The fall from the largest value so far, at every place. -/
def falls (vs : List K) : List K := List.zipWith (fun v p => v / p - 1) vs (runningMax vs)

/-- The least of all changes. -/
def Worst (vs : List K) (m : K) : Prop := IsLeast {x | Change vs x} m

theorem Worst.unique {vs : List K} {m m' : K} (h : Worst vs m) (h' : Worst vs m') : m = m' :=
  IsLeast.unique h h'

theorem worst_map_mul_iff {c : K} (hc : c ≠ 0) (vs : List K) (m : K) :
    Worst (vs.map (c * ·)) m ↔ Worst vs m := by
  simp only [Worst, change_map_mul_iff hc]

theorem mem_falls_iff {vs : List K} {x : K} :
    x ∈ falls vs ↔ ∃ (j : ℕ) (b p : K), vs[j]? = some b ∧ (runningMax vs)[j]? = some p ∧
      x = b / p - 1 := by
  rw [List.mem_iff_getElem?]
  simp only [falls, List.getElem?_zipWith_eq_some]
  constructor
  · rintro ⟨j, b, p, hb, hp, rfl⟩
    exact ⟨j, b, p, hb, hp, rfl⟩
  · rintro ⟨j, b, p, hb, hp, rfl⟩
    exact ⟨j, b, p, hb, hp, rfl⟩

theorem change_of_mem_falls {vs : List K} {x : K} (h : x ∈ falls vs) : Change vs x := by
  obtain ⟨j, b, p, hb, hp, rfl⟩ := mem_falls_iff.1 h
  obtain ⟨p', hp', ⟨i, hij, hi⟩, -⟩ := getElem?_runningMax (List.getElem?_eq_some_iff.1 hb).1
  obtain rfl : p = p' := Option.some.inj (hp.symm.trans hp')
  exact ⟨i, j, p, b, hij, hi, hb, rfl⟩

theorem zero_mem_falls {v : K} (hv : v ≠ 0) (vs : List K) : (0 : K) ∈ falls (v :: vs) := by
  refine mem_falls_iff.2 ⟨0, v, v, rfl, by simp [runningMax], ?_⟩
  rw [div_self hv, sub_self]

theorem Worst.nonpos {vs : List K} {m : K} (h : Worst vs m) (hpos : ∀ v ∈ vs, 0 < v) : m ≤ 0 := by
  obtain ⟨i, j, a, b, -, ha, -, -⟩ := h.1
  exact h.2 (change_zero (List.mem_of_getElem? ha) (hpos a (List.mem_of_getElem? ha)).ne')

/-- **A value in front of a series leaves the worst change as it is exactly if no change from that
value is worse.** -/
theorem Worst.cons_iff {vs : List K} {m : K} (h : Worst vs m) (hpos : ∀ v ∈ vs, 0 < v) {v : K}
    (hv : v ≠ 0) : Worst (v :: vs) m ↔ ∀ b ∈ vs, m ≤ b / v - 1 := by
  constructor
  · intro hcons b hb
    exact hcons.2 ((change_cons_iff v vs _).2 (Or.inl ⟨b, List.mem_cons_of_mem v hb, rfl⟩))
  · intro hall
    refine ⟨(change_cons_iff v vs m).2 (Or.inr h.1), ?_⟩
    intro x hx
    rcases (change_cons_iff v vs x).1 hx with ⟨b, hb, rfl⟩ | hx
    · rcases List.mem_cons.1 hb with rfl | hb
      · rw [div_self hv, sub_self]
        exact h.nonpos hpos
      · exact hall b hb
    · exact h.2 hx

variable [IsStrictOrderedRing K]

/-- No change is below the fall at its end: the running maximum is at least the earlier value. -/
theorem exists_fall_le {vs : List K} (hpos : ∀ v ∈ vs, 0 < v) {x : K} (h : Change vs x) :
    ∃ y ∈ falls vs, y ≤ x := by
  obtain ⟨i, j, a, b, hij, ha, hb, rfl⟩ := h
  obtain ⟨p, hp, -, hmax⟩ := getElem?_runningMax (List.getElem?_eq_some_iff.1 hb).1
  refine ⟨b / p - 1, mem_falls_iff.2 ⟨j, b, p, hb, hp, rfl⟩, ?_⟩
  have hle : b / p ≤ b / a :=
    div_le_div_of_nonneg_left (hpos b (List.mem_of_getElem? hb)).le
      (hpos a (List.mem_of_getElem? ha)) (hmax i a hij ha)
  linarith

/-- **The least fall from the running maximum is the worst change.** -/
theorem worst_foldl_falls {vs : List K} (hpos : ∀ v ∈ vs, 0 < v) {c : K} (hc : c ∈ falls vs) :
    Worst vs ((falls vs).foldl min c) := by
  obtain ⟨hmem, hleast⟩ := isLeast_foldl_min hc
  refine ⟨change_of_mem_falls hmem, ?_⟩
  intro x hx
  obtain ⟨y, hy, hyx⟩ := exists_fall_le hpos hx
  exact (hleast hy).trans hyx

theorem Worst.gt {vs : List K} {m : K} (h : Worst vs m) (hpos : ∀ v ∈ vs, 0 < v) : -1 < m := by
  obtain ⟨i, j, a, b, -, ha, hb, rfl⟩ := h.1
  have := div_pos (hpos b (List.mem_of_getElem? hb)) (hpos a (List.mem_of_getElem? ha))
  linarith

/-- **The worst change is zero exactly if the series never falls.** -/
theorem Worst.eq_zero_iff {vs : List K} {m : K} (h : Worst vs m) (hpos : ∀ v ∈ vs, 0 < v) :
    m = 0 ↔ vs.Pairwise (· ≤ ·) := by
  rw [List.pairwise_iff_getElem]
  constructor
  · intro hzero i j hi hj hij
    have hle : m ≤ vs[j] / vs[i] - 1 :=
      h.2 ⟨i, j, vs[i], vs[j], hij.le, List.getElem?_eq_getElem hi, List.getElem?_eq_getElem hj, rfl⟩
    have hratio : 1 ≤ vs[j] / vs[i] := by linarith
    rwa [one_le_div (hpos _ (List.getElem_mem hi))] at hratio
  · intro hpairs
    refine le_antisymm (h.nonpos hpos) ?_
    obtain ⟨i, j, a, b, hij, ha, hb, rfl⟩ := h.1
    obtain ⟨hi, rfl⟩ := List.getElem?_eq_some_iff.1 ha
    obtain ⟨hj, rfl⟩ := List.getElem?_eq_some_iff.1 hb
    have hle : vs[i] ≤ vs[j] := by
      rcases Nat.lt_or_eq_of_le hij with hlt | rfl
      · exact hpairs i j hi hj hlt
      · exact le_rfl
    have hratio : 1 ≤ vs[j] / vs[i] := (one_le_div (hpos _ (List.getElem_mem hi))).2 hle
    linarith

end Changes

end Drawdown
