/-
**Series of numbers that are weighted, compounded and compared step by step.**

A weighted mean with weights that are not negative lies above every bound that all its terms lie
above, and the running products of positive factors are positive.  The steps of a series are the
pairs of its neighbours; a series with at least one step is known from its steps, and cutting off the
front of a series cuts as many steps off the front.

Main definitions:

* `dot`, `normalize` — weighted sums, and weights of sum one;
* `cumprod` — running products;
* `steps` — the pairs of neighbours.

Main results:

* `lt_dot_normalize` — **a weighted mean lies above every bound of its terms**;
* `cumprod_pos` — running products of positive factors are positive;
* `steps_drop`, `steps_inj` — **series of the same steps are equal**.
-/

import Mathlib.Algebra.BigOperators.Group.List.Basic
import Mathlib.Algebra.BigOperators.Ring.List
import Mathlib.Algebra.Order.BigOperators.Group.List
import Mathlib.Algebra.Order.Field.Basic
import Mathlib.Tactic.FieldSimp
import Mathlib.Tactic.Linarith

namespace WeightedSeries

/-! ### Weights -/

section Weights

variable {K : Type} [Field K]

/-- The weighted sum. -/
def dot (w x : List K) : K := (List.zipWith (· * ·) w x).sum

/-- The weights, divided by their sum. -/
def normalize (w : List K) : List K := w.map (· / w.sum)

theorem sum_normalize {w : List K} (h : w.sum ≠ 0) : (normalize w).sum = 1 := by
  have hdiv : ∀ (c : K) (xs : List K), (xs.map (· / c)).sum = xs.sum / c := by
    intro c xs
    induction xs with
    | nil => simp
    | cons x xs ih => rw [List.map_cons, List.sum_cons, ih, List.sum_cons, add_div]
  rw [normalize, hdiv, div_self h]

theorem normalize_map_mul {k : K} (hk : k ≠ 0) (w : List K) :
    normalize (w.map (k * ·)) = normalize w := by
  rw [normalize, normalize, List.sum_map_mul_left, List.map_id', List.map_map]
  refine List.map_congr_left fun a _ => ?_
  exact mul_div_mul_left a _ hk

/-- Running products. -/
def cumprod (xs : List K) : List K := (xs.scanl (· * ·) 1).tail

theorem length_cumprod (xs : List K) : (cumprod xs).length = xs.length := by
  simp [cumprod]

variable [LinearOrder K] [IsStrictOrderedRing K]

theorem sum_pos_of_pos {w : List K} (hne : w ≠ []) (hw : ∀ a ∈ w, 0 < a) : 0 < w.sum := by
  induction w with
  | nil => exact absurd rfl hne
  | cons a w ih =>
    have ha := hw a List.mem_cons_self
    rw [List.sum_cons]
    by_cases hrest : w = []
    · simpa [hrest] using ha
    · have := ih hrest fun b hb => hw b (List.mem_cons_of_mem a hb)
      linarith

theorem normalize_nonneg {w : List K} (hw : ∀ a ∈ w, 0 ≤ a) : ∀ a ∈ normalize w, 0 ≤ a := by
  intro a ha
  obtain ⟨b, hb, rfl⟩ := List.mem_map.1 ha
  exact div_nonneg (hw b hb) (List.sum_nonneg hw)

/-- A weighted sum of terms above a bound lies above the bound of all weights; strictly, as soon as
some weight counts. -/
theorem le_dot {w x : List K} {c : K} (hlength : w.length = x.length) (hw : ∀ a ∈ w, 0 ≤ a)
    (hx : ∀ b ∈ x, c < b) : c * w.sum ≤ dot w x ∧ (0 < w.sum → c * w.sum < dot w x) := by
  induction w generalizing x with
  | nil => simp [dot]
  | cons a w ih =>
    cases x with
    | nil => cases hlength
    | cons b x =>
      have ha := hw a List.mem_cons_self
      have hcb := hx b List.mem_cons_self
      obtain ⟨hle, hlt⟩ := ih (Nat.succ.inj hlength)
        (fun a' ha' => hw a' (List.mem_cons_of_mem a ha'))
        fun b' hb' => hx b' (List.mem_cons_of_mem b hb')
      have hterm : c * a ≤ a * b := by
        rw [mul_comm c a]
        exact mul_le_mul_of_nonneg_left hcb.le ha
      rw [List.sum_cons, mul_add, dot, List.zipWith_cons_cons, List.sum_cons]
      refine ⟨add_le_add hterm hle, ?_⟩
      intro hsum
      -- the weight that counts is the first one or one of the others
      rcases ha.eq_or_lt with hzero | hpos
      · rw [← hzero, zero_add] at hsum
        exact add_lt_add_of_le_of_lt hterm (hlt hsum)
      · refine add_lt_add_of_lt_of_le ?_ hle
        rw [mul_comm c a]
        exact mul_lt_mul_of_pos_left hcb hpos

/-- **A weighted mean lies above every bound of its terms.** -/
theorem lt_dot_normalize {w x : List K} {c : K} (hlength : w.length = x.length)
    (hw : ∀ a ∈ w, 0 ≤ a) (hsum : 0 < w.sum) (hx : ∀ b ∈ x, c < b) : c < dot (normalize w) x := by
  have hone := sum_normalize hsum.ne'
  have hlt : c * (normalize w).sum < dot (normalize w) x := by
    refine (le_dot ?_ (normalize_nonneg hw) hx).2 (by rw [hone]; exact one_pos)
    rw [normalize, List.length_map, hlength]
  rwa [hone, mul_one] at hlt

theorem scanl_mul_pos {xs : List K} {c : K} (hc : 0 < c) (hxs : ∀ x ∈ xs, 0 < x) :
    ∀ y ∈ xs.scanl (· * ·) c, 0 < y := by
  induction xs generalizing c with
  | nil =>
    intro y hy
    rw [List.scanl_nil, List.mem_singleton] at hy
    rwa [hy]
  | cons x xs ih =>
    intro y hy
    rw [List.scanl_cons, List.mem_cons] at hy
    rcases hy with rfl | hy
    · exact hc
    · exact ih (mul_pos hc (hxs x List.mem_cons_self))
        (fun x' hx' => hxs x' (List.mem_cons_of_mem x hx')) y hy

/-- Running products of positive factors are positive. -/
theorem cumprod_pos {xs : List K} (hxs : ∀ x ∈ xs, 0 < x) : ∀ y ∈ cumprod xs, 0 < y := by
  intro y hy
  exact scanl_mul_pos one_pos hxs y (List.mem_of_mem_tail hy)

end Weights

/-! ### Steps -/

section Steps

variable {α : Type}

/-- The pairs of neighbours. -/
def steps (xs : List α) : List (α × α) := xs.zip xs.tail

theorem length_steps (xs : List α) : (steps xs).length = xs.length - 1 := by
  simp [steps]

theorem steps_drop (xs : List α) (k : ℕ) : steps (xs.drop k) = (steps xs).drop k := by
  rw [steps, steps, List.zip_eq_zipWith, List.zip_eq_zipWith, List.drop_zipWith, List.tail_drop,
    List.drop_tail]

theorem map_snd_steps (xs : List α) : (steps xs).map Prod.snd = xs.tail := by
  refine List.map_snd_zip ?_
  simp

/-- **Series of the same steps are equal**, if they have any. -/
theorem steps_inj {xs ys : List α} (hxs : 2 ≤ xs.length) (hys : 2 ≤ ys.length)
    (h : steps xs = steps ys) : xs = ys := by
  have htail : xs.tail = ys.tail := by
    rw [← map_snd_steps, ← map_snd_steps, h]
  match xs, ys, hxs, hys with
  | x :: x' :: xs, y :: y' :: ys, _, _ =>
    have hfirst : (x, x') = (y, y') := List.head_eq_of_cons_eq h
    rw [List.tail_cons, List.tail_cons] at htail
    rw [(Prod.mk.inj hfirst).1, htail]

end Steps

end WeightedSeries
