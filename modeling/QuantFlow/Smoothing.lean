/-
**Values that are smoothed stay where the inputs are.**

A smoothed series carries a value along a list and moves it a fixed part of the way to each new
entry.  Every value it takes is a weighted mean of the entries read so far, so whatever interval
holds those holds the value: this needs no bound on the length of the list and no information on the
weights beyond that they lie between zero and one.

Main definitions:

* `blend` — the weighted mean of a new value and the one carried along;
* `smooth` — the values along a list.

Main results:

* `blend_mem_Icc` — one step does not leave an interval;
* `smooth_mem_Icc` — neither does a whole series;
* `getElem?_smooth_mem_Icc` — **and an entry depends on the inputs read so far only**.
-/

import Mathlib.Analysis.Convex.Basic

namespace Smoothing

variable {K : Type} [Field K] [LinearOrder K] [IsStrictOrderedRing K]

/-- The weighted mean of a new value `x` and the value `y` carried along. -/
def blend (k x y : K) : K := x * k + y * (1 - k)

/-- The values of a series that starts at `y`. -/
def smooth (k y : K) (xs : List K) : List K := xs.scanl (fun y x => blend k x y) y

variable {k a b x y : K} {xs : List K}

theorem blend_mem_Icc (hk : k ∈ Set.Icc 0 1) (hx : x ∈ Set.Icc a b) (hy : y ∈ Set.Icc a b) :
    blend k x y ∈ Set.Icc a b := by
  have hconvex := convex_Icc a b hx hy hk.1 (sub_nonneg.2 hk.2) (add_sub_cancel k 1)
  rwa [smul_eq_mul, smul_eq_mul, mul_comm k x, mul_comm (1 - k) y] at hconvex

theorem smooth_mem_Icc (hk : k ∈ Set.Icc 0 1) (hy : y ∈ Set.Icc a b)
    (hxs : ∀ x ∈ xs, x ∈ Set.Icc a b) : ∀ z ∈ smooth k y xs, z ∈ Set.Icc a b := by
  induction xs generalizing y with
  | nil =>
    intro z hz
    rw [smooth, List.scanl_nil, List.mem_singleton] at hz
    rwa [hz]
  | cons x xs ih =>
    intro z hz
    rw [smooth, List.scanl_cons] at hz
    rcases List.mem_cons.1 hz with rfl | hz
    · exact hy
    · have hnext := blend_mem_Icc hk (hxs x List.mem_cons_self) hy
      exact ih hnext (fun x' hx' => hxs x' (List.mem_cons_of_mem x hx')) z hz

/-- **An entry stays where the inputs read so far are.** -/
theorem getElem?_smooth_mem_Icc (hk : k ∈ Set.Icc 0 1) {i : ℕ} {z : K}
    (hread : ∀ x ∈ (y :: xs).take (i + 1), x ∈ Set.Icc a b)
    (hz : (smooth k y xs)[i]? = some z) : z ∈ Set.Icc a b := by
  rw [List.take_succ_cons, List.forall_mem_cons] at hread
  refine smooth_mem_Icc hk hread.1 hread.2 z ?_
  -- the first entries of the series are those of the first inputs
  rw [smooth, ← List.take_scanl]
  refine List.mem_of_getElem? (i := i) ?_
  rw [List.getElem?_take_of_lt (Nat.lt_succ_self i)]
  exact hz

end Smoothing
