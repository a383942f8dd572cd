/-
**Covariance of series, and the variance of their weighted sum.**

The rows of a table are series of one length.  Weights combine the rows to one series.  The
covariances of the rows, taken pair by pair and weighted on both sides, are the variance of that
series: the deviations from the mean are combined by the same weights, and the weighted sum of inner
products is the inner product with the weighted sum.

Main definitions:

* `covariance`, `matrix` — with the divisor `n - 1`;
* `combine` — the weighted sum of the rows;
* `quadratic` — the covariances, weighted on both sides.

Main results:

* `dot_combine` — **an inner product with the weighted sum is the weighted sum of the
  inner products**;
* `quadratic_eq_covariance` — **the weighted covariances are the variance of the weighted sum**;
* `sum_contributions` — the shares of the rows in a positive variance sum to one;
* `sq_covariance_le` — **a covariance is bounded by the two variances**.
-/

import Mathlib.Algebra.QuadraticDiscriminant
import Mathlib.Data.List.GetD
import Mathlib.Tactic.Ring
import QuantFlow.WeightedSeries

namespace SampleCovariance

open WeightedSeries (dot)

variable {K : Type} [Field K]

/-! ### Inner products -/

section Dot

theorem dot_cons (a b : K) (w x : List K) : dot (a :: w) (b :: x) = a * b + dot w x := by
  rw [dot, List.zipWith_cons_cons, List.sum_cons]
  rfl

@[simp] theorem dot_nil_left (x : List K) : dot [] x = 0 := by simp [dot]

@[simp] theorem dot_nil_right (w : List K) : dot w [] = 0 := by simp [dot]

theorem dot_comm (w x : List K) : dot w x = dot x w := by
  rw [dot, dot, List.zipWith_comm]
  simp only [mul_comm]

theorem dot_map_sub {α : Type} (f g : α → K) (w : List K) (xs : List α) :
    dot w (xs.map fun x => f x - g x) = dot w (xs.map f) - dot w (xs.map g) := by
  induction xs generalizing w with
  | nil => simp
  | cons x xs ih =>
    cases w with
    | nil => simp
    | cons a w =>
      rw [List.map_cons, List.map_cons, List.map_cons, dot_cons, dot_cons, dot_cons, ih]
      ring

theorem dot_map_div {α : Type} (f : α → K) (c : K) (w : List K) (xs : List α) :
    dot w (xs.map fun x => f x / c) = dot w (xs.map f) / c := by
  induction xs generalizing w with
  | nil => simp
  | cons x xs ih =>
    cases w with
    | nil => simp
    | cons a w =>
      rw [List.map_cons, List.map_cons, dot_cons, dot_cons, ih, add_div, mul_div_assoc]

theorem dot_replicate_one (x : List K) : dot x (List.replicate x.length 1) = x.sum := by
  induction x with
  | nil => simp
  | cons b x ih => rw [List.length_cons, List.replicate_succ, dot_cons, ih, mul_one, List.sum_cons]

theorem dot_replicate_zero (n : ℕ) (x : List K) : dot (List.replicate n 0) x = 0 := by
  induction n generalizing x with
  | zero => simp
  | succ n ih =>
    cases x with
    | nil => simp
    | cons b x => rw [List.replicate_succ, dot_cons, ih, zero_mul, add_zero]

theorem sum_zipWith_mul_div (c : K) (w x : List K) :
    (List.zipWith (fun a b => a * b / c) w x).sum = dot w x / c := by
  induction w generalizing x with
  | nil => simp
  | cons a w ih =>
    cases x with
    | nil => simp
    | cons b x => rw [List.zipWith_cons_cons, List.sum_cons, ih, dot_cons, add_div]

end Dot

/-! ### The weighted sum of rows -/

section Combine

/-- The weighted sum of the rows, `size` entries of it. -/
def combine (w : List K) (rows : List (List K)) (size : ℕ) : List K :=
  (List.range size).map fun j => dot w (rows.map fun row => row.getD j 0)

@[simp] theorem length_combine (w : List K) (rows : List (List K)) (size : ℕ) :
    (combine w rows size).length = size := by
  simp [combine]

theorem combine_cons (a : K) (w : List K) {row : List K} (rows : List (List K)) {size : ℕ}
    (hrow : row.length = size) :
    combine (a :: w) (row :: rows) size =
      List.zipWith (fun x y => a * x + y) row (combine w rows size) := by
  refine List.ext_getElem (by simp [hrow]) fun j hj hj' => ?_
  have hlt : j < row.length := by simpa [hrow] using hj
  simp only [combine, List.getElem_map, List.getElem_range, List.map_cons, dot_cons,
    List.getElem_zipWith, List.getD_eq_getElem _ _ hlt]

theorem dot_zipWith (a : K) {x y z : List K} (hx : x.length = z.length)
    (hy : y.length = z.length) :
    dot (List.zipWith (fun u v => a * u + v) x y) z = a * dot x z + dot y z := by
  induction z generalizing x y with
  | nil => simp
  | cons c z ih =>
    obtain ⟨u, x, rfl⟩ := List.exists_cons_of_length_eq_add_one hx
    obtain ⟨v, y, rfl⟩ := List.exists_cons_of_length_eq_add_one hy
    rw [List.zipWith_cons_cons, dot_cons, dot_cons, dot_cons, ih (Nat.succ.inj hx) (Nat.succ.inj hy)]
    ring

theorem dot_combine_nil (w : List K) (size : ℕ) (y : List K) : dot (combine w [] size) y = 0 := by
  have hzero : combine w [] size = List.replicate size 0 := by simp [combine, List.map_const']
  rw [hzero, dot_replicate_zero]

/-- **An inner product with the weighted sum is the weighted sum of the inner products.** -/
theorem dot_combine (w : List K) {rows : List (List K)} {size : ℕ}
    (hrows : ∀ row ∈ rows, row.length = size) {y : List K} (hy : y.length = size) :
    dot (combine w rows size) y = dot w (rows.map fun row => dot row y) := by
  induction rows generalizing w with
  | nil => rw [dot_combine_nil, List.map_nil, dot_nil_right]
  | cons row rows ih =>
    cases w with
    | nil =>
      have hnil : combine ([] : List K) (row :: rows) size = combine ([] : List K) [] size := by
        simp [combine]
      rw [hnil, dot_combine_nil, dot_nil_left]
    | cons a w =>
      have hrow := hrows row List.mem_cons_self
      rw [combine_cons a w rows hrow, dot_zipWith a (hrow.trans hy.symm) (by simp [hy]),
        ih w fun row' hrow' => hrows row' (List.mem_cons_of_mem row hrow'), List.map_cons,
        dot_cons]

theorem sum_combine (w : List K) {rows : List (List K)} {size : ℕ}
    (hrows : ∀ row ∈ rows, row.length = size) :
    (combine w rows size).sum = dot w (rows.map List.sum) := by
  have hones := dot_replicate_one (combine w rows size)
  rw [length_combine, dot_combine w hrows List.length_replicate] at hones
  rw [← hones]
  congr 1
  refine List.map_congr_left fun row hrow => ?_
  rw [← dot_replicate_one row, hrows row hrow]

end Combine

/-! ### Covariance -/

section Covariance

def mean (xs : List K) : K := xs.sum / xs.length

/-- The deviations from the mean. -/
def center (xs : List K) : List K := xs.map (· - mean xs)

/-- The covariance of two series of one length. -/
def covariance (a b : List K) : K :=
  (List.zipWith (fun x y => (x - mean a) * (y - mean b)) a b).sum / (a.length - 1)

/-- The covariances of all pairs of rows. -/
def matrix (rows : List (List K)) : List (List K) := rows.map fun a => rows.map (covariance a)

/-- The covariances, weighted on both sides. -/
def quadratic (w : List K) (rows : List (List K)) : K :=
  dot (combine w (matrix rows) w.length) w

theorem covariance_eq_dot (a b : List K) :
    covariance a b = dot (center a) (center b) / (a.length - 1) := by
  rw [covariance, dot, center, center, List.zipWith_map]

@[simp] theorem length_center (xs : List K) : (center xs).length = xs.length := by simp [center]

theorem length_row_center {rows : List (List K)} {size : ℕ}
    (hrows : ∀ row ∈ rows, row.length = size) : ∀ row ∈ rows.map center, row.length = size := by
  intro row hrow
  obtain ⟨b, hb, rfl⟩ := List.mem_map.1 hrow
  rw [length_center, hrows b hb]

theorem mean_combine (w : List K) {rows : List (List K)} {size : ℕ}
    (hrows : ∀ row ∈ rows, row.length = size) :
    mean (combine w rows size) = dot w (rows.map mean) := by
  have hmeans : rows.map mean = rows.map fun row => row.sum / (size : K) := by
    refine List.map_congr_left fun row hrow => ?_
    rw [mean, hrows row hrow]
  rw [mean, sum_combine w hrows, length_combine, hmeans, dot_map_div]

/-- The deviations of the weighted sum are the weighted sum of the deviations. -/
theorem center_combine (w : List K) {rows : List (List K)} {size : ℕ}
    (hrows : ∀ row ∈ rows, row.length = size) :
    center (combine w rows size) = combine w (rows.map center) size := by
  refine List.ext_getElem (by simp) fun j hj hj' => ?_
  have hlt : j < size := by simpa using hj
  have hcolumn : ((rows.map center).map fun row => row.getD j 0) =
      rows.map fun row => row.getD j 0 - mean row := by
    rw [List.map_map]
    refine List.map_congr_left fun row hrow => ?_
    have hrow' : j < row.length := hrows row hrow ▸ hlt
    rw [Function.comp_apply, List.getD_eq_getElem _ _ (by simpa using hrow'),
      List.getD_eq_getElem _ _ hrow']
    simp [center]
  have hright : (combine w (rows.map center) size)[j] =
      dot w ((rows.map center).map fun row => row.getD j 0) := by simp [combine]
  have hleft : (center (combine w rows size))[j] =
      dot w (rows.map fun row => row.getD j 0) - mean (combine w rows size) := by
    simp [center, combine]
  rw [hleft, hright, hcolumn, dot_map_sub, mean_combine w hrows]

theorem length_row_matrix (rows : List (List K)) : ∀ row ∈ matrix rows, row.length = rows.length := by
  intro row hrow
  obtain ⟨a, -, rfl⟩ := List.mem_map.1 hrow
  exact List.length_map _

/-- The weighted covariances as a weighted sum over the rows. -/
theorem quadratic_eq_dot {w : List K} {rows : List (List K)} (hw : w.length = rows.length) :
    quadratic w rows = dot w ((matrix rows).map fun row => dot row w) := by
  rw [quadratic]
  refine dot_combine w ?_ rfl
  intro row hrow
  rw [length_row_matrix rows row hrow, hw]

/-- The covariance of one row with the weighted sum. -/
theorem dot_covariances (w : List K) {rows : List (List K)} {size : ℕ}
    (hrows : ∀ row ∈ rows, row.length = size) {a : List K} (ha : a.length = size) :
    dot (rows.map (covariance a)) w =
      dot (center a) (center (combine w rows size)) / (size - 1) := by
  have hentries : rows.map (covariance a) =
      rows.map fun b => dot (center b) (center a) / ((size : K) - 1) := by
    refine List.map_congr_left fun b _ => ?_
    rw [covariance_eq_dot, ha, dot_comm]
  rw [hentries, dot_comm, dot_map_div, center_combine w hrows, dot_comm (center a),
    dot_combine w (length_row_center hrows) (by simp [ha]), List.map_map]
  rfl

/-- **The weighted covariances are the variance of the weighted sum.** -/
theorem quadratic_eq_covariance {w : List K} {rows : List (List K)} {size : ℕ}
    (hw : w.length = rows.length) (hrows : ∀ row ∈ rows, row.length = size) :
    quadratic w rows = covariance (combine w rows size) (combine w rows size) := by
  have hmarginal : ((matrix rows).map fun row => dot row w) =
      rows.map fun a => dot (center a) (center (combine w rows size)) / ((size : K) - 1) := by
    rw [matrix, List.map_map]
    exact List.map_congr_left fun a ha => dot_covariances w hrows (hrows a ha)
  rw [quadratic_eq_dot hw, hmarginal, dot_map_div, covariance_eq_dot, length_combine]
  congr 1
  calc dot w (rows.map fun a => dot (center a) (center (combine w rows size)))
      = dot w ((rows.map center).map fun a => dot a (center (combine w rows size))) := by
        rw [List.map_map]
        rfl
    _ = dot (combine w (rows.map center) size) (center (combine w rows size)) :=
        (dot_combine w (length_row_center hrows) (by simp)).symm
    _ = dot (center (combine w rows size)) (center (combine w rows size)) := by
        rw [center_combine w hrows]

/-- The shares of the rows in a variance that is not zero sum to one. -/
theorem sum_contributions {w : List K} {rows : List (List K)} (hw : w.length = rows.length)
    (hne : quadratic w rows ≠ 0) :
    (List.zipWith (fun a b => a * b / quadratic w rows) w
      ((matrix rows).map fun row => dot row w)).sum = 1 := by
  rw [sum_zipWith_mul_div, ← quadratic_eq_dot hw, div_self hne]

variable [LinearOrder K] [IsStrictOrderedRing K]

theorem dot_self_nonneg (x : List K) : 0 ≤ dot x x := by
  refine List.sum_nonneg fun y hy => ?_
  rw [List.zipWith_self] at hy
  obtain ⟨b, -, rfl⟩ := List.mem_map.1 hy
  exact mul_self_nonneg b

theorem covariance_self_nonneg {a : List K} (h : 1 ≤ a.length) : 0 ≤ covariance a a := by
  have hlength : (0 : K) ≤ a.length - 1 := by
    rw [sub_nonneg]
    exact_mod_cast h
  rw [covariance_eq_dot]
  exact div_nonneg (dot_self_nonneg _) hlength

/-- **Cauchy and Schwarz.** -/
theorem sq_dot_le {x y : List K} (h : x.length = y.length) :
    dot x y ^ 2 ≤ dot x x * dot y y := by
  -- the square of `t • x + y` is a polynomial in `t` that is nowhere negative
  have hquadratic (t : K) : 0 ≤ dot x x * (t * t) + 2 * dot x y * t + dot y y := by
    have hself := dot_self_nonneg (List.zipWith (fun u v => t * u + v) x y)
    have hlength : (List.zipWith (fun u v => t * u + v) x y).length = y.length := by simp [h]
    rw [dot_zipWith t (h.trans hlength.symm) hlength.symm, dot_comm x, dot_comm y,
      dot_zipWith t rfl h.symm, dot_zipWith t h rfl, dot_comm y x] at hself
    linarith
  have hdiscrim := discrim_le_zero hquadratic
  rw [discrim] at hdiscrim
  linarith

/-- A covariance is bounded by the two variances. -/
theorem sq_covariance_le {a b : List K} (h : a.length = b.length) :
    covariance a b ^ 2 ≤ covariance a a * covariance b b := by
  rw [covariance_eq_dot, covariance_eq_dot, covariance_eq_dot, ← h, div_pow, div_mul_div_comm, ← sq]
  exact div_le_div_of_nonneg_right (sq_dot_le (by simp [h])) (sq_nonneg _)

end Covariance

end SampleCovariance
