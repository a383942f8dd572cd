/-
**What the risk report says about a portfolio.**

`portfolio_risk` of `backend/app/risk/portfolio.py` weights the covariances of the funds' returns on
both sides and splits the result among the funds.  The variance it finds this way is the variance of
the portfolio's own returns, and the shares are shares: they sum to one.  The matrix of a single fund
is built by other code than that of several, and is the same matrix.

The alert that a single fund is above 50% is raised from the sum of the squared weights.  That sum
is at most the largest weight, so the alert is never raised without such a fund; but a fund above 50%
whose complement is spread over others does not raise it.

Main definitions:

* `covOf` — the covariance matrix, by the two branches of the source;
* `varianceOf`, `contributionsOf` — the two numbers before they are rounded.

Main results:

* `report_of_measurable` — the report of such weights and returns;
* `risk_decomposition` — **the decomposition of the risk is exact**;
* `concentration_alert_iff` — **when the alert says what it means**.
-/

import Mathlib.Tactic.LinearCombination
import QuantFlow.PortfolioRisk

namespace QuantFlow.PortfolioRisk

open Indicators (sumSq)
open Rebalance (Dict)
open SampleCovariance (covariance)
open WeightedSeries (dot)

variable {N : Numerics}

/-! ### The numbers before rounding -/

/-- `np.var(xs, ddof=1)`. -/
def varSample (xs : List ℚ) : ℚ := sumSq xs / (xs.length - 1)

/-- `np.cov(matrix) if len(codes) > 1 else np.asarray([[np.var(matrix[0], ddof=1)]])`. -/
def covOf (m : List (List ℚ)) : List (List ℚ) :=
  if 1 < m.length then covarianceMatrix m else [[varSample (m.headD [])]]

/-- `float(w @ cov @ w)`. -/
def varianceOf (w : List ℚ) (m : List (List ℚ)) : ℚ := dot (vecMul w (covOf m) w.length) w

/-- `w * marginal / variance if variance > 0 else np.zeros_like(w)`. -/
def contributionsOf (w : List ℚ) (m : List (List ℚ)) : List ℚ :=
  if 0 < varianceOf w m then
    List.zipWith (fun a b => a * b / varianceOf w m) w ((covOf m).map fun row => dot row w)
  else w.map fun _ => 0

/-- `w @ matrix`. -/
def returnsOf (w : List ℚ) (m : List (List ℚ)) : List ℚ := vecMul w m (commonSize m)

theorem covariance_self (a : List ℚ) : covariance a a = varSample a := by
  rw [covariance, varSample, List.zipWith_self]
  rfl

/-- **The two branches build the same matrix.** -/
theorem covOf_eq {m : List (List ℚ)} (hne : m ≠ []) : covOf m = covarianceMatrix m := by
  obtain ⟨a, rows, rfl⟩ := List.exists_cons_of_ne_nil hne
  cases rows with
  | nil =>
    rw [covOf, if_neg (by simp), List.headD_cons, ← covariance_self]
    rfl
  | cons b rows => exact if_pos (by simp)

/-! ### The report -/

section Report

variable {weights : Dict ℚ} {series : Dict (List ℚ)}

/-- **Measurable weights and returns have a report**, and what it says is rounded from the numbers
above. -/
theorem report_of_measurable (h : Measurable weights series) :
    ∃ r perf, portfolioRisk N weights series = .ok (.ok r) ∧
      Risk.calculateMetrics N (equity (weightVector weights series) (matrix weights series)) =
        some perf ∧
      r.volatility = N.round 6 (N.sqrt (max (varianceOf (weightVector weights series)
        (matrix weights series)) 0) * N.sqrt 252) ∧
      r.riskContribution = (commonCodes weights series).zip ((contributionsOf
        (weightVector weights series) (matrix weights series)).map (N.round 6)) ∧
      r.maxDrawdown = some perf.maxDrawdown ∧
      r.downsideVolatility = some perf.downsideVolatility := by
  obtain ⟨perf, hperf⟩ := h.metrics (N := N)
  have hvariance : varianceOf (weightVector weights series) (matrix weights series) =
      dot (vecMul (weightVector weights series) (covarianceMatrix (matrix weights series))
        (weightVector weights series).length) (weightVector weights series) := by
    rw [varianceOf, covOf_eq h.matrix_ne_nil]
  simp only [contributionsOf, hvariance, covOf_eq h.matrix_ne_nil]
  rw [h.portfolioRisk_eq, report]
  simp only [hperf, Option.map_some, buildAlerts]
  exact ⟨_, perf, rfl, rfl, rfl, rfl, rfl, rfl⟩

/-- The variance of the report is the sample variance of the portfolio's returns. -/
theorem Measurable.varianceOf_eq (h : Measurable weights series) :
    varianceOf (weightVector weights series) (matrix weights series) =
      varSample (returnsOf (weightVector weights series) (matrix weights series)) := by
  have hquadratic := SampleCovariance.quadratic_eq_covariance (length_weightVector_eq weights series)
    (length_row_matrix weights series)
  rw [← covariance_self, varianceOf, covOf_eq h.matrix_ne_nil, returnsOf, h.commonSize_matrix]
  exact hquadratic

theorem Measurable.variance_nonneg (h : Measurable weights series) :
    0 ≤ varianceOf (weightVector weights series) (matrix weights series) := by
  rw [h.varianceOf_eq, ← covariance_self]
  refine SampleCovariance.covariance_self_nonneg ?_
  rw [returnsOf, vecMul, SampleCovariance.length_combine, h.commonSize_matrix]
  exact le_trans (by decide) h.size

theorem Measurable.sum_contributions (h : Measurable weights series)
    (hpos : 0 < varianceOf (weightVector weights series) (matrix weights series)) :
    (contributionsOf (weightVector weights series) (matrix weights series)).sum = 1 := by
  rw [contributionsOf, if_pos hpos]
  rw [varianceOf, covOf_eq h.matrix_ne_nil] at hpos ⊢
  exact SampleCovariance.sum_contributions (length_weightVector_eq weights series) hpos.ne'

end Report

/-! ### Weights in another unit -/

section Scale

/-- The weights, multiplied by `k`. -/
def scaleWeights (k : ℚ) (weights : Dict ℚ) : Dict ℚ := weights.map fun p => (p.1, k * p.2)

theorem commonCodes_scaleWeights (k : ℚ) (weights : Dict ℚ) (series : Dict (List ℚ)) :
    commonCodes (scaleWeights k weights) series = commonCodes weights series := by
  rw [commonCodes, commonCodes, scaleWeights, List.map_map]
  rfl

theorem weightVector_scaleWeights {k : ℚ} (hk : k ≠ 0) (weights : Dict ℚ)
    (series : Dict (List ℚ)) :
    weightVector (scaleWeights k weights) series = weightVector weights series := by
  have hraw : ((commonCodes weights series).map fun c =>
      ((scaleWeights k weights).lookup c).getD 0) =
      (rawWeights weights series).map (k * ·) := by
    rw [rawWeights, List.map_map]
    refine List.map_congr_left fun c _ => ?_
    rw [scaleWeights, Dict.lookup_map, Function.comp_apply]
    cases weights.lookup c with
    | none => exact (mul_zero k).symm
    | some a => rfl
  rw [weightVector, commonCodes_scaleWeights, hraw, WeightedSeries.normalize_map_mul hk]
  rfl

theorem portfolioRisk_scaleWeights {k : ℚ} (hk : k ≠ 0) (weights : Dict ℚ)
    (series : Dict (List ℚ)) :
    portfolioRisk N (scaleWeights k weights) series = portfolioRisk N weights series := by
  simp only [portfolioRisk, matrix, commonCodes_scaleWeights, weightVector_scaleWeights hk]

end Scale

/-- **The decomposition of the risk is exact.**  The weighted covariances are the variance of the
portfolio's returns, so they are not negative; if they are positive, the contributions sum to one; and
only the proportions of the weights count. -/
theorem risk_decomposition {weights : Dict ℚ} {series : Dict (List ℚ)}
    (h : Measurable weights series) :
    let w := weightVector weights series
    let m := matrix weights series
    varianceOf w m = varSample (returnsOf w m) ∧ 0 ≤ varianceOf w m ∧
      (0 < varianceOf w m → (contributionsOf w m).sum = 1) ∧
      (∃ r, portfolioRisk N weights series = .ok (.ok r) ∧
        r.volatility = N.round 6 (N.sqrt (varianceOf w m) * N.sqrt 252) ∧
        r.riskContribution =
          (commonCodes weights series).zip ((contributionsOf w m).map (N.round 6))) ∧
      ∀ k, 0 < k → portfolioRisk N (weights.map fun p => (p.1, k * p.2)) series =
        portfolioRisk N weights series := by
  intro w m
  refine ⟨h.varianceOf_eq, h.variance_nonneg, h.sum_contributions, ?_, ?_⟩
  · obtain ⟨r, perf, hr, -, hvolatility, hcontribution, -⟩ := report_of_measurable (N := N) h
    rw [max_eq_left h.variance_nonneg] at hvolatility
    exact ⟨r, hr, hvolatility, hcontribution⟩
  · intro k hk
    exact portfolioRisk_scaleWeights hk.ne' weights series

/-- The weights and the returns of the test of `portfolio_risk`. -/
def twoWeights : Dict ℚ := [("A", 3 / 4), ("B", 1 / 4)]

def twoSeries : Dict (List ℚ) :=
  [("A", [1 / 100, -1 / 100, 2 / 100]), ("B", [5 / 1000, 0, -5 / 1000])]

theorem measurable_twoWeights : Measurable twoWeights twoSeries where
  nonneg := by decide +kernel
  positive := by decide +kernel
  returns := by decide +kernel
  size := by decide +kernel

theorem risk_decomposition_twoWeights :
    0 < varianceOf (weightVector twoWeights twoSeries) (matrix twoWeights twoSeries) ∧
      (contributionsOf (weightVector twoWeights twoSeries) (matrix twoWeights twoSeries)).sum = 1 ∧
      portfolioRisk .runnable (twoWeights.map fun p => (p.1, 10 * p.2)) twoSeries =
        portfolioRisk .runnable twoWeights twoSeries := by
  have hpos : 0 < varianceOf (weightVector twoWeights twoSeries) (matrix twoWeights twoSeries) := by
    decide +kernel
  obtain ⟨-, -, hsum, -, hscale⟩ := risk_decomposition (N := .runnable) measurable_twoWeights
  exact ⟨hpos, hsum hpos, hscale 10 (by norm_num)⟩

/-! ### The concentration alert -/

section Concentration

/-- The products of each two of the weights. -/
def crossProducts : List ℚ → ℚ
  | [] => 0
  | a :: w => a * w.sum + crossProducts w

theorem sum_sq_add_crossProducts (w : List ℚ) :
    (w.map (· ^ 2)).sum + 2 * crossProducts w = w.sum ^ 2 := by
  induction w with
  | nil => simp [crossProducts]
  | cons a w ih =>
    rw [List.map_cons, List.sum_cons, List.sum_cons, crossProducts]
    linear_combination ih

/-- The squares of one weight and of the others. -/
theorem sum_sq_eraseIdx {w : List ℚ} {i : ℕ} {a : ℚ} (hsum : w.sum = 1) (ha : w[i]? = some a) :
    (w.map (· ^ 2)).sum = 1 / 2 + 2 * ((a - 1 / 2) ^ 2 - crossProducts (w.eraseIdx i)) := by
  obtain ⟨hi, rfl⟩ := List.getElem?_eq_some_iff.1 ha
  have hperm := List.getElem_cons_eraseIdx_perm hi
  have hrest := hperm.sum_eq
  have hsquares := (hperm.map (· ^ 2)).sum_eq
  have hcross := sum_sq_add_crossProducts (w.eraseIdx i)
  rw [List.sum_cons, hsum] at hrest
  rw [List.map_cons, List.sum_cons] at hsquares
  have hothers : (w.eraseIdx i).sum = 1 - w[i] := by linarith
  rw [hothers] at hcross
  linear_combination hcross - hsquares

theorem dot_map_sub (w : List ℚ) (c : ℚ) :
    dot w (w.map (c - ·)) = c * w.sum - (w.map (· ^ 2)).sum := by
  induction w with
  | nil => simp [dot]
  | cons a w ih =>
    rw [dot] at ih
    rw [List.map_cons, dot, List.zipWith_cons_cons, List.sum_cons, ih, List.map_cons, List.sum_cons,
      List.sum_cons]
    ring

/-- The squares of weights below one half sum to less than one half. -/
theorem sum_sq_lt {w : List ℚ} (hw : ∀ a ∈ w, 0 ≤ a) (hsum : w.sum = 1)
    (hsmall : ∀ a ∈ w, a < 1 / 2) : (w.map (· ^ 2)).sum < 1 / 2 := by
  have hdot : 0 * w.sum < dot w (w.map (1 / 2 - ·)) := by
    refine (WeightedSeries.le_dot (List.length_map _).symm hw ?_).2 ?_
    · intro b hb
      obtain ⟨a, ha, rfl⟩ := List.mem_map.1 hb
      exact sub_pos.2 (hsmall a ha)
    · rw [hsum]
      exact one_pos
  rw [dot_map_sub, hsum] at hdot
  linarith

theorem normalize_of_sum_eq_one {w : List ℚ} (hsum : w.sum = 1) :
    WeightedSeries.normalize w = w := by
  simp [WeightedSeries.normalize, hsum]

variable {weights : Dict ℚ} {series : Dict (List ℚ)} {r : Report}

theorem mem_buildAlerts_iff {fall : Option ℚ} {volatility concentration : ℚ} {alerts : List Alert}
    (h : buildAlerts fall volatility concentration = .ok alerts) :
    Alert.concentration ∈ alerts ↔ 1 / 2 ≤ concentration := by
  cases fall with
  | none => cases h
  | some fall =>
    cases h
    simp

/-- The alert compares the sum of the squared weights. -/
theorem mem_alerts_iff (h : portfolioRisk N weights series = .ok (.ok r)) :
    Alert.concentration ∈ r.alerts ↔ 1 / 2 ≤ ((weightVector weights series).map (· ^ 2)).sum := by
  rw [portfolioRisk] at h
  split at h
  · cases h
  · rw [report] at h
    obtain ⟨alerts, halerts, hreport⟩ := except_bind_eq_ok.1 h
    cases hreport
    exact mem_buildAlerts_iff halerts

end Concentration

/-- **When the alert says what it means.**  It is never raised without a fund of one half or more; and
it is raised for such a fund of weight `a` exactly if the products of each two of the other weights
sum to at most `(a - 1 / 2) ^ 2`, so always if there is only one other fund. -/
theorem concentration_alert_iff {weights : Dict ℚ} {series : Dict (List ℚ)} {r : Report}
    (hnonneg : ∀ a ∈ rawWeights weights series, 0 ≤ a)
    (hsum : (rawWeights weights series).sum = 1)
    (h : portfolioRisk N weights series = .ok (.ok r)) :
    (Alert.concentration ∈ r.alerts → ∃ a ∈ rawWeights weights series, 1 / 2 ≤ a) ∧
      ((Alert.concentration ∈ r.alerts ↔ ∃ a ∈ rawWeights weights series, 1 / 2 ≤ a) ↔
        ∀ (i : ℕ) (a : ℚ), (rawWeights weights series)[i]? = some a → 1 / 2 ≤ a →
          crossProducts ((rawWeights weights series).eraseIdx i) ≤ (a - 1 / 2) ^ 2) := by
  have hvector : weightVector weights series = rawWeights weights series :=
    normalize_of_sum_eq_one hsum
  have halert := mem_alerts_iff h
  rw [hvector] at halert
  have hsound : Alert.concentration ∈ r.alerts → ∃ a ∈ rawWeights weights series, 1 / 2 ≤ a := by
    intro hraised
    by_contra! hsmall
    exact absurd (halert.1 hraised) (not_le.2 (sum_sq_lt hnonneg hsum hsmall))
  refine ⟨hsound, ?_, ?_⟩
  · intro hiff i a hi ha
    have hsquares := halert.1 (hiff.2 ⟨a, List.mem_of_getElem? hi, ha⟩)
    rw [sum_sq_eraseIdx hsum hi] at hsquares
    linarith
  · intro hcross
    refine ⟨hsound, ?_⟩
    rintro ⟨a, hmem, ha⟩
    obtain ⟨i, hi⟩ := List.getElem?_of_mem hmem
    have hproducts := hcross i a hi ha
    rw [halert, sum_sq_eraseIdx hsum hi]
    linarith

/-- The test's portfolio raises the alert. -/
theorem concentration_alert_iff_twoWeights :
    ∃ r, portfolioRisk .runnable twoWeights twoSeries = .ok (.ok r) ∧
      (Alert.concentration ∈ r.alerts ↔ ∃ a ∈ rawWeights twoWeights twoSeries, 1 / 2 ≤ a) := by
  obtain ⟨r, perf, hr, -⟩ := report_of_measurable (N := .runnable) measurable_twoWeights
  refine ⟨r, hr, ?_⟩
  have hcross : ∀ i : Fin (rawWeights twoWeights twoSeries).length,
      crossProducts ((rawWeights twoWeights twoSeries).eraseIdx i) ≤
        ((rawWeights twoWeights twoSeries).get i - 1 / 2) ^ 2 := by decide +kernel
  refine (concentration_alert_iff measurable_twoWeights.nonneg (by decide +kernel) hr).2.2 ?_
  intro i a hi _
  obtain ⟨hlt, rfl⟩ := List.getElem?_eq_some_iff.1 hi
  exact hcross ⟨i, hlt⟩

/-- One fund of 60% and two of 20%. -/
def threeWeights : Dict ℚ := [("A", 3 / 5), ("B", 1 / 5), ("C", 1 / 5)]

def threeSeries : Dict (List ℚ) :=
  [("A", [1 / 100, -1 / 100, 2 / 100]), ("B", [5 / 1000, 0, -5 / 1000]), ("C", [0, 1 / 100, 0])]

/-- The squares sum to 0.44, so the fund of 60% raises no alert. -/
theorem sixty_percent_not_alerted :
    (∀ a ∈ rawWeights threeWeights threeSeries, 0 ≤ a) ∧
      (rawWeights threeWeights threeSeries).sum = 1 ∧
      (∃ a ∈ rawWeights threeWeights threeSeries, 1 / 2 ≤ a) ∧
      ∃ r, portfolioRisk .runnable threeWeights threeSeries = .ok (.ok r) ∧
        Alert.concentration ∉ r.alerts := by
  have hmeasurable : Measurable threeWeights threeSeries :=
    ⟨by decide +kernel, by decide +kernel, by decide +kernel, by decide +kernel⟩
  obtain ⟨r, perf, hr, -⟩ := report_of_measurable (N := .runnable) hmeasurable
  refine ⟨by decide +kernel, by decide +kernel, by decide +kernel, r, hr, ?_⟩
  rw [mem_alerts_iff hr]
  decide +kernel

end QuantFlow.PortfolioRisk
