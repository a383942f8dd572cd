/-
**The risk of a portfolio of one fund.**

`portfolio_risk` of `backend/app/risk/portfolio.py` measures the drawdown and the downside volatility
of a curve that it rebuilds from the returns, `np.cumprod(1 + portfolio_returns)`.  The returns of one
fund rebuild its NAVs, in the unit of the first one and without it: the curve starts after the first
return.  So the report of the fund alone misses every fall from the first NAV, and the first return
if it is a loss; `calculate_metrics` of the NAVs themselves misses neither.

Main definitions:

* `Numerics.Exact` — no rounding, and a root that separates numbers;
* `downsideOf` — the downside volatility, before it is rounded;
* `StartMatched` — the first NAV adds nothing to the risk of the later ones.

Main results:

* `equity_one_fund` — the curve of one fund;
* `varSample_cons_iff` — when one more number leaves a variance as it is;
* `one_fund_risk_iff` — **when the report of one fund has the fund's risk**.
-/

import QuantFlow.MaxDrawdown
import QuantFlow.RiskDecomposition

namespace QuantFlow

/-- Functions of exact arithmetic: nothing is rounded, and different numbers have different roots. -/
structure Numerics.Exact (N : Numerics) : Prop where
  round : ∀ x, N.round 6 x = x
  sqrt_inj : ∀ x y, 0 ≤ x → 0 ≤ y → N.sqrt x = N.sqrt y → x = y

namespace PortfolioRisk

open Drawdown (Change Worst)
open Indicators (mean sumSq stdSample returns)
open Rebalance (Dict)
open Signals (diffReturns)

variable {N : Numerics}

/-! ### The numbers of the metrics -/

/-- The losses among the returns. -/
def losses (rets : List ℚ) : List ℚ := rets.filter (· < 0)

/-- `np.std(downside, ddof=1) * np.sqrt(252) if len(downside) > 1 else 0.0`. -/
def downsideOf (N : Numerics) (rets : List ℚ) : ℚ :=
  if 1 < (losses rets).length then stdSample N (losses rets) * N.sqrt 252 else 0

/-- The drawdown and the downside volatility among the metrics of positive values. -/
theorem calculateMetrics_risk {navs : List ℚ} (hlen : 3 ≤ navs.length) (hpos : ∀ v ∈ navs, 0 < v) :
    ∃ m, Risk.calculateMetrics N navs = some m ∧
      m.maxDrawdown = N.round 6 (Risk.maxDrawdown navs) ∧
      m.downsideVolatility = N.round 6 (downsideOf N (diffReturns navs)) := by
  rw [Risk.calculateMetrics, if_neg (Risk.not_insufficient hlen hpos)]
  exact ⟨_, rfl, rfl, rfl⟩

theorem diffReturns_eq_returns {navs : List ℚ} (hpos : ∀ v ∈ navs, 0 < v) :
    diffReturns navs = returns navs := by
  rw [diffReturns, returns, ← List.map_uncurry_zip_eq_zipWith, ← List.map_uncurry_zip_eq_zipWith]
  refine List.map_congr_left ?_
  rintro ⟨prev, v⟩ hpair
  have hne : prev ≠ 0 := (hpos prev (List.of_mem_zip hpair).1).ne'
  show (v - prev) / prev = v / prev - 1
  rw [sub_div, div_self hne]

theorem diffReturns_map_mul {c : ℚ} (hc : c ≠ 0) (navs : List ℚ) :
    diffReturns (navs.map (c * ·)) = diffReturns navs := by
  rw [diffReturns, diffReturns, ← List.map_tail, List.zipWith_map]
  congr 1
  funext prev v
  rw [← mul_sub, mul_div_mul_left _ _ hc]

theorem returns_cons (v₀ v₁ : ℚ) (rest : List ℚ) :
    returns (v₀ :: v₁ :: rest) = (v₁ / v₀ - 1) :: returns (v₁ :: rest) := rfl

theorem returns_gt {navs : List ℚ} (h : ∀ x ∈ navs, 0 < x) : ∀ x ∈ returns navs, -1 < x := by
  intro x hx
  rw [returns, ← List.map_uncurry_zip_eq_zipWith] at hx
  obtain ⟨⟨prev, v⟩, hpair, rfl⟩ := List.mem_map.1 hx
  obtain ⟨hprev, hv⟩ := List.of_mem_zip hpair
  have hratio : 0 < v / prev := div_pos (h v (List.mem_of_mem_tail hv)) (h prev hprev)
  show -1 < v / prev - 1
  linarith

/-! ### The curve of one fund -/

section Curve

/-- The running products of the growth factors are the values themselves, in the unit in which the
products start. -/
theorem scanl_returns {v : ℚ} {vs : List ℚ} (hpos : ∀ x ∈ v :: vs, 0 < x) (c : ℚ) :
    ((returns (v :: vs)).map (1 + ·)).scanl (· * ·) (c * v) = (v :: vs).map (c * ·) := by
  induction vs generalizing v with
  | nil => rfl
  | cons u vs ih =>
    have hv : v ≠ 0 := (hpos v List.mem_cons_self).ne'
    have hgrowth : c * v * (1 + (u / v - 1)) = c * u := by
      field_simp
      ring
    rw [returns_cons, List.map_cons, List.scanl_cons, hgrowth,
      ih fun x hx => hpos x (List.mem_cons_of_mem v hx)]
    rfl

theorem vecMul_one (row : List ℚ) : vecMul [1] [row] row.length = row := by
  refine List.ext_getElem (by simp [vecMul]) fun j hj hj' => ?_
  simp [vecMul, SampleCovariance.combine, WeightedSeries.dot, List.getElem?_eq_getElem hj']

/-- **The curve of one fund is that of its NAVs after the first, in the unit of the first.** -/
theorem equity_one_fund {v : ℚ} {vs : List ℚ} (hpos : ∀ x ∈ v :: vs, 0 < x) :
    equity [1] [returns (v :: vs)] = vs.map (1 / v * ·) := by
  have hv : v ≠ 0 := (hpos v List.mem_cons_self).ne'
  have hproducts := scanl_returns hpos (1 / v)
  rw [one_div_mul_cancel hv] at hproducts
  rw [equity]
  show WeightedSeries.cumprod ((vecMul [1] [returns (v :: vs)] (returns (v :: vs)).length).map
    (1 + ·)) = _
  rw [vecMul_one, WeightedSeries.cumprod, hproducts]
  rfl

end Curve

/-! ### One more number -/

section Variance

theorem sum_sq_sub (xs : List ℚ) (c : ℚ) :
    (xs.map fun x => (x - c) * (x - c)).sum =
      (xs.map (· ^ 2)).sum - 2 * c * xs.sum + xs.length * c ^ 2 := by
  induction xs with
  | nil => simp
  | cons x xs ih =>
    rw [List.map_cons, List.sum_cons, ih, List.map_cons, List.sum_cons, List.sum_cons,
      List.length_cons]
    push_cast
    ring

theorem sumSq_eq {xs : List ℚ} (hne : xs ≠ []) :
    sumSq xs = (xs.map (· ^ 2)).sum - xs.sum ^ 2 / xs.length := by
  have hlength : (xs.length : ℚ) ≠ 0 := by simpa using hne
  rw [sumSq, sum_sq_sub, mean]
  field_simp
  ring

/-- One more number adds its squared distance to the mean of the others, reduced a little. -/
theorem sumSq_cons (a : ℚ) {xs : List ℚ} (hne : xs ≠ []) :
    sumSq (a :: xs) = sumSq xs + xs.length / (xs.length + 1) * (a - mean xs) ^ 2 := by
  have hlength : (xs.length : ℚ) ≠ 0 := by simpa using hne
  have hsucc : (xs.length : ℚ) + 1 ≠ 0 := by positivity
  rw [sumSq_eq (List.cons_ne_nil a xs), sumSq_eq hne, mean, List.map_cons, List.sum_cons,
    List.sum_cons, List.length_cons]
  push_cast
  field_simp
  ring

theorem sumSq_singleton (x : ℚ) : sumSq [x] = 0 := by
  simp [sumSq, mean]

/-- **When one more number leaves the variance as it is**: at one distance from the mean of the
others.  A single number has no variance. -/
theorem varSample_cons_iff (a : ℚ) {xs : List ℚ} (hne : xs ≠ []) :
    varSample (a :: xs) = varSample xs ↔
      (a - mean xs) ^ 2 = (1 + 1 / xs.length) * varSample xs := by
  have hpos : 0 < (xs.length : ℚ) := by
    rw [Nat.cast_pos]
    exact List.length_pos_of_ne_nil hne
  have hcons : varSample (a :: xs) =
      (sumSq xs + xs.length / (xs.length + 1) * (a - mean xs) ^ 2) / xs.length := by
    rw [varSample, sumSq_cons a hne, List.length_cons]
    push_cast
    rw [add_sub_cancel_right]
  rw [hcons, varSample]
  rcases (Nat.succ_le_of_lt (List.length_pos_of_ne_nil hne)).eq_or_lt with hone | htwo
  · obtain ⟨x, rfl⟩ := List.length_eq_one_iff.1 hone.symm
    rw [sumSq_singleton]
    norm_num
  · have hpred : 0 < (xs.length : ℚ) - 1 := by
      rw [sub_pos]
      exact_mod_cast htwo
    constructor
    · intro h
      field_simp at h ⊢
      linarith
    · intro h
      rw [h]
      field_simp
      ring

theorem varSample_nonneg {xs : List ℚ} (hne : xs ≠ []) : 0 ≤ varSample xs := by
  rw [← covariance_self]
  exact SampleCovariance.covariance_self_nonneg (List.length_pos_of_ne_nil hne)

end Variance

/-! ### What the first NAV adds -/

section Start

variable {v₀ v₁ : ℚ} {rest : List ℚ}

theorem losses_cons_of_nonneg {x : ℚ} (hx : 0 ≤ x) (rets : List ℚ) :
    losses (x :: rets) = losses rets :=
  List.filter_cons_of_neg (by simpa using hx)

theorem losses_cons_of_neg {x : ℚ} (hx : x < 0) (rets : List ℚ) :
    losses (x :: rets) = x :: losses rets :=
  List.filter_cons_of_pos (by simpa using hx)

/-- A single loss has no deviation, so that the test for two losses can be left out. -/
theorem downsideOf_eq (hzero : N.sqrt 0 = 0) {rets : List ℚ} (hne : losses rets ≠ []) :
    downsideOf N rets = N.sqrt (varSample (losses rets)) * N.sqrt 252 := by
  rw [downsideOf]
  rcases (Nat.succ_le_of_lt (List.length_pos_of_ne_nil hne)).eq_or_lt with hone | htwo
  · obtain ⟨x, hx⟩ := List.length_eq_one_iff.1 hone.symm
    rw [hx, varSample, sumSq_singleton, zero_div, hzero, zero_mul]
    rfl
  · rw [if_pos htwo]
    rfl

theorem pairwise_of_losses_eq_nil {vs : List ℚ} (hpos : ∀ v ∈ vs, 0 < v)
    (h : losses (returns vs) = []) : vs.Pairwise (· ≤ ·) := by
  rw [← List.isChain_iff_pairwise]
  induction vs with
  | nil => exact List.IsChain.nil
  | cons v vs ih =>
    cases vs with
    | nil => exact List.IsChain.singleton v
    | cons u vs =>
      rw [returns_cons] at h
      have hgain : 0 ≤ u / v - 1 := by
        by_contra hloss
        rw [losses_cons_of_neg (not_le.1 hloss)] at h
        cases h
      rw [losses_cons_of_nonneg hgain] at h
      refine List.IsChain.cons_cons ?_ (ih (fun x hx => hpos x (List.mem_cons_of_mem v hx)) h)
      rw [sub_nonneg, one_le_div (hpos v List.mem_cons_self)] at hgain
      exact hgain

/-- The fall from the first NAV to any other one is no deeper than one among the others. -/
def FallsMatched (v₀ : ℚ) (later : List ℚ) : Prop :=
  ∀ b ∈ later, ∃ x, Change later x ∧ x ≤ b / v₀ - 1

/-- The first NAV adds nothing to the risk of the later ones: the first return is no loss; or it is
one at that distance from the mean of the other losses which leaves their deviation as it is, and the
falls from the first NAV are matched. -/
def StartMatched (v₀ v₁ : ℚ) (rest : List ℚ) : Prop :=
  let later := losses (returns (v₁ :: rest))
  v₀ ≤ v₁ ∨ FallsMatched v₀ (v₁ :: rest) ∧
    (v₁ / v₀ - 1 - mean later) ^ 2 = (1 + 1 / later.length) * varSample later

theorem first_return_nonneg (hpos : ∀ v ∈ v₀ :: v₁ :: rest, 0 < v) (hle : v₀ ≤ v₁) :
    0 ≤ v₁ / v₀ - 1 := by
  rwa [sub_nonneg, one_le_div (hpos v₀ List.mem_cons_self)]

theorem first_return_neg (hpos : ∀ v ∈ v₀ :: v₁ :: rest, 0 < v) (hlt : v₁ < v₀) :
    v₁ / v₀ - 1 < 0 := by
  rwa [sub_neg, div_lt_one (hpos v₀ List.mem_cons_self)]

/-- The drawdown does not need the first NAV exactly if its falls are matched. -/
theorem maxDrawdown_cons_iff (hpos : ∀ v ∈ v₀ :: v₁ :: rest, 0 < v) :
    Risk.maxDrawdown (v₁ :: rest) = Risk.maxDrawdown (v₀ :: v₁ :: rest) ↔
      FallsMatched v₀ (v₁ :: rest) := by
  have hlater : ∀ v ∈ v₁ :: rest, 0 < v := fun v hv => hpos v (List.mem_cons_of_mem v₀ hv)
  have hworst := Risk.worst_maxDrawdown (List.cons_ne_nil v₁ rest) hlater
  have hworst' := Risk.worst_maxDrawdown (List.cons_ne_nil v₀ (v₁ :: rest)) hpos
  have hcons := hworst.cons_iff hlater (hpos v₀ List.mem_cons_self).ne'
  constructor
  · intro hsame b hb
    rw [← hsame] at hworst'
    exact ⟨_, hworst.1, hcons.1 hworst' b hb⟩
  · intro hmatched
    refine Worst.unique (hcons.2 ?_) hworst'
    intro b hb
    obtain ⟨x, hchange, hx⟩ := hmatched b hb
    exact (hworst.2 hchange).trans hx

/-- Without a loss at the start every fall is matched by the one from the second NAV. -/
theorem fallsMatched_of_le (hpos : ∀ v ∈ v₀ :: v₁ :: rest, 0 < v) (hle : v₀ ≤ v₁) :
    FallsMatched v₀ (v₁ :: rest) := by
  intro b hb
  refine ⟨b / v₁ - 1, (Drawdown.change_cons_iff v₁ rest _).2 (Or.inl ⟨b, hb, rfl⟩), ?_⟩
  have hquotient : b / v₁ ≤ b / v₀ :=
    div_le_div_of_nonneg_left (hpos b (List.mem_cons_of_mem v₀ hb)).le (hpos v₀ List.mem_cons_self)
      hle
  linarith

/-- A loss at the start is only matched if there are losses later. -/
theorem losses_ne_nil_of_matched (hpos : ∀ v ∈ v₀ :: v₁ :: rest, 0 < v) (hlt : v₁ < v₀)
    (hmatched : FallsMatched v₀ (v₁ :: rest)) : losses (returns (v₁ :: rest)) ≠ [] := by
  intro hnil
  have hlater : ∀ v ∈ v₁ :: rest, 0 < v := fun v hv => hpos v (List.mem_cons_of_mem v₀ hv)
  have hworst := Risk.worst_maxDrawdown (List.cons_ne_nil v₁ rest) hlater
  have hnone := (hworst.eq_zero_iff hlater).2 (pairwise_of_losses_eq_nil hlater hnil)
  obtain ⟨x, hchange, hx⟩ := hmatched v₁ List.mem_cons_self
  have hfirst := first_return_neg hpos hlt
  have hbelow := hworst.2 hchange
  rw [hnone] at hbelow
  linarith

/-- The downside volatility does not need a first return that is no loss. -/
theorem downsideOf_cons_of_nonneg {x : ℚ} (hx : 0 ≤ x) (rets : List ℚ) :
    downsideOf N (x :: rets) = downsideOf N rets := by
  rw [downsideOf, downsideOf, losses_cons_of_nonneg hx]

/-- With a loss at the start and losses later, the two downside volatilities are the roots of two
variances. -/
theorem downsideOf_cons_of_neg (hzero : N.sqrt 0 = 0) {x : ℚ} (hx : x < 0) {rets : List ℚ}
    (hne : losses rets ≠ []) :
    downsideOf N (x :: rets) = N.sqrt (varSample (x :: losses rets)) * N.sqrt 252 ∧
      downsideOf N rets = N.sqrt (varSample (losses rets)) * N.sqrt 252 := by
  refine ⟨?_, downsideOf_eq hzero hne⟩
  rw [← losses_cons_of_neg hx rets]
  refine downsideOf_eq hzero ?_
  rw [losses_cons_of_neg hx rets]
  exact List.cons_ne_nil x _

theorem downsideOf_cons_iff (hzero : N.sqrt 0 = 0) (hexact : N.Exact) {x : ℚ} (hx : x < 0)
    {rets : List ℚ} (hne : losses rets ≠ []) :
    downsideOf N rets = downsideOf N (x :: rets) ↔
      (x - mean (losses rets)) ^ 2 =
        (1 + 1 / (losses rets).length) * varSample (losses rets) := by
  obtain ⟨hcons, hrets⟩ := downsideOf_cons_of_neg hzero hx hne
  have hyear : N.sqrt 252 ≠ 0 := by
    intro h
    have := hexact.sqrt_inj 252 0 (by norm_num) le_rfl (h.trans hzero.symm)
    norm_num at this
  rw [hcons, hrets, ← varSample_cons_iff x hne]
  constructor
  · intro h
    have hroots := mul_right_cancel₀ hyear h
    exact (hexact.sqrt_inj _ _ (varSample_nonneg hne) (varSample_nonneg (List.cons_ne_nil x _))
      hroots).symm
  · intro h
    rw [h]

/-- A start that adds nothing leaves both numbers as they are. -/
theorem StartMatched.same (hzero : N.sqrt 0 = 0) (hpos : ∀ v ∈ v₀ :: v₁ :: rest, 0 < v)
    (h : StartMatched v₀ v₁ rest) :
    Risk.maxDrawdown (v₁ :: rest) = Risk.maxDrawdown (v₀ :: v₁ :: rest) ∧
      downsideOf N (returns (v₁ :: rest)) = downsideOf N (returns (v₀ :: v₁ :: rest)) := by
  rw [returns_cons]
  by_cases hle : v₀ ≤ v₁
  · refine ⟨(maxDrawdown_cons_iff hpos).2 (fallsMatched_of_le hpos hle), ?_⟩
    exact (downsideOf_cons_of_nonneg (first_return_nonneg hpos hle) _).symm
  · obtain ⟨hfalls, hdistance⟩ := h.resolve_left hle
    have hlosses := losses_ne_nil_of_matched hpos (not_le.1 hle) hfalls
    have hloss := first_return_neg hpos (not_le.1 hle)
    obtain ⟨hcons, hrets⟩ := downsideOf_cons_of_neg hzero hloss hlosses
    refine ⟨(maxDrawdown_cons_iff hpos).2 hfalls, ?_⟩
    rw [hcons, hrets, (varSample_cons_iff _ hlosses).2 hdistance]

theorem startMatched_of_same (hzero : N.sqrt 0 = 0) (hexact : N.Exact)
    (hpos : ∀ v ∈ v₀ :: v₁ :: rest, 0 < v)
    (hfall : Risk.maxDrawdown (v₁ :: rest) = Risk.maxDrawdown (v₀ :: v₁ :: rest))
    (hdownside : downsideOf N (returns (v₁ :: rest)) = downsideOf N (returns (v₀ :: v₁ :: rest))) :
    StartMatched v₀ v₁ rest := by
  rw [returns_cons] at hdownside
  by_cases hle : v₀ ≤ v₁
  · exact Or.inl hle
  · have hfalls := (maxDrawdown_cons_iff hpos).1 hfall
    have hlosses := losses_ne_nil_of_matched hpos (not_le.1 hle) hfalls
    have hloss := first_return_neg hpos (not_le.1 hle)
    exact Or.inr ⟨hfalls, (downsideOf_cons_iff hzero hexact hloss hlosses).1 hdownside⟩

end Start

/-! ### The report of one fund -/

section OneFund

variable (code : String) {weight v₀ v₁ : ℚ} {rest : List ℚ}

theorem commonCodes_one_fund (weight : ℚ) (row : List ℚ) :
    commonCodes [(code, weight)] [(code, row)] = [code] := by
  simp [commonCodes]

theorem weightVector_one_fund (hweight : 0 < weight) (row : List ℚ) :
    weightVector [(code, weight)] [(code, row)] = [1] := by
  simp [weightVector, commonCodes_one_fund, WeightedSeries.normalize, hweight.ne']

theorem matrix_one_fund (weight : ℚ) (row : List ℚ) :
    matrix [(code, weight)] [(code, row)] = [row] := by
  simp [matrix, commonCodes_one_fund, cutRows, commonSize, lastN]

theorem measurable_one_fund (hweight : 0 < weight) {navs : List ℚ} (hlen : 4 ≤ navs.length)
    (hpos : ∀ v ∈ navs, 0 < v) : Measurable [(code, weight)] [(code, returns navs)] where
  nonneg := by simpa [rawWeights, commonCodes_one_fund] using hweight.le
  positive := by simpa [rawWeights, commonCodes_one_fund] using hweight
  returns := by simpa [rawRows, commonCodes_one_fund] using returns_gt hpos
  size := by
    have hlength := Indicators.length_returns navs
    simp only [rawRows, commonCodes_one_fund, List.map_cons, List.map_nil, List.lookup_cons,
      beq_self_eq_true, Option.getD_some, commonSize, List.foldl_nil]
    omega

/-- **What the report of one fund measures**: the NAVs without the first one. -/
theorem report_one_fund (hweight : 0 < weight) (hlen : 5 ≤ (v₀ :: v₁ :: rest).length)
    (hpos : ∀ v ∈ v₀ :: v₁ :: rest, 0 < v) :
    ∃ r, portfolioRisk N [(code, weight)] [(code, returns (v₀ :: v₁ :: rest))] = .ok (.ok r) ∧
      r.maxDrawdown = some (N.round 6 (Risk.maxDrawdown (v₁ :: rest))) ∧
      r.downsideVolatility = some (N.round 6 (downsideOf N (returns (v₁ :: rest)))) := by
  have hlater : ∀ v ∈ v₁ :: rest, 0 < v := fun v hv => hpos v (List.mem_cons_of_mem v₀ hv)
  have hunit : (0 : ℚ) < 1 / v₀ := one_div_pos.2 (hpos v₀ List.mem_cons_self)
  have hcurve : ∀ v ∈ (v₁ :: rest).map (1 / v₀ * ·), 0 < v := by
    intro v hv
    obtain ⟨u, hu, rfl⟩ := List.mem_map.1 hv
    exact mul_pos hunit (hlater u hu)
  obtain ⟨r, perf, hr, hperf, -, -, hfall, hdownside⟩ :=
    report_of_measurable (N := N) (measurable_one_fund code hweight (by omega) hpos)
  have hthree : 3 ≤ ((v₁ :: rest).map (1 / v₀ * ·)).length := by
    rw [List.length_map]
    rw [List.length_cons] at hlen
    omega
  obtain ⟨m, hm, hmfall, hmdownside⟩ := calculateMetrics_risk (N := N) hthree hcurve
  rw [weightVector_one_fund code hweight, matrix_one_fund, equity_one_fund hpos, hm,
    Option.some_inj] at hperf
  -- neither number depends on the unit of the curve
  have hworst : Risk.maxDrawdown ((v₁ :: rest).map (1 / v₀ * ·)) = Risk.maxDrawdown (v₁ :: rest) := by
    refine Worst.unique ?_ (Risk.worst_maxDrawdown (List.cons_ne_nil v₁ rest) hlater)
    rw [← Drawdown.worst_map_mul_iff hunit.ne']
    exact Risk.worst_maxDrawdown (List.cons_ne_nil _ _) hcurve
  rw [hworst] at hmfall
  rw [diffReturns_map_mul hunit.ne', diffReturns_eq_returns hlater] at hmdownside
  refine ⟨r, hr, ?_, ?_⟩
  · rw [hfall, ← hperf, hmfall]
  · rw [hdownside, ← hperf, hmdownside]

end OneFund

/-- The report and the metrics name the same drawdown and the same downside volatility. -/
def SameRisk (r : Report) (m : Risk.Metrics) : Prop :=
  r.maxDrawdown = some m.maxDrawdown ∧ r.downsideVolatility = some m.downsideVolatility

/-- **When the report of one fund has the fund's risk**: if the first NAV adds nothing to the risk of
the later ones, and in exact arithmetic only then. -/
theorem one_fund_risk_iff (hzero : N.sqrt 0 = 0) (code : String) {weight v₀ v₁ : ℚ} {rest : List ℚ}
    (hweight : 0 < weight) (hlen : 5 ≤ (v₀ :: v₁ :: rest).length)
    (hpos : ∀ v ∈ v₀ :: v₁ :: rest, 0 < v) :
    ∃ r m, portfolioRisk N [(code, weight)] [(code, returns (v₀ :: v₁ :: rest))] = .ok (.ok r) ∧
      Risk.calculateMetrics N (v₀ :: v₁ :: rest) = some m ∧
      (StartMatched v₀ v₁ rest → SameRisk r m) ∧
      (N.Exact → (SameRisk r m ↔ StartMatched v₀ v₁ rest)) := by
  obtain ⟨r, hr, hfall, hdownside⟩ := report_one_fund (N := N) code hweight hlen hpos
  obtain ⟨m, hm, hmfall, hmdownside⟩ :=
    calculateMetrics_risk (N := N) (le_trans (by decide) hlen) hpos
  rw [diffReturns_eq_returns hpos] at hmdownside
  have hsame : SameRisk r m ↔
      N.round 6 (Risk.maxDrawdown (v₁ :: rest)) = N.round 6 (Risk.maxDrawdown (v₀ :: v₁ :: rest)) ∧
        N.round 6 (downsideOf N (returns (v₁ :: rest))) =
          N.round 6 (downsideOf N (returns (v₀ :: v₁ :: rest))) := by
    rw [SameRisk, hfall, hdownside, hmfall, hmdownside, Option.some_inj, Option.some_inj]
  have hmatched : StartMatched v₀ v₁ rest → SameRisk r m := by
    intro hstart
    obtain ⟨hdrawdown, hvolatility⟩ := hstart.same hzero hpos
    rw [hsame, hdrawdown, hvolatility]
    exact ⟨rfl, rfl⟩
  refine ⟨r, m, hr, hm, hmatched, fun hexact => ⟨?_, hmatched⟩⟩
  rw [hsame, hexact.round, hexact.round, hexact.round, hexact.round]
  rintro ⟨hdrawdown, hvolatility⟩
  exact startMatched_of_same hzero hexact hpos hdrawdown hvolatility

/-! Two funds that lose on their first day. -/

/-- A root close to that of `Numerics.runnable`, but different for different numbers. -/
def exactNumerics : Numerics :=
  { round := fun _ x => x, pow := Numerics.runnable.pow,
    sqrt := fun x => Numerics.runnable.sqrt x + x / 10 ^ 30 }

theorem exactNumerics_exact : exactNumerics.Exact where
  round _ := rfl
  sqrt_inj := by
    have hmono : ∀ x y : ℚ, x < y → exactNumerics.sqrt x < exactNumerics.sqrt y := by
      intro x y hxy
      have hfloor : ⌊x * 10 ^ 24⌋.toNat ≤ ⌊y * 10 ^ 24⌋.toNat :=
        Int.toNat_le_toNat (Int.floor_le_floor (by linarith))
      have hroot : Numerics.runnable.sqrt x ≤ Numerics.runnable.sqrt y := by
        show (Nat.sqrt _ : ℚ) / 10 ^ 12 ≤ (Nat.sqrt _ : ℚ) / 10 ^ 12
        have := Nat.sqrt_le_sqrt hfloor
        gcongr
      show Numerics.runnable.sqrt x + x / 10 ^ 30 < Numerics.runnable.sqrt y + y / 10 ^ 30
      linarith
    intro x y _ _ heq
    rcases lt_trichotomy x y with h | h | h
    · exact absurd heq (hmono x y h).ne
    · exact h
    · exact absurd heq.symm (hmono y x h).ne

/-- The fund loses 10% twice, so that the second loss matches the first. -/
theorem one_fund_risk_iff_twice :
    ∃ r m, portfolioRisk exactNumerics [("000001", 1)] [("000001", returns [100, 90, 100, 90, 95])] =
        .ok (.ok r) ∧
      Risk.calculateMetrics exactNumerics [100, 90, 100, 90, 95] = some m ∧ SameRisk r m := by
  obtain ⟨r, m, hr, hm, -, hiff⟩ := one_fund_risk_iff (N := exactNumerics) (by decide +kernel)
    "000001" (show (0 : ℚ) < 1 by norm_num) (show 5 ≤ [(100 : ℚ), 90, 100, 90, 95].length by decide)
    (by decide +kernel)
  refine ⟨r, m, hr, hm, (hiff exactNumerics_exact).2 (Or.inr ⟨?_, by decide +kernel⟩)⟩
  have hdepth : ∀ b ∈ [(90 : ℚ), 100, 90, 95], 90 / 100 - 1 ≤ b / 100 - 1 := by decide +kernel
  intro b hb
  exact ⟨90 / 100 - 1, ⟨1, 2, 100, 90, by decide, rfl, rfl, rfl⟩, hdepth b hb⟩

/-- The fund halves on its first day and then stands still; the report knows of no drawdown. -/
theorem first_day_loss_missed :
    ∃ r m, portfolioRisk .runnable [("000001", 1)] [("000001", returns [2, 1, 1, 1, 1])] =
        .ok (.ok r) ∧
      Risk.calculateMetrics .runnable [2, 1, 1, 1, 1] = some m ∧
      r.maxDrawdown = some 0 ∧ m.maxDrawdown = -1 / 2 := by
  have hpos : ∀ v ∈ [(2 : ℚ), 1, 1, 1, 1], 0 < v := by decide +kernel
  obtain ⟨r, hr, hfall, -⟩ := report_one_fund (N := .runnable) "000001"
    (show (0 : ℚ) < 1 by norm_num) (by decide) hpos
  obtain ⟨m, hm, hmfall, -⟩ := calculateMetrics_risk (N := .runnable) (by decide) hpos
  refine ⟨r, m, hr, hm, ?_, ?_⟩
  · rw [hfall]
    decide +kernel
  · rw [hmfall]
    decide +kernel

end PortfolioRisk

end QuantFlow
