/-
**The risk of the portfolio in floats.**

`portfolio_risk` of `backend/app/risk/portfolio.py` multiplies the factors of the days up to a curve,
and reports the drawdown that `calculate_metrics` finds on it.  In exact numbers the curve of positive
NAVs is positive.  In floats a factor may be zero, when a NAV is nothing beside the one before, or
below, and small factors may underflow together.  `calculate_metrics` then has no drawdown, and
`build_alerts` of `backend/app/risk/alerts.py` compares a missing one, which raises.  Nothing else
raises, and only a total value that underflows leaves the portfolio without a report.

How NumPy adds, its products of matrices and its powers are left open.

Main definitions:

* `Linear` — what is left open;
* `calculateMetrics`, `portfolioRisk`, `portfolioRiskPayload` — the report and the route;
* `Covers` — the report covers the portfolio;
* `Sustained` — factors whose products stay positive.

Main results:

* `curve_pos_iff` — when a curve is positive;
* `risk_covers_portfolio_iff` — **when the report covers the portfolio**.
-/

import QuantFlow.FloatIndicators
import QuantFlow.FloatRank
import QuantFlow.PortfolioRisk
import QuantFlow.Thresholds

namespace QuantFlow

open FloatValue

/-- What is left open of NumPy and Python: also `@`, `np.prod`, `**`, and `sum`. -/
structure Linear extends NumPy where
  dot : List FloatValue → List FloatValue → FloatValue
  prod : List FloatValue → FloatValue
  pow : FloatValue → FloatValue → FloatValue
  pySum : List FloatValue → FloatValue

namespace FloatRisk

open FloatIndicators (mean root dailyReturns)
open PortfolioRisk hiding dailyReturns
open Rebalance (Dict Holding)
open Risk (Metrics)
open Binary64 (nearest)

variable (L : Linear) (sim : Bool)

/-! ### The metrics of a curve -/

/-- `a >= b`. -/
def ge (a b : FloatValue) : Bool := lt b a || eq a b

/-- `np.maximum` and `np.minimum`: NaN if one of the two is. -/
def npMax (a b : FloatValue) : FloatValue := if a = .nan ∨ b = .nan then .nan else pyMax a b

def npMin (a b : FloatValue) : FloatValue := if a = .nan ∨ b = .nan then .nan else pyMin a b

def abs : FloatValue → FloatValue
  | .finite q => .finite |q|
  | .inf _ => .inf false
  | .nan => .nan

def deviations (xs : List FloatValue) : List FloatValue :=
  xs.map fun x => sub x (mean L.toNumPy xs)

/-- The sum of the products of the deviations, over one less than their number. -/
def variance (xs : List FloatValue) : FloatValue :=
  npDiv (L.sum ((deviations L xs).map fun d => mul d d)) (.finite (xs.length - 1))

/-- A deviation of daily numbers, for a year: `np.std(xs, ddof=1) * np.sqrt(252)`. -/
def yearly (xs : List FloatValue) : FloatValue :=
  mul (root L.toNumPy (variance L xs)) (root L.toNumPy (.finite 252))

/-- `round(x / y, 6) if y else None`. -/
def ratio (x y : FloatValue) : Option FloatValue :=
  if isZero y then none else some (round 6 (div x y))

/-- `np.min(arr / peaks - 1)`, of the running peaks. -/
def maxDrawdown (arr : List FloatValue) : FloatValue :=
  let peaks := arr.tail.scanl npMax (arr.headD .nan)
  let falls := List.zipWith (fun v peak => sub (npDiv v peak) (.finite 1)) arr peaks
  falls.tail.foldl npMin (falls.headD .nan)

/-- `calculate_metrics(navs)`; `none` is the status `insufficient_data`. -/
def calculateMetrics (navs : List FloatValue) : Option (Metrics FloatValue) :=
  if navs.length < 3 ∨ navs.any (ge (.finite 0)) then none
  else
    let rets := List.zipWith (fun prev v => npDiv (sub v prev) prev) navs navs.tail
    let growth := npDiv (navs.getLastD .nan) (navs.headD .nan)
    let annualReturn := sub (L.pow growth (fl (252 / max 1 rets.length))) (.finite 1)
    let volatility := yearly L rets
    let downside := rets.filter fun x => lt x (.finite 0)
    let downsideVol := if 1 < downside.length then yearly L downside else .finite 0
    let fall := maxDrawdown navs
    let excess := sub annualReturn (.finite 0)
    some
      { annualReturn := round 6 annualReturn
        volatility := round 6 volatility
        downsideVolatility := round 6 downsideVol
        maxDrawdown := round 6 fall
        sharpe := ratio excess volatility
        sortino := ratio excess downsideVol
        calmar := ratio annualReturn (abs fall) }

/-! ### The report -/

/-- `build_alerts(risk, concentration)`; `None <= -0.10` raises `TypeError`. -/
def buildAlerts (maxDrawdown : Option FloatValue) (volatility concentration : FloatValue) :
    Except PyError (List Alert) :=
  match maxDrawdown with
  | none => .error .typeError
  | some fall =>
    .ok ((if ge (fl (-1 / 10)) fall then [.drawdown] else []) ++
      (if ge volatility (fl (3 / 10)) then [.volatility] else []) ++
      if ge concentration (.finite (1 / 2)) then [.concentration] else [])

/-- `np.cov(m)`, and the variance of a single row. -/
def covarianceMatrix (m : List (List FloatValue)) : List (List FloatValue) :=
  m.map fun a => m.map fun b =>
    if m.length = 1 then variance L a
    else mul (L.dot (deviations L a) (deviations L b)) (npDiv (.finite 1) (.finite (a.length - 1)))

/-- `v @ m`. -/
def vecMul (v : List FloatValue) (m : List (List FloatValue)) (size : ℕ) : List FloatValue :=
  (List.range size).map fun j => L.dot v (m.map fun row => row.getD j .nan)

/-- `np.argmax`: the first place of the largest element, or of NaN. -/
def argmax (xs : List FloatValue) : ℕ := xs.findIdx fun x => x = .nan ∨ xs.all (ge x)

/-- `np.cumprod`. -/
def cumprod : List FloatValue → List FloatValue
  | [] => []
  | f :: fs => fs.scanl mul f

/-- The factors of the days, `1 + w @ matrix`. -/
def factors (w : List FloatValue) (m : List (List FloatValue)) : List FloatValue :=
  (vecMul L w m (commonSize m)).map (add (.finite 1))

/-- The report of normalised weights and a matrix of returns. -/
def report (codes : List String) (w : List FloatValue) (m : List (List FloatValue)) :
    Except PyError (Payload FloatValue) := do
  let cov := covarianceMatrix L m
  let variance := L.dot (vecMul L w cov w.length) w
  let vol := mul (root L.toNumPy (pyMax variance (.finite 0))) (root L.toNumPy (.finite 252))
  let marginal := cov.map fun row => L.dot row w
  let contributions :=
    if lt (.finite 0) variance then List.zipWith (fun a b => div (mul a b) variance) w marginal
    else w.map fun _ => .finite 0
  let perf := calculateMetrics L (cumprod (factors L w m))
  let trailing := lastN 30 (factors L w m)
  let return30d := if trailing = [] then none else some (sub (L.prod trailing) (.finite 1))
  let concentration := L.sum (w.map fun a => mul a a)
  let score := round 2 (pyMin (.finite 100)
    (add (mul (div vol (fl (45 / 100))) (.finite 70)) (mul concentration (.finite 30))))
  let volatility := round 6 vol
  let maxDrawdown := perf.map Metrics.maxDrawdown
  let alerts ← buildAlerts maxDrawdown volatility concentration
  .ok (.ok
    { riskLevel := .ofScore (number score)
      riskScore := score
      volatility := volatility
      concentration := round 6 concentration
      maxDrawdown := maxDrawdown
      return30d := return30d.map (round 6)
      downsideVolatility := perf.map Metrics.downsideVolatility
      sharpe := perf.bind Metrics.sharpe
      sortino := perf.bind Metrics.sortino
      calmar := perf.bind Metrics.calmar
      mainRiskSource := codes.getD (argmax contributions) ""
      riskContribution := codes.zip (contributions.map (round 6))
      alerts := alerts })

/-- The weights of the codes, divided by their sum. -/
def weightVector (weights : Dict FloatValue) (series : Dict (List FloatValue)) : List FloatValue :=
  let raw := (commonCodes weights series).map fun c => (weights.lookup c).getD .nan
  raw.map fun a => npDiv a (L.sum raw)

/-- `portfolio_risk(weights, return_series)`. -/
def portfolioRisk (weights : Dict FloatValue) (series : Dict (List FloatValue)) :
    Except PyError (Payload FloatValue) :=
  let codes := commonCodes weights series
  if codes = [] ∨ commonSize (codes.map fun c => (series.lookup c).getD []) < 3 then
    .ok .insufficientData
  else report L codes (weightVector L weights series) (matrix weights series)

/-! ### The route -/

/-- What is kept of a holding. -/
def keptOf (v : Holding FloatValue) (navs : List FloatValue) : Kept FloatValue :=
  { code := v.code, value := mul v.shares (navs.getLastD .nan), returns := dailyReturns navs }

/-- The loop over the holdings; a NAV of zero divides. -/
def collect (visits : List (Visit FloatValue)) (funds : FundCache FloatValue) :
    Except PyError (Option (List (Kept FloatValue))) × FundCache FloatValue :=
  collectWith sim (fun holding navs =>
    if navs.dropLast.any isZero then .error .zeroDivision else .ok (keptOf holding navs)) visits funds

/-- `{code: value / total …} if total else {}`. -/
def weightsOf (values : Dict FloatValue) : Dict FloatValue :=
  let total := L.pySum (values.map Prod.snd)
  if isZero total then [] else values.map fun p => (p.1, div p.2 total)

/-- The weights of what was kept. -/
def weightsOfKept (kept : List (Kept FloatValue)) : Dict FloatValue :=
  weightsOf L (Dict.build Kept.code Kept.value kept)

/-- `_portfolio_risk_payload()`. -/
def portfolioRiskPayload (visits : List (Visit FloatValue)) (funds : FundCache FloatValue) :
    Except PyError (Payload FloatValue) × FundCache FloatValue :=
  if visits = [] then (.ok .insufficientData, funds)
  else
    match collect sim visits funds with
    | (.error e, funds) => (.error e, funds)
    | (.ok none, funds) => (.ok .blockedSimulatedData, funds)
    | (.ok (some kept), funds) =>
      (portfolioRisk L (weightsOfKept L kept) (seriesOfKept kept), funds)

/-! ### Running products -/

section Products

variable {fs : List FloatValue}

/-- The `k`-th multiple of the smallest positive float. -/
def unit (k : ℕ) : FloatValue := fl (k * 2 ^ (-1074 : ℤ))

/-- What a day does to the curve. -/
def dayMap (f e : FloatValue) : FloatValue := mul e f

/-- Positive factors, of which the whole chain needs a start of at most one: `2 ^ 1074` units. -/
def Sustained (fs : List FloatValue) : Prop :=
  (∀ f ∈ fs, Positive f) ∧ Thresholds.need rank Positive unit (fs.map dayMap) ≤ (2 ^ 1074 : ℕ)

theorem positive_factor {e f : FloatValue} (he : Positive e) (h : Positive (mul e f)) : Positive f := by
  rcases he.inf_or_finite with rfl | ⟨p, rfl, hp⟩
  · cases f with
    | finite q =>
      by_contra hq
      have hq' : q ≤ 0 := not_lt.1 fun hlt => hq (decide_eq_true hlt)
      rcases hq'.eq_or_lt with rfl | hneg
      · exact absurd h (by decide)
      · simp [mul, hneg.ne, hneg, Positive, lt] at h
    | inf s => cases s <;> simp_all [mul, Positive, lt]
    | nan => cases h
  · cases f with
    | finite q =>
      by_contra hq
      have hq' : q ≤ 0 := not_lt.1 fun hlt => hq (decide_eq_true hlt)
      rw [positive_iff, mul, rank_fl_of_nonpos (mul_nonpos_of_nonneg_of_nonpos hp.le hq')] at h
      exact lt_irrefl _ h
    | inf s => cases s <;> simp_all [mul, Positive, lt, hp.ne', not_lt.2 hp.le]
    | nan => cases h

theorem finite_of_mul {e f : FloatValue} {y : ℚ} (h : mul e f = .finite y) :
    ∃ p q, e = .finite p ∧ f = .finite q := by
  cases e with
  | finite p =>
    cases f with
    | finite q => exact ⟨p, q, rfl, rfl⟩
    | inf s =>
      simp only [mul] at h
      split at h <;> cases h
    | nan => cases h
  | inf s =>
    cases f with
    | finite q =>
      simp only [mul] at h
      split at h <;> cases h
    | inf t => cases h
    | nan => cases h
  | nan => cases h

/-- A positive product is at a mark. -/
theorem rank_mul_eq {e f : FloatValue} (h : Positive (mul e f)) :
    ∃ j, rank (mul e f) = rank (unit j) := by
  rcases h.inf_or_finite with hinf | ⟨y, hy, hpos⟩
  · refine ⟨2 ^ 2098, ?_⟩
    rw [hinf, unit, fl_of_large]
    rw [Nat.cast_pow, Nat.cast_ofNat, ← zpow_natCast, ← zpow_natCast, ← zpow_add₀ two_ne_zero]
    exact zpow_le_zpow_right₀ one_le_two (by norm_num)
  · obtain ⟨p, q, rfl, rfl⟩ := finite_of_mul hy
    have hnearest : nearest (p * q) = y := by
      rw [mul, fl] at hy
      split at hy
      · cases hy
      · exact FloatValue.finite.inj hy
    obtain ⟨n, hn⟩ := Binary64.nearest_eq_mul (p * q)
    have hunit : (0 : ℚ) < 2 ^ (-1074 : ℤ) := zpow_pos two_pos _
    have hnonneg : 0 < n := by
      rw [← hnearest, hn] at hpos
      exact_mod_cast pos_of_mul_pos_left hpos hunit.le
    refine ⟨n.toNat, ?_⟩
    have hcast : ((n.toNat : ℕ) : ℚ) = n := by exact_mod_cast Int.toNat_of_nonneg hnonneg.le
    rw [unit, hcast, ← hn, mul, rank_fl, rank_fl, Binary64.nearest_nearest]

theorem monotone_unit : Monotone fun k => rank (unit k) := fun i j hij =>
  rank_fl_mono (mul_le_mul_of_nonneg_right (by exact_mod_cast hij) (zpow_pos two_pos _).le)

theorem steps_dayMap (h : ∀ f ∈ fs, Positive f) :
    Thresholds.Steps rank Positive unit (fs.map dayMap) where
  mono := by
    intro g hg a b hab
    obtain ⟨f, hf, rfl⟩ := List.mem_map.1 hg
    refine rank_mul_mono (.inr ?_) hab
    rcases (h f hf).inf_or_finite with rfl | ⟨q, rfl, hq⟩
    · rfl
    · exact hq.le
  marked := by
    intro g hg e he
    obtain ⟨f, -, rfl⟩ := List.mem_map.1 hg
    exact rank_mul_eq he

theorem unit_one : unit (2 ^ 1074) = .finite 1 := by decide +kernel

theorem scanl_dayMap (e : FloatValue) :
    (fs.map dayMap).scanl (fun e f => f e) e = fs.scanl mul e := by
  rw [List.scanl_map]
  rfl

theorem positive_of_scanl {e : FloatValue} (h : ∀ x ∈ fs.scanl mul e, Positive x) :
    ∀ f ∈ fs, Positive f := by
  induction fs generalizing e with
  | nil => exact nofun
  | cons f fs ih =>
    rw [List.scanl_cons, List.forall_mem_cons] at h
    have hnext : Positive (mul e f) := by
      refine h.2 _ ?_
      cases fs <;> simp
    exact List.forall_mem_cons.2 ⟨positive_factor h.1 hnext, ih h.2⟩

/-- When the running products from one are positive. -/
theorem scanl_pos_iff : (∀ x ∈ fs.scanl mul (.finite 1), Positive x) ↔ Sustained fs := by
  have halive : ∀ a b, rank a ≤ rank b → Positive a → Positive b := fun a b => Positive.of_rank_le
  have hlives : (∀ f ∈ fs, Positive f) → ((∀ x ∈ fs.scanl mul (.finite 1), Positive x) ↔
      Thresholds.need rank Positive unit (fs.map dayMap) ≤ (2 ^ 1074 : ℕ)) := fun h => by
    rw [← Thresholds.lives_iff halive monotone_unit (steps_dayMap h), unit_one,
      Thresholds.lives_iff_scanl, scanl_dayMap]
  exact ⟨fun h => ⟨positive_of_scanl h, (hlives (positive_of_scanl h)).1 h⟩,
    fun h => (hlives h.1).2 h.2⟩

/-- The first factor of a curve is its product with one. -/
theorem one_mul_add (r : FloatValue) : mul (.finite 1) (add (.finite 1) r) = add (.finite 1) r := by
  cases r with
  | finite q => exact (fl_mul_one _).2
  | inf s => cases s <;> decide +kernel
  | nan => rfl

/-- **When the curve of the factors is positive.** -/
theorem curve_pos_iff (rets : List FloatValue) :
    (∀ x ∈ cumprod (rets.map (add (.finite 1))), Positive x) ↔
      Sustained (rets.map (add (.finite 1))) := by
  have hone : Positive (.finite 1) := by decide
  rw [← scanl_pos_iff]
  cases rets with
  | nil => simpa [cumprod] using hone
  | cons r rets =>
    rw [List.map_cons, cumprod, List.scanl_cons, List.forall_mem_cons, one_mul_add]
    exact (and_iff_right hone).symm

/-- A start of `2 ^ -k` is survived by factors of at least `2 ^ -j`, as long as they are few. -/
theorem scanl_pos_of_ge {j k : ℕ} {e : FloatValue} (he : ((2 ^ (-k : ℤ) : ℚ) : WithTop ℚ) ≤ rank e)
    (hfs : ∀ f ∈ fs, ((2 ^ (-j : ℤ) : ℚ) : WithTop ℚ) ≤ rank f) (hlen : k + j * fs.length ≤ 1074) :
    ∀ x ∈ fs.scanl mul e, Positive x := by
  have hpos : ∀ n : ℕ, (0 : ℚ) < 2 ^ (-n : ℤ) := fun n => zpow_pos two_pos _
  have he' : Positive e := (positive_iff e).2 (lt_of_lt_of_le (by exact_mod_cast hpos k) he)
  induction fs generalizing k e with
  | nil => simpa using he'
  | cons f fs ih =>
    rw [List.forall_mem_cons] at hfs
    rw [List.length_cons, mul_add, mul_one] at hlen
    have hprod : (2 : ℚ) ^ (-k : ℤ) * 2 ^ (-j : ℤ) = 2 ^ (-(k + j : ℕ) : ℤ) := by
      rw [← zpow_add₀ two_ne_zero]
      push_cast
      ring_nf
    have hnext : ((2 ^ (-(k + j : ℕ) : ℤ) : ℚ) : WithTop ℚ) ≤ rank (mul e f) := by
      rw [← hprod]
      refine le_rank_mul (hpos k) (hpos j) ?_ he hfs.1
      rw [hprod]
      exact Binary64.nearest_two_zpow (by omega)
    rw [List.scanl_cons, List.forall_mem_cons]
    exact ⟨he', ih hnext hfs.2 (by omega)
      ((positive_iff _).2 (lt_of_lt_of_le (by exact_mod_cast hpos _) hnext))⟩

theorem le_rank_of_ge {f : FloatValue} {b : ℚ} (h : ge f (.finite b) = true) :
    (b : WithTop ℚ) ≤ rank f := by
  cases f with
  | finite q =>
    have hb : b ≤ q := by
      rcases Bool.or_eq_true _ _ ▸ h with hlt | heq
      · exact (of_decide_eq_true hlt).le
      · exact (of_decide_eq_true heq).ge
    exact WithTop.coe_le_coe.2 (hb.trans (le_max_right 0 q))
  | inf s =>
    cases s with
    | false => exact le_top
    | true => cases h
  | nan => cases h

/-- Factors of at least `2 ^ -j`, for so few days that their product is a float. -/
theorem sustained_of_ge {j : ℕ} (h : ∀ f ∈ fs, ge f (.finite (2 ^ (-j : ℤ))) = true)
    (hlen : j * fs.length ≤ 1074) : Sustained fs := by
  refine scanl_pos_iff.1 (scanl_pos_of_ge (j := j) (k := 0) ?_ (fun f hf => le_rank_of_ge (h f hf)) ?_)
  · exact_mod_cast (by decide +kernel : ((1 : ℚ) : WithTop ℚ) ≤ rank (.finite 1))
  · omega

end Products

/-! ### The report of a usable portfolio -/

/-- Different funds of positive amount, whose entries are REAL with positive NAVs. -/
structure Usable (visits : List (Visit FloatValue)) (funds : FundCache FloatValue) : Prop where
  nonempty : visits ≠ []
  distinct : (visits.map fun v => v.holding.code).Nodup
  shares : ∀ v ∈ visits, Positive v.holding.shares
  real : ∀ e ∈ entriesMet sim visits funds, e.source = .real
  positive : ∀ e ∈ entriesMet sim visits funds, ∀ p ∈ e.points, Positive p.nav

/-- All that is kept. -/
def keptAll (visits : List (Visit FloatValue)) (funds : FundCache FloatValue) :
    List (Kept FloatValue) :=
  (visits.zip (entriesMet sim visits funds)).map fun ve => keptOf ve.1.holding (navsOf ve.2.points)

/-- The total value of the holdings, and the factors of their days. -/
def totalOf (kept : List (Kept FloatValue)) : FloatValue := L.pySum (kept.map Kept.value)

def factorsOf (kept : List (Kept FloatValue)) : List FloatValue :=
  factors L (weightVector L (weightsOfKept L kept) (seriesOfKept kept))
    (matrix (weightsOfKept L kept) (seriesOfKept kept))

/-- What is asked of the report: no holding is skipped, the curve is positive and has metrics, and
there is a report with every code and a drawdown. -/
structure Covers (visits : List (Visit FloatValue)) (funds : FundCache FloatValue) : Prop where
  unskipped : ∀ e ∈ entriesMet sim visits funds, 3 ≤ (navsOf e.points).length
  curve : ∀ v ∈ cumprod (factorsOf L (keptAll sim visits funds)), Positive v
  metrics : (calculateMetrics L (cumprod (factorsOf L (keptAll sim visits funds)))).isSome = true
  report : ∃ r, (portfolioRiskPayload L sim visits funds).1 = .ok (.ok r) ∧
    r.riskContribution.map Prod.fst = visits.map (fun v => v.holding.code) ∧
    r.maxDrawdown.isSome = true

section Report

variable {L sim} {visits : List (Visit FloatValue)} {funds : FundCache FloatValue}

theorem not_isZero_of_positive {v : FloatValue} (h : Positive v) : ¬ isZero v = true := by
  rcases h.inf_or_finite with rfl | ⟨q, rfl, hq⟩
  · exact nofun
  · simpa [isZero] using hq.ne'

theorem Usable.collect (h : Usable sim visits funds) :
    (collect sim visits funds).1 = .ok (some (keptAll sim visits funds)) := by
  refine collectWith_of_real (fun v e => keptOf v.holding (navsOf e.points)) h.real ?_
  intro v e he
  refine if_neg ?_
  rw [List.any_eq_true]
  rintro ⟨x, hx, hzero⟩
  obtain ⟨p, hp, rfl⟩ := List.mem_map.1 (List.mem_of_mem_dropLast hx)
  exact not_isZero_of_positive (h.positive e he p hp) hzero

theorem Usable.codes (h : Usable sim visits funds) :
    (keptAll sim visits funds).map Kept.code = visits.map (fun v => v.holding.code) ∧
      ((keptAll sim visits funds).map Kept.code).Nodup := by
  have hcodes : (keptAll sim visits funds).map Kept.code = visits.map fun v => v.holding.code :=
    codes_keptWith sim (fun v e => keptOf v.holding (navsOf e.points)) (fun _ _ => rfl) visits funds
  rw [hcodes]
  exact ⟨rfl, h.distinct⟩

theorem Usable.size (h : Usable sim visits funds) :
    4 ≤ commonSize ((keptAll sim visits funds).map Kept.returns) := by
  refine le_commonSize ?_ ?_
  · intro hnil
    have hcodes := h.codes.1
    rw [List.map_eq_nil_iff.1 hnil, List.map_nil] at hcodes
    exact h.nonempty (List.map_eq_nil_iff.1 hcodes.symm)
  · intro row hrow
    obtain ⟨k, hk, rfl⟩ := List.mem_map.1 hrow
    obtain ⟨⟨v, e⟩, hve, rfl⟩ := List.mem_map.1 hk
    have hlength := length_navs_of_real (h.real e (List.of_mem_zip hve).2)
    simp only [keptOf, dailyReturns, List.length_zipWith, List.length_tail]
    omega

/-- The weights have the codes that were kept, unless the total is zero. -/
theorem weightsOfKept_cases {kept : List (Kept FloatValue)} (h : (kept.map Kept.code).Nodup) :
    isZero (totalOf L kept) = true ∧ weightsOfKept L kept = [] ∨
      isZero (totalOf L kept) = false ∧
        (weightsOfKept L kept).map Prod.fst = kept.map Kept.code := by
  have hvalues : ((kept.map fun k => (k.code, k.value)).map Prod.snd) = kept.map Kept.value := by
    rw [List.map_map]
    rfl
  rw [weightsOfKept, build_of_nodup h, weightsOf, hvalues, ← totalOf]
  cases isZero (totalOf L kept) with
  | true => exact .inl ⟨rfl, rfl⟩
  | false =>
    refine .inr ⟨rfl, ?_⟩
    rw [if_neg Bool.false_ne_true, List.map_map, List.map_map]
    rfl

/-- There is a report exactly if the curve has metrics, and it names every code. -/
theorem report_ok_iff {codes : List String} {w : List FloatValue} {m : List (List FloatValue)}
    (hcodes : codes.length = w.length) (hrows : m.length = w.length) :
    (∃ r, report L codes w m = .ok (.ok r) ∧ r.riskContribution.map Prod.fst = codes ∧
      r.maxDrawdown.isSome = true) ↔ (calculateMetrics L (cumprod (factors L w m))).isSome = true := by
  unfold report
  cases hperf : calculateMetrics L (cumprod (factors L w m)) with
  | none => simp [buildAlerts, Bind.bind, Except.bind]
  | some metrics =>
    refine ⟨fun _ => rfl, fun _ => ⟨_, rfl, ?_, rfl⟩⟩
    refine List.map_fst_zip ?_
    rw [List.length_map]
    split
    · simp [covarianceMatrix, hcodes, hrows]
    · rw [List.length_map, hcodes]

/-- A positive curve has metrics. -/
theorem calculateMetrics_isSome {navs : List FloatValue} (hlength : 3 ≤ navs.length)
    (hpos : ∀ v ∈ navs, Positive v) : (calculateMetrics L navs).isSome = true := by
  rw [calculateMetrics, if_neg]
  · rfl
  · rintro (hshort | hzero)
    · omega
    · obtain ⟨v, hv, hle⟩ := List.any_eq_true.1 hzero
      rcases (hpos v hv).inf_or_finite with rfl | ⟨q, rfl, hq⟩
      · cases hle
      · rcases Bool.or_eq_true _ _ ▸ hle with hlt | heq
        · exact absurd (of_decide_eq_true hlt) (not_lt.2 hq.le)
        · exact hq.ne (of_decide_eq_true heq)

theorem length_cumprod (fs : List FloatValue) : (cumprod fs).length = fs.length := by
  cases fs with
  | nil => rfl
  | cons f fs => rw [cumprod, List.length_scanl, List.length_cons]

theorem Usable.payload (h : Usable sim visits funds) :
    (portfolioRiskPayload L sim visits funds).1 =
      portfolioRisk L (weightsOfKept L (keptAll sim visits funds))
        (seriesOfKept (keptAll sim visits funds)) := by
  have hcollect := h.collect
  unfold portfolioRiskPayload
  rw [if_neg h.nonempty]
  generalize FloatRisk.collect sim visits funds = result at hcollect
  obtain ⟨outcome, funds'⟩ := result
  simp only at hcollect
  rw [hcollect]

end Report

/-! ### Two portfolios -/

/-- Sums and products from left to right.  The power is of no account below. -/
def inOrder : Linear where
  toNumPy := .inOrder
  dot v w := NumPy.inOrder.sum (List.zipWith mul v w)
  prod xs := xs.foldl mul (.finite 1)
  pow x _ := x
  pySum xs := xs.foldl add (.finite 0)

/-- A holding of a fund for which the provider has these NAVs. -/
def visit (code : String) (navs : List ℚ) : Visit FloatValue :=
  { holding := { code := code, shares := .finite 1 }
    moment :=
      { now := 0
        provider := fun _ _ =>
          { real := some (List.zipWith (fun d v => { date := d, nav := fl v }) tradingDays navs)
            simulated := [], fetchedAt := "" } } }

end FloatRisk

end QuantFlow
