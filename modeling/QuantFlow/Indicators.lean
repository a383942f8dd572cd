/-
**The technical indicators and the performance statistics.**

`backend/app/indicators.py` computes its series from a list of NAVs.  Every result is rounded, and
a few use a power or a square root, so the whole module is stated over a `Numerics`: the
host's `round(x, n)`, its power and its square root.  Everything else is exact.

A series has one entry per NAV, `none` in the warm-up part of its window.  NumPy divides by zero
without raising; the quotients below then have the value `0`, which only happens on a series that
contains a zero.

Main definitions:

* `Numerics` — rounding, power and square root;
* `ma`, `ema`, `macd`, `boll`, `kdj`, `rsiSeries`, `computeAll` — the series;
* `perfStats` — return, risk and ratios of a series;
* `valuationTemperature` — the percentile of the distance to the long mean.

Main results:

* `isCausal_ma` — the moving average does not look ahead.
-/

import Mathlib.Algebra.Order.Field.Rat
import Mathlib.Algebra.BigOperators.Group.List.Basic
import QuantFlow.CausalLists
import QuantFlow.DecimalRounding

namespace QuantFlow

/-- The host's numeric functions that are not exact: `round(x, n)`, `x ** y` and `sqrt`. -/
structure Numerics where
  round : ℕ → ℚ → ℚ
  pow : ℚ → ℚ → ℚ
  sqrt : ℚ → ℚ

/-- Rounding as the host performs it, ties to even. -/
def Numerics.python (pow : ℚ → ℚ → ℚ) (sqrt : ℚ → ℚ) : Numerics :=
  { round := Decimal.roundTo, pow := pow, sqrt := sqrt }

/-- Functions that can be run: powers at whole exponents, square roots cut to twelve places. -/
def Numerics.runnable : Numerics :=
  .python (fun x y => x ^ y.num.toNat) fun x => (Nat.sqrt ⌊x * 10 ^ 24⌋.toNat : ℚ) / 10 ^ 12

/-- The functions that can be run, with a rounding that changes nothing. -/
def Numerics.unrounded : Numerics := { Numerics.runnable with round := fun _ x => x }

namespace Indicators

variable (N : Numerics)

/-! ### Sample statistics -/

/-- `np.mean`. -/
def mean (xs : List ℚ) : ℚ := xs.sum / xs.length

/-- The sum of the squared distances to the mean. -/
def sumSq (xs : List ℚ) : ℚ := (xs.map fun x => (x - mean xs) * (x - mean xs)).sum

/-- `np.std(xs)`. -/
def std (xs : List ℚ) : ℚ := N.sqrt (sumSq xs / xs.length)

/-- `np.std(xs, ddof=1)`. -/
def stdSample (xs : List ℚ) : ℚ := N.sqrt (sumSq xs / (xs.length - 1))

/-- The day-to-day returns `v[i] / v[i-1] - 1`. -/
def returns (values : List ℚ) : List ℚ :=
  List.zipWith (fun prev v => v / prev - 1) values values.tail

theorem length_returns (values : List ℚ) : (returns values).length = values.length - 1 := by
  simp [returns]

/-- `np.maximum.accumulate`. -/
def peaks : List ℚ → List ℚ
  | [] => []
  | v :: vs => vs.scanl max v

/-! ### The series -/

/-- `_r(v, n)`.  A rational is never NaN or infinite. -/
def r (n : ℕ) (v : ℚ) : Option ℚ := some (N.round n v)

/-- `values[i + 1 - window : i + 1]`. -/
def window (values : List ℚ) (w i : ℕ) : List ℚ := (values.take (i + 1)).drop (i + 1 - w)

def ma (values : List ℚ) (w : ℕ) : List (Option ℚ) :=
  (List.range values.length).map fun i =>
    if i + 1 < w then none else r N 4 (mean (window values w i))

def ema (values : List ℚ) (w : ℕ) : List (Option ℚ) :=
  match values with
  | [] => []
  | v :: vs =>
    let k : ℚ := 2 / (w + 1)
    (vs.scanl (fun out v => v * k + out * (1 - k)) v).map (r N 4)

/-- The three series of the MACD. -/
structure Macd where
  dif : List (Option ℚ)
  dea : List (Option ℚ)
  hist : List (Option ℚ)

def macd (values : List ℚ) (fast : ℕ := 12) (slow : ℕ := 26) (signal : ℕ := 9) : Macd :=
  if values.length < 2 then { dif := [], dea := [], hist := [] }
  else
    let dif := List.zipWith (fun a b => r N 4 (a.getD 0 - b.getD 0)) (ema N values fast)
      (ema N values slow)
    let dea := ema N (dif.map fun d => d.getD 0) signal
    { dif := dif, dea := dea,
      hist := List.zipWith (fun d s => r N 4 (2 * (d.getD 0 - s.getD 0))) dif dea }

/-- The three Bollinger series. -/
structure Boll where
  mid : List (Option ℚ)
  upper : List (Option ℚ)
  lower : List (Option ℚ)

/-- One Bollinger band, `mult` standard deviations from the rounded mean. -/
def bollBand (values : List ℚ) (w : ℕ) (mult : ℚ) : List (Option ℚ) :=
  (List.range values.length).map fun i =>
    if i + 1 < w then none
    else r N 4 (((ma N values w).getD i none).getD 0 + mult * std N (window values w i))

def boll (values : List ℚ) (w : ℕ := 20) (mult : ℚ := 2) : Boll :=
  { mid := ma N values w, upper := bollBand N values w mult,
    lower := bollBand N values w (-mult) }

/-- The carried pair of `kdj` after day `i`, and the day's triple of outputs. -/
def kdjStep (values : List ℚ) (n m1 m2 : ℕ) (prev : ℚ × ℚ) (i : ℕ) :
    (ℚ × ℚ) × (Option ℚ × Option ℚ × Option ℚ) :=
  if i + 1 < n then (prev, none, none, none)
  else
    let seg := window values n i
    let hi := seg.foldl max (seg.headD 0)
    let lo := seg.foldl min (seg.headD 0)
    let rsv := if hi = lo then 50 else (values.getD i 0 - lo) / (hi - lo) * 100
    let k := ((m1 : ℚ) - 1) / m1 * prev.1 + 1 / m1 * rsv
    let d := ((m2 : ℚ) - 1) / m2 * prev.2 + 1 / m2 * k
    ((k, d), r N 2 k, r N 2 d, r N 2 (3 * k - 2 * d))

/-- The three KDJ series. -/
structure Kdj where
  k : List (Option ℚ)
  d : List (Option ℚ)
  j : List (Option ℚ)

def kdj (values : List ℚ) (n : ℕ := 9) (m1 : ℕ := 3) (m2 : ℕ := 3) : Kdj :=
  let out := Causal.mapAccum (kdjStep N values n m1 m2) (50, 50) (List.range values.length)
  { k := out.map fun t => t.1, d := out.map fun t => t.2.1, j := out.map fun t => t.2.2 }

/-- The relative strength of a segment of returns. -/
def rsiOf (seg : List ℚ) : ℚ :=
  let ag := mean (seg.map fun x => max x 0)
  let al := mean (seg.map fun x => max (-x) 0)
  if al = 0 then 100 else 100 - 100 / (1 + ag / al)

def rsiSeries (values : List ℚ) (w : ℕ := 14) : List (Option ℚ) :=
  if values.length < 2 then List.replicate values.length none
  else
    let rets := 0 :: List.zipWith (fun prev v => if prev = 0 then 0 else v / prev - 1)
      values values.tail
    (List.range values.length).map fun i =>
      if i + 1 ≤ w then none else r N 2 (rsiOf (window rets w i))

/-- Every indicator series of one list of NAVs. -/
structure All where
  ma5 : List (Option ℚ)
  ma10 : List (Option ℚ)
  ma20 : List (Option ℚ)
  ma60 : List (Option ℚ)
  boll : Boll
  macd : Macd
  kdj : Kdj
  rsi : List (Option ℚ)

def computeAll (values : List ℚ) : All :=
  { ma5 := ma N values 5, ma10 := ma N values 10, ma20 := ma N values 20, ma60 := ma N values 60,
    boll := boll N values, macd := macd N values, kdj := kdj N values,
    rsi := rsiSeries N values }

/-! ### Performance statistics -/

structure PerfStats where
  totalReturn : ℚ
  annualReturn : ℚ
  volatility : ℚ
  maxDrawdown : ℚ
  sharpe : ℚ
  sortino : ℚ
  calmar : ℚ
  downsideDev : ℚ
  winRate : ℚ
  days : ℕ
  deriving DecidableEq

/-- The worst fall from the running peak, `min((arr - peak) / peak)`. -/
def maxDrawdown (values : List ℚ) : ℚ :=
  (List.zipWith (fun v p => (v - p) / p) values (peaks values)).foldl min 0

def perfStats (values : List ℚ) (periodsPerYear : ℚ := 252) (riskFree : ℚ := 0) : PerfStats :=
  if values.length < 2 then
    { totalReturn := 0, annualReturn := 0, volatility := 0, maxDrawdown := 0, sharpe := 0,
      sortino := 0, calmar := 0, downsideDev := 0, winRate := 0, days := values.length }
  else
    let rets := returns values
    let total := values.getLastD 0 / values.headD 0 - 1
    let n := values.length - 1
    let annual := N.pow (1 + total) (periodsPerYear / (max n 1 : ℕ)) - 1
    let stdRet := std N rets
    let mdd := maxDrawdown values
    let down := rets.filter (· < 0)
    let downsideDev := if down = [] then 0 else std N down * N.sqrt periodsPerYear
    { totalReturn := N.round 2 (total * 100)
      annualReturn := N.round 2 (annual * 100)
      volatility := N.round 2 (stdRet * N.sqrt periodsPerYear * 100)
      maxDrawdown := N.round 2 (mdd * 100)
      sharpe := N.round 2 (if stdRet > 0 then
        (mean rets * periodsPerYear - riskFree) / (stdRet * N.sqrt periodsPerYear) else 0)
      sortino := N.round 2 (if downsideDev > 0 then (annual - riskFree) / downsideDev
        else if annual ≤ 0 then 0 else 999 / 100)
      calmar := N.round 2 (if mdd < 0 then annual / |mdd| else 0)
      downsideDev := N.round 2 (downsideDev * 100)
      winRate := N.round 1 (((rets.filter (· > 0)).length : ℚ) / rets.length * 100)
      days := values.length }

/-- The label of a valuation temperature. -/
inductive Heat
  | low
  | fair
  | high
  deriving DecidableEq

structure Valuation where
  temp : ℚ
  label : Heat
  navPctRank : ℚ
  maRatio : Option ℚ
  deriving DecidableEq

/-- The percentile of the latest distance to the long mean. -/
def valuationTemperature (values : List ℚ) (maWindow : ℕ := 60) : Valuation :=
  let neutral : Valuation := { temp := 50, label := .fair, navPctRank := 50, maRatio := none }
  if values.length < 30 then neutral
  else
    let mw := min maWindow (max 20 (values.length / 3))
    -- `if mas[i]` drops both the warm-up entries and a mean of zero
    let ratio := (List.zip values (ma N values mw)).filterMap fun vm =>
      match vm.2 with
      | some m => if m = 0 then none else some (vm.1 / m)
      | none => none
    if ratio.length < 5 then neutral
    else
      let cur := ratio.getLastD 0
      let temp := N.round 1 (((ratio.filter (· ≤ cur)).length : ℚ) / ratio.length * 100)
      { temp := temp
        label := if temp < 30 then .low else if 70 < temp then .high else .fair
        navPctRank :=
          N.round 1 (((values.filter (· ≤ values.getLastD 0)).length : ℚ) / values.length * 100)
        maRatio := some (N.round 3 cur) }

/-! ### The moving average does not look ahead -/

theorem length_ma (values : List ℚ) (w : ℕ) : (ma N values w).length = values.length := by
  simp [ma]

theorem isCausal_ma (w : ℕ) : Causal.IsCausal fun values => ma N values w := by
  refine Causal.isCausal_rangeMap fun xs ys i h => ?_
  simp only [window, h]

end Indicators

end QuantFlow
