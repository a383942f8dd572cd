/-
**The signal engine and the risk metrics.**

The research signal (`backend/app/signals/engine.py`) joins four features
(`backend/app/features/`) of one list of NAVs, and the risk metrics
(`backend/app/risk/metrics.py`) summarise the same list.  A label other than `REAL` blocks the
signal before any feature is computed.

The trend feature divides by a mean; a series whose last twenty NAVs average to zero makes it
raise, so the engine is stated in `Except`.

Main definitions:

* `trendScore`, `momentumScore`, `sentimentScore`, `riskScore` — the features;
* `computeSignal` — the signal of a labelled series;
* `Risk.calculateMetrics` — the risk metrics of a series.

Main results:

* `computeSignal_of_not_real` — **a series that is not REAL has the blocked signal**.
-/

import QuantFlow.Indicators
import QuantFlow.Schemas

namespace QuantFlow

/-- `config.SIGNAL_VERSION`. -/
def signalVersion : String := "signal-v1"

/-- `xs[-k]`. -/
def fromEnd (xs : List ℚ) (k : ℕ) : ℚ := xs.getD (xs.length - k) 0

/-- `xs[-k:]`. -/
def lastN {α : Type} (k : ℕ) (xs : List α) : List α := xs.drop (xs.length - k)

theorem length_lastN {α : Type} {k : ℕ} {xs : List α} (h : k ≤ xs.length) :
    (lastN k xs).length = k := by
  rw [lastN, List.length_drop]
  omega

namespace Signals

open Indicators (mean stdSample)

variable (N : Numerics)

/-! ### Features -/

/-- `round(min(100.0, max(0.0, raw)), 2)`, the last step of every feature. -/
def toScore (raw : ℚ) : ℚ := N.round 2 (min 100 (max 0 raw))

/-- `trend.score`. -/
def trendScore (navs : List ℚ) : Except PyError ℚ :=
  if navs.length < 20 then .ok 50
  else
    let latest := fromEnd navs 1
    let ma5 := mean (lastN 5 navs)
    let ma20 := mean (lastN 20 navs)
    if ma20 = 0 then .error .zeroDivision
    else .ok (toScore N (50 + 600 * (latest / ma20 - 1) + 300 * (ma5 / ma20 - 1)))

/-- `momentum.score`. -/
def momentumScore (navs : List ℚ) : ℚ :=
  if navs.length < 6 ∨ fromEnd navs 6 = 0 then 50
  else
    let ret5 := fromEnd navs 1 / fromEnd navs 6 - 1
    let ret20 := if 21 ≤ navs.length ∧ fromEnd navs 21 ≠ 0
      then fromEnd navs 1 / fromEnd navs 21 - 1 else ret5
    toScore N (50 + 350 * ret5 + 180 * ret20)

/-- `sentiment.score`. -/
def sentimentScore (values : List ℚ) : ℚ :=
  if values = [] then 50 else toScore N (50 + 50 * values.sum / values.length)

/-- `np.diff(navs) / navs[:-1]`. -/
def diffReturns (navs : List ℚ) : List ℚ :=
  List.zipWith (fun prev v => (v - prev) / prev) navs navs.tail

/-- `volatility.annualized`. -/
def annualized (navs : List ℚ) : Option ℚ :=
  if navs.length < 3 then none else some (stdSample N (diffReturns navs) * N.sqrt 252)

/-- `volatility.risk_score`. -/
def riskScore (navs : List ℚ) : ℚ :=
  match annualized N navs with
  | none => 50
  | some vol => toScore N (vol / (45 / 100) * 100)

/-! ### The engine -/

inductive State
  | positive
  | neutral
  | negative
  | unavailable
  deriving DecidableEq

inductive Status
  | ok
  | insufficientData
  | blockedSimulatedData
  deriving DecidableEq

structure SignalResult where
  trendScore : Option ℚ := none
  momentumScore : Option ℚ := none
  sentimentScore : Option ℚ := none
  riskScore : Option ℚ := none
  overallScore : Option ℚ := none
  confidence : ℚ := 0
  state : State
  status : Status
  signalVersion : String
  deriving DecidableEq

/-- The answer of a guard: no scores, and the reason in `status`. -/
def unavailable (status : Status) : SignalResult :=
  { state := .unavailable, status := status, signalVersion := QuantFlow.signalVersion }

/-- The signal of the four features. -/
def combine (ts ms ss rs : ℚ) : SignalResult :=
  let overall := N.round 2 (45 / 100 * ts + 35 / 100 * ms + 20 / 100 * ss)
  let agreement := 1 - min 1 ((max (max ts ms) ss - min (min ts ms) ss) / 100)
  { trendScore := some ts, momentumScore := some ms, sentimentScore := some ss,
    riskScore := some rs, overallScore := some overall,
    confidence := N.round 2 (min (95 / 100) (max (35 / 100)
      (45 / 100 + 35 / 100 * agreement + 15 / 100 * |overall - 50| / 50))),
    state := if 60 ≤ overall then .positive else if overall ≤ 40 then .negative else .neutral,
    status := .ok, signalVersion := QuantFlow.signalVersion }

/-- `compute_signal(navs, sentiment_values, data_source)`. -/
def computeSignal (navs sentimentValues : List ℚ) (source : DataSource) :
    Except PyError SignalResult :=
  if permitsResearch source = false then .ok (unavailable .blockedSimulatedData)
  else if navs.length < 20 then .ok (unavailable .insufficientData)
  else do
    let ts ← trendScore N navs
    .ok (combine N ts (momentumScore N navs) (sentimentScore N sentimentValues)
      (riskScore N navs))

/-- **A series that is not REAL has the blocked signal**, whatever its NAVs are. -/
theorem computeSignal_of_not_real {source : DataSource} (hs : source ≠ .real)
    (navs values : List ℚ) :
    computeSignal N navs values source = .ok (unavailable .blockedSimulatedData) := by
  simp [computeSignal, permitsResearch, hs]

end Signals

namespace Risk

open Indicators (stdSample peaks)
open Signals (diffReturns)

variable (N : Numerics)

/-! ### Risk metrics -/

structure Metrics (V : Type := ℚ) where
  annualReturn : V
  volatility : V
  downsideVolatility : V
  maxDrawdown : V
  sharpe : Option V
  sortino : Option V
  calmar : Option V
  deriving DecidableEq

/-- `round(x / y, 6) if y else None`. -/
def ratio (x y : ℚ) : Option ℚ := if y = 0 then none else some (N.round 6 (x / y))

/-- `calculate_metrics(navs, risk_free_rate)`; `none` is the status `insufficient_data`. -/
def calculateMetrics (navs : List ℚ) (riskFreeRate : ℚ := 0) : Option Metrics :=
  if navs.length < 3 ∨ ∃ v ∈ navs, v ≤ 0 then none
  else
    let rets := diffReturns navs
    let annualReturn :=
      N.pow (navs.getLastD 0 / navs.headD 0) (252 / (max 1 rets.length : ℕ)) - 1
    let volatility := stdSample N rets * N.sqrt 252
    let downside := rets.filter (· < 0)
    let downsideVol := if 1 < downside.length then stdSample N downside * N.sqrt 252 else 0
    let falls := List.zipWith (fun v p => v / p - 1) navs (peaks navs)
    let maxDrawdown := falls.foldl min (falls.headD 0)
    let excess := annualReturn - riskFreeRate
    some
      { annualReturn := N.round 6 annualReturn
        volatility := N.round 6 volatility
        downsideVolatility := N.round 6 downsideVol
        maxDrawdown := N.round 6 maxDrawdown
        sharpe := ratio N excess volatility
        sortino := ratio N excess downsideVol
        calmar := ratio N annualReturn |maxDrawdown| }

/-- Three positive values are enough for metrics. -/
theorem not_insufficient {navs : List ℚ} (hlen : 3 ≤ navs.length) (hpos : ∀ v ∈ navs, 0 < v) :
    ¬ (navs.length < 3 ∨ ∃ v ∈ navs, v ≤ 0) := by
  rintro (hshort | ⟨v, hv, hle⟩)
  · omega
  · exact absurd (hpos v hv) (not_lt.2 hle)

end Risk

end QuantFlow
