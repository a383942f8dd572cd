/-
**The statistical forecast.**

`backend/app/predictor.py` computes a handful of indicators of the last days of a history and
extrapolates five days from them.  Its random draws (seeded by the fund code) and the calendar
dates of the next days are inputs.

`compute_indicators` divides by earlier NAVs in plain Python, so a zero among them raises, and
`predict` multiplies the latest NAV, so an empty history raises; both are stated in `Except`.

Main definitions:

* `computeIndicators` — the indicators;
* `aggregateNewsSentiment` — the mood of a news list;
* `predict`, `blocked` — the forecast, and what stands in its place when the history is not REAL.
-/

import QuantFlow.News
import QuantFlow.Signals

namespace QuantFlow

namespace Predictor

open Indicators (mean std rsiOf returns)

variable (N : Numerics)

/-! ### Indicators -/

structure Indicators where
  ma5 : List (Option ℚ)
  ma20 : List (Option ℚ)
  momentum5 : ℚ
  momentum20 : ℚ
  volatility : ℚ
  rsi : ℚ
  latestNav : Option ℚ
  prevNav : Option ℚ
  deriving DecidableEq

/-- `navs[-1] / navs[-(w + 1)] - 1`, over the whole list when it is shorter than that. -/
def momentumOver (navs : List ℚ) (w : ℕ) : ℚ :=
  if w + 1 ≤ navs.length then fromEnd navs 1 / fromEnd navs (w + 1) - 1
  else if navs = [] then 0 else fromEnd navs 1 / navs.headD 0 - 1

/-- `compute_indicators(points)`. -/
def computeIndicators (points : List NavPoint) : Except PyError Indicators :=
  let navs := navsOf points
  -- the loop of the returns divides by every NAV but the last; a single NAV is divided by itself
  if 0 ∈ navs.dropLast ∨ navs = [0] then .error .zeroDivision
  else .ok
    { ma5 := QuantFlow.Indicators.ma N navs 5
      ma20 := QuantFlow.Indicators.ma N navs 20
      momentum5 := N.round 2 (momentumOver navs 5 * 100)
      momentum20 := N.round 2 (momentumOver navs 20 * 100)
      volatility := N.round 2 ((if 2 < navs.length then std N (returns navs) else 0) * 100)
      rsi := N.round 1 (if 15 ≤ navs.length then rsiOf (lastN 14 (returns navs)) else 50)
      latestNav := navs.getLast?
      prevNav := if 2 ≤ navs.length then some (fromEnd navs 2) else none }

/-! ### The mood of the news -/

structure Sentiment where
  avgSentiment : ℚ
  pos : ℕ
  neg : ℕ
  count : ℕ
  deriving DecidableEq

/-- `aggregate_news_sentiment(news_items)`. -/
def aggregateNewsSentiment (items : List News.NewsItem) : Sentiment :=
  if items = [] then { avgSentiment := 0, pos := 0, neg := 0, count := 0 }
  else
    let relevant := (items.filter fun n => 0 < n.relevance).take 10
    let top := if relevant = [] then items.take 10 else relevant
    let sents := top.map News.NewsItem.sentiment
    { avgSentiment := N.round 2 (mean sents)
      pos := (sents.filter (1 / 10 < ·)).length
      neg := (sents.filter (· < -1 / 10)).length
      count := top.length }

/-! ### The forecast -/

inductive Direction
  | up
  | down
  | flat
  deriving DecidableEq

structure Prediction where
  direction : Direction
  confidence : ℚ
  predictedNav : Option ℚ
  predictedChangePct : Option ℚ
  indicators : Indicators
  futureDates : List String
  futureNav : List ℚ
  futureUpper : List ℚ
  futureLower : List ℚ
  deriving DecidableEq

/-- The forecast carries no future values. -/
def Prediction.NoFuture (p : Prediction) : Prop :=
  p.predictedNav = none ∧ p.predictedChangePct = none ∧ p.futureDates = [] ∧ p.futureNav = [] ∧
    p.futureUpper = [] ∧ p.futureLower = []

/-- The inputs of a forecast that are not computed: the draws `rng.normal(0, scale)` of the
generator seeded by the code, and the dates of the next days. -/
structure Draws where
  normal : String → ℕ → ℚ → ℚ
  date : ℕ → String

/-- `config.PREDICT_DAYS`. -/
def predictDays : ℕ := 5

/-- The votes of momentum and moving average. -/
def votes (ind : Indicators) (latest : ℚ) : List ℚ :=
  let sign (up : Bool) : ℚ := if up then 1 else -1
  [sign (0 < ind.momentum5), sign (0 < ind.momentum20)] ++
    match ind.ma5.getLast? with
    | some (some m) => if m = 0 then [] else [sign (m < latest)]
    | _ => []

/-- `predict(code, points, sentiment)`. -/
def predict (draws : Draws) (code : String) (points : List NavPoint) (sentiment : Sentiment) :
    Except PyError Prediction := do
  let ind ← computeIndicators N points
  match ind.latestNav with
  | none => .error .typeError
  | some latest =>
    let ns := sentiment.avgSentiment
    let score := mean (votes ind latest)
    let combined := 7 / 10 * score + 3 / 10 * ns
    let expected := max (min (ind.momentum5 / 100 * (1 / 4) + ns * (3 / 1000)) (3 / 100)) (-3 / 100)
    let conf := 45 / 100 + 1 / 4 * |score| + 1 / 10 * min (|ind.momentum5| / 5) 1 +
      1 / 10 * min ((sentiment.count : ℚ) / 8) 1
    let vol := max (ind.volatility / 100) (8 / 1000)
    let step (cur : ℚ) (i : ℕ) : ℚ × ℚ :=
      let cur := cur * (1 + expected + draws.normal code i (vol * (3 / 10)))
      (cur, cur)
    let path := Causal.mapAccum step latest (List.range' 1 predictDays)
    let futureNav := path.map (N.round 4)
    .ok
      { direction := if 15 / 100 < combined then .up
          else if combined < -15 / 100 then .down else .flat
        confidence := N.round 2 (min (max conf (4 / 10)) (9 / 10))
        predictedNav := futureNav.getLast?
        predictedChangePct := some (if latest = 0 then 0
          else N.round 2 ((futureNav.getLastD 0 / latest - 1) * 100))
        indicators := ind
        futureDates := (List.range' 1 predictDays).map draws.date
        futureNav := futureNav
        futureUpper := path.map fun cur => N.round 4 (cur * (1 + vol * (8 / 10)))
        futureLower := path.map fun cur => N.round 4 (cur * (1 - vol * (8 / 10))) }

/-- What `build_state` puts in place of a forecast when the history is not REAL. -/
def blocked (ind : Indicators) : Prediction :=
  { direction := .flat, confidence := 0, predictedNav := none, predictedChangePct := none,
    indicators := ind, futureDates := [], futureNav := [], futureUpper := [], futureLower := [] }

theorem noFuture_blocked (ind : Indicators) : (blocked ind).NoFuture :=
  ⟨rfl, rfl, rfl, rfl, rfl, rfl⟩

end Predictor

end QuantFlow
