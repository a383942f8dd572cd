/-
**The backtest engine.**

`backend/app/backtest.py` turns a history into a daily target position, executes it a day later and
compounds the result.  A signal of day `i - 1` is executed on day `i`: the loop pairs each day with
the signal and the NAV of the day before, so its input is the list of pairs of neighbouring points
together with the signals of the earlier ones, and its states after each day are the entries of
the equity and position series.

The source runs the loop a second time without fees to report the gross result beside the net one.

Main definitions:

* `signalsMa`, `signalsMomentum` — the daily signals;
* `LoopState`, `dayStep` — the execution loop;
* `runOnce` — one run, without the gross part;
* `run` — the whole function, with its two failures.

Main results:

* `signal_zero_or_one` — a signal is `0` or `1`;
* `position_eq` — **the position series is the signal series shifted by one day**;
* `clamp_idem` — the windows reported by a run are the windows it uses.
-/

import QuantFlow.Indicators
import QuantFlow.Schemas

namespace QuantFlow

namespace Backtest

variable (N : Numerics)

/-! ### Signals -/

section Rules

variable {V : Type} [LT V] [DecidableLT V]

/-- One day of the crossover rule: the carried state, and the day's signal. -/
def maStep (cur : ℤ) (sl : Option V × Option V) : ℤ × ℤ :=
  match sl with
  | (some s, some l) =>
    let cur' := if s > l then 1 else if s < l then 0 else cur
    (cur', cur')
  | _ => (cur, 0)

/-- `_signals_momentum`: hold while the return over the window is positive. -/
def signalsMomentum [Zero V] (navs : List V) (window : ℕ) : List ℤ :=
  (List.range navs.length).map fun i =>
    if i < window then 0
    else if navs.getD i 0 > navs.getD (i - window) 0 then 1 else 0

end Rules

/-- `_signals_ma`: hold from the day the short average is above the long one until it is below. -/
def signalsMa (navs : List ℚ) (short long : ℕ) : List ℤ :=
  Causal.mapAccum maStep 0 ((Indicators.ma N navs short).zip (Indicators.ma N navs long))

/-- The strategies a caller can name.  Any other text selects the last branch of `run`. -/
inductive Strategy
  | maCross
  | momentum
  | buyHold
  | other (name : String)
  deriving DecidableEq

/-- The strategies the program offers. -/
def Strategy.Known : Strategy → Prop
  | .other _ => False
  | _ => True

instance : DecidablePred Strategy.Known
  | .maCross => isTrue trivial
  | .momentum => isTrue trivial
  | .buyHold => isTrue trivial
  | .other _ => isFalse id

def rawPos (strategy : Strategy) (navs : List ℚ) (short long : ℤ) : List ℤ :=
  match strategy with
  | .momentum => signalsMomentum navs short.toNat
  | .buyHold => List.replicate navs.length 1
  | _ => signalsMa N navs short.toNat long.toNat

/-! ### Parameters -/

/-- The five fee parameters, with the defaults of the signature. -/
structure Fees where
  feeBps : ℚ := 15
  managementFee : ℚ := 0
  subscriptionFee : ℚ := 0
  redemptionFee : ℚ := 0
  transactionCost : ℚ := 0
  deriving DecidableEq

/-- The fees of the gross run. -/
def Fees.zero : Fees :=
  { feeBps := 0, managementFee := 0, subscriptionFee := 0, redemptionFee := 0,
    transactionCost := 0 }

/-- `max(2, min(int(short), 120))`. -/
def clampShort (short : ℤ) : ℤ := max 2 (min short 120)

/-- `max(short + 1, min(int(long), 250))`, with the clamped `short`. -/
def clampLong (short long : ℤ) : ℤ := max (short + 1) (min long 250)

/-- The rate charged on each change of position. -/
def Fees.transaction (fees : Fees) : ℚ := max 0 fees.transactionCost + fees.feeBps / 10000

/-- The one-time charge when the position becomes `target`, cut to `[0, 0.99]`. -/
def Fees.oneTime (fees : Fees) (target : ℤ) : ℚ :=
  min (max (fees.transaction +
    if target = 1 then fees.subscriptionFee else fees.redemptionFee) 0) (99 / 100)

/-- The management fee of one day. -/
def Fees.daily (fees : Fees) : ℚ := max 0 fees.managementFee / 252

/-! ### The execution loop -/

structure Trade where
  entryDate : String
  entryNav : ℚ
  exitDate : String
  exitNav : ℚ
  returnPct : ℚ
  win : Bool
  deriving DecidableEq

/-- What the loop carries from day to day; `equity` and `holding` are the entries it appends to
the two series. -/
structure LoopState where
  equity : ℚ
  holding : ℤ
  entry : Option (ℚ × String)
  trades : List Trade
  deriving DecidableEq

def LoopState.init : LoopState := { equity := 1, holding := 0, entry := none, trades := [] }

/-- A day of the loop: the signal of the day before, the point of the day before, the point. -/
abbrev Day (V : Type := ℚ) := ℤ × NavPoint V × NavPoint V

/-- The record of a trade entered at `entry` and closed, or valued, at the point `p`. -/
def tradeOf (entry : ℚ × String) (exitDate : String) (exitNav : ℚ) : Trade :=
  let pnl := exitNav / entry.1 - 1
  { entryDate := entry.2, entryNav := N.round 4 entry.1, exitDate := exitDate,
    exitNav := N.round 4 exitNav, returnPct := N.round 2 (pnl * 100), win := pnl > 0 }

/-- `if entry_price:` — an entry at a price that is not zero. -/
def openEntry (s : LoopState) : Option (ℚ × String) := s.entry.filter fun e => e.1 ≠ 0

/-- The body of the loop of `run` for one day. -/
def dayStep (fees : Fees) (s : LoopState) (day : Day) : LoopState :=
  let target := day.1
  let ret := day.2.2.nav / day.2.1.nav - 1
  let eq := s.equity * (1 + ret * s.holding) * (1 - fees.daily)
  if target = s.holding then { s with equity := N.round 6 eq }
  else
    let eq := eq * (1 - fees.oneTime target)
    if target = 1 then
      { s with equity := N.round 6 eq, holding := 1, entry := some (day.2.2.nav, day.2.2.date) }
    else
      { equity := N.round 6 eq, holding := 0, entry := none,
        trades := s.trades ++ ((openEntry s).map fun e =>
          tradeOf N e day.2.2.date day.2.2.nav).toList }

/-- The days of the loop, `i = 1, …, n - 1`. -/
def days {V : Type} (raw : List ℤ) (points : List (NavPoint V)) : List (Day V) :=
  raw.zip (points.zip points.tail)

/-- The states of the loop: the initial one and the one after each day. -/
def states (fees : Fees) (raw : List ℤ) (points : List NavPoint) : List LoopState :=
  (days raw points).scanl (dayStep N fees) LoopState.init

/-! ### The result -/

inductive MarkType
  | buy
  | sell
  deriving DecidableEq

structure Mark where
  date : String
  nav : ℚ
  type : MarkType
  deriving DecidableEq

/-- The mark at index `i`: the position differs from the day before. -/
def markAt (points : List NavPoint) (position : List ℤ) (i : ℕ) : Option (ℕ × Mark) :=
  match points[i]?, position[i]?, position[i - 1]? with
  | some p, some cur, some prev =>
    if cur = prev then none
    else some (i, { date := p.date, nav := N.round 4 p.nav,
                    type := if cur = 1 then .buy else .sell })
  | _, _, _ => none

/-- The marks with the indices they are placed at. -/
def placedMarks (points : List NavPoint) (position : List ℤ) : List (ℕ × Mark) :=
  (List.range' 1 (points.length - 1)).filterMap (markAt N points position)

/-- The parameters a run reports. -/
structure Params where
  short : ℤ
  long : ℤ
  fees : Fees
  execution : String
  deriving DecidableEq

structure Stats where
  perf : Indicators.PerfStats
  tradeCount : ℕ
  tradeWinRate : ℚ
  excessReturn : ℚ
  holdingRatio : ℚ
  deriving DecidableEq

/-- The fields added when the gross run is included. -/
structure Gross where
  grossEquity : List ℚ
  grossReturn : ℚ
  netReturn : ℚ
  strategyReturn : ℚ
  benchmarkReturn : ℚ
  excessReturn : ℚ
  deriving DecidableEq

structure Result where
  strategy : Strategy
  strategyName : String
  params : Params
  dates : List String
  equity : List ℚ
  benchmark : List ℚ
  position : List ℤ
  marks : List Mark
  trades : List Trade
  stats : Stats
  benchmarkStats : Indicators.PerfStats
  gross : Option Gross
  deriving DecidableEq

def strategyName (strategy : Strategy) (short long : ℤ) : String :=
  match strategy with
  | .momentum => s!"动量策略（{short}日）"
  | .buyHold => "买入持有"
  | _ => s!"双均线策略（MA{short}/MA{long}）"

/-- The open trade at the end, valued at the last NAV. -/
def openTrade (s : LoopState) (lastNav : ℚ) : Option Trade :=
  if s.holding = 1 then (openEntry s).map fun e => tradeOf N e "持仓中" lastNav else none

/-- `benchmark = [round(v / navs[0], 6) for v in navs]`. -/
def benchmarkOf (navs : List ℚ) : List ℚ := navs.map fun v => N.round 6 (v / navs.headD 0)

/-- `run(…, _include_gross=False)` on a history the loop can divide by. -/
def runOnce (points : List NavPoint) (strategy : Strategy) (short long : ℤ) (fees : Fees) :
    Result :=
  let navs := navsOf points
  let short := clampShort short
  let long := clampLong short long
  let sts := states N fees (rawPos N strategy navs short long) points
  let final := sts.getLastD LoopState.init
  let equity := sts.map LoopState.equity
  let position := sts.map LoopState.holding
  let benchmark := benchmarkOf N navs
  let st := Indicators.perfStats N equity
  let bm := Indicators.perfStats N benchmark
  let closed := final.trades
  let openT := openTrade N final (navs.getLastD 0)
  let all := closed ++ openT.toList
  { strategy := strategy
    strategyName := strategyName strategy short long
    params := { short := short, long := long, fees := fees,
                execution := "signal_t_execute_t_plus_1" }
    dates := points.map NavPoint.date
    equity := equity
    benchmark := benchmark
    position := position
    marks := (placedMarks N points position).map Prod.snd
    trades := all.drop (all.length - 30)
    stats :=
      { perf := st
        tradeCount := closed.length + openT.toList.length
        tradeWinRate := if closed = [] then 0
          else N.round 1 (((closed.filter Trade.win).length : ℚ) / closed.length * 100)
        excessReturn := N.round 2 (st.totalReturn - bm.totalReturn)
        holdingRatio := N.round 1 ((position.sum : ℚ) / position.length * 100) }
    benchmarkStats := bm
    gross := none }

/-- The fields a net run takes from the gross run and from itself. -/
def grossPart (net gross : Result) : Gross :=
  { grossEquity := gross.equity
    grossReturn := gross.stats.perf.totalReturn
    netReturn := net.stats.perf.totalReturn
    strategyReturn := net.stats.perf.totalReturn
    benchmarkReturn := net.benchmarkStats.totalReturn
    excessReturn := net.stats.excessReturn }

def withGross (net gross : Result) : Result := { net with gross := some (grossPart net gross) }

/-- How `run` fails: the dict with an error message, or an exception. -/
inductive RunError
  | reported (message : String)
  | raised (error : PyError)
  deriving DecidableEq

/-- `run`.  The loop and the benchmark divide by every NAV but the last; the loop has no effect
outside itself, so a zero among them is found up front. -/
def run (points : List NavPoint) (strategy : Strategy) (short long : ℤ) (fees : Fees) :
    Except RunError Result :=
  if points.length < 5 then .error (.reported "历史数据不足，无法回测")
  else if 0 ∈ (navsOf points).dropLast then .error (.raised .zeroDivision)
  else
    let result := runOnce N points strategy short long fees
    let gross := runOnce N points strategy result.params.short result.params.long Fees.zero
    .ok (withGross result gross)

/-! ### What the signals are -/

@[simp] theorem length_signalsMa (navs : List ℚ) (short long : ℕ) :
    (signalsMa N navs short long).length = navs.length := by
  simp [signalsMa, Indicators.length_ma]

@[simp] theorem length_rawPos (strategy : Strategy) (navs : List ℚ) (short long : ℤ) :
    (rawPos N strategy navs short long).length = navs.length := by
  cases strategy <;> simp [rawPos, signalsMomentum]

/-- The crossover loop carries `0` or `1`, and writes `0` or `1`. -/
theorem maStep_zero_or_one {V : Type} [LT V] [DecidableLT V] (cur : ℤ) (sl : Option V × Option V)
    (h : cur = 0 ∨ cur = 1) :
    ((maStep cur sl).1 = 0 ∨ (maStep cur sl).1 = 1) ∧
      ((maStep cur sl).2 = 0 ∨ (maStep cur sl).2 = 1) := by
  obtain ⟨s, l⟩ := sl
  cases s with
  | none => exact ⟨h, Or.inl rfl⟩
  | some s =>
    cases l with
    | none => exact ⟨h, Or.inl rfl⟩
    | some l =>
      simp only [maStep]
      split_ifs
      · exact ⟨Or.inr rfl, Or.inr rfl⟩
      · exact ⟨Or.inl rfl, Or.inl rfl⟩
      · exact ⟨h, h⟩

/-- **A signal is `0` or `1`.** -/
theorem signal_zero_or_one (strategy : Strategy) (navs : List ℚ) (short long : ℤ) :
    ∀ x ∈ rawPos N strategy navs short long, x = 0 ∨ x = 1 := by
  have hma : ∀ x ∈ signalsMa N navs short.toNat long.toNat, x = 0 ∨ x = 1 :=
    Causal.forall_mem_mapAccum (I := fun cur => cur = 0 ∨ cur = 1)
      (fun cur sl _ => maStep_zero_or_one cur sl) (Or.inl rfl)
  cases strategy with
  | maCross => exact hma
  | other _ => exact hma
  | buyHold =>
    intro x hx
    exact Or.inr (List.eq_of_mem_replicate hx)
  | momentum =>
    intro x hx
    obtain ⟨i, -, rfl⟩ := List.mem_map.1 hx
    split_ifs <;> simp

/-- Every signal is computed from the NAVs up to its own day. -/
theorem isCausal_rawPos (strategy : Strategy) (short long : ℤ) :
    Causal.IsCausal fun navs => rawPos N strategy navs short long := by
  have hma : Causal.IsCausal fun navs => signalsMa N navs short.toNat long.toNat :=
    (Causal.isCausal_mapAccum maStep 0).comp
      ((Indicators.isCausal_ma N _).zip (Indicators.isCausal_ma N _))
  cases strategy with
  | maCross => exact hma
  | other _ => exact hma
  | buyHold => exact Causal.isCausal_const_replicate 1
  | momentum =>
    refine Causal.isCausal_rangeMap fun xs ys i h => ?_
    rw [Causal.getD_eq_of_take 0 h (by omega), Causal.getD_eq_of_take 0 h (by omega)]

/-! ### The position is the shifted signal -/

/-- After a day the loop holds what the signal of the day before asked for. -/
theorem dayStep_holding (fees : Fees) (s : LoopState) {day : Day}
    (hday : day.1 = 0 ∨ day.1 = 1) : (dayStep N fees s day).holding = day.1 := by
  simp only [dayStep]
  split_ifs with h₁ h₂
  · exact h₁.symm
  · exact h₂.symm
  · rcases hday with h | h
    · exact h.symm
    · exact absurd h h₂

theorem map_fst_days {V : Type} {raw : List ℤ} {points : List (NavPoint V)}
    (h : raw.length = points.length) :
    (days raw points).map Prod.fst = raw.dropLast := by
  have hlen : (points.zip points.tail).length = raw.length - 1 := by
    simp only [List.length_zip, List.length_tail]
    omega
  have hmin : min raw.length (raw.length - 1) = raw.length - 1 := by omega
  rw [days, List.zip_eq_zip_take_min, hlen, hmin, ← List.dropLast_eq_take,
    List.map_fst_zip (by simp [hlen])]

/-- **The position series is the signal series shifted by one day.** -/
theorem position_eq (fees : Fees) (strategy : Strategy) (short long : ℤ)
    (points : List NavPoint) :
    (states N fees (rawPos N strategy (navsOf points) short long) points).map LoopState.holding =
      0 :: (rawPos N strategy (navsOf points) short long).dropLast := by
  have hlen : (rawPos N strategy (navsOf points) short long).length = points.length := by
    simp [navsOf]
  rw [states, ← map_fst_days hlen]
  refine Causal.map_scanl_eq (f := dayStep N fees) (g := Prod.fst) (fun s d hd => ?_) LoopState.init
  exact dayStep_holding N fees s
    (signal_zero_or_one N strategy _ short long d.1 (List.of_mem_zip hd).1)

theorem position_runOnce (strategy : Strategy) (short long : ℤ) (fees : Fees)
    (points : List NavPoint) :
    (runOnce N points strategy short long fees).position =
      0 :: (rawPos N strategy (navsOf points) (clampShort short)
        (clampLong (clampShort short) long)).dropLast :=
  position_eq N fees strategy _ _ points

theorem length_states (fees : Fees) {raw : List ℤ} {points : List NavPoint}
    (h : raw.length = points.length) (hne : points ≠ []) :
    (states N fees raw points).length = points.length := by
  have hpos : 0 < points.length := List.length_pos_iff.2 hne
  simp only [states, days, List.length_scanl, List.length_zip, List.length_tail]
  omega

/-! ### When a run succeeds -/

/-- The clamped windows are in the range that clamping leaves alone. -/
theorem clamp_idem (short long : ℤ) :
    clampShort (clampShort short) = clampShort short ∧
      clampLong (clampShort short) (clampLong (clampShort short) long) =
        clampLong (clampShort short) long := by
  simp only [clampShort, clampLong]
  omega

/-- On five or more points with positive NAVs `run` returns a result. -/
theorem run_eq_ok {points : List NavPoint} (hlen : 5 ≤ points.length)
    (hpos : ∀ p ∈ points, 0 < p.nav) (strategy : Strategy) (short long : ℤ) (fees : Fees) :
    run N points strategy short long fees = .ok
      (withGross (runOnce N points strategy short long fees)
        (runOnce N points strategy (clampShort short) (clampLong (clampShort short) long)
          Fees.zero)) := by
  have hzero : (0 : ℚ) ∉ (navsOf points).dropLast := by
    intro h
    obtain ⟨p, hp, hp0⟩ := List.mem_map.1 (List.dropLast_subset _ h)
    exact absurd hp0 (ne_of_gt (hpos p hp))
  rw [run, if_neg (by omega), if_neg hzero]
  rfl

/-- Five trading days that end at `last`. -/
def fiveDays (last : ℚ) : List NavPoint :=
  [{ date := "2026-01-05", nav := 1 }, { date := "2026-01-06", nav := 11 / 10 },
    { date := "2026-01-07", nav := 12 / 10 }, { date := "2026-01-08", nav := 13 / 10 },
    { date := "2026-01-09", nav := last }]

example : (run Numerics.runnable (fiveDays 2) .momentum 2 20 {}).toOption.map Result.position =
    some [0, 0, 0, 1, 1] := by decide +kernel

end Backtest

end QuantFlow
