/-
**The backtest of a regular investment plan.**

`backend/app/dca.py` replays a plan over a history of NAVs: at evenly spaced points of the history
it buys for a fixed amount (the normal plan), or trades up or down to a target value that grows by
the amount each period (value averaging).  A loop carries the shares, the net and gross sums paid
in and taken out, and appends one entry per period to each reported series.  At the end the shares
are valued at the last NAV of the history, and a bisection looks for the annual rate at which the
cash flows discount to zero.

Amounts are exact rationals and every rounding is the host's (`Numerics.round`).  The
host's `strptime` is a parameter that gives the number of a date's day, or nothing when it refuses
the text.  Powers of a positive base are not zero, so that discounting never divides by zero.  The
parameter `periods_per_year`, which the code does not read, is left out.

Main definitions:

* `pickInvestIndices`, `investPoints` — the points of the history a plan trades at;
* `trade`, `period`, `loop` — one trade, one period, the loop;
* `presentValue`, `xirr` — discounted cash flows and the rate the bisection finds;
* `run` — the whole backtest.

Main results:

* `investPoints_cons` — a plan trades at the first point of the history;
* `run_eq_ok` — on at least ten points of positive NAV the backtest succeeds.
-/

import Mathlib.Data.List.Range
import QuantFlow.Backtest

namespace QuantFlow

namespace Dca

/-! ### The plan -/

/-- `freq`; any text but `weekly` is taken as monthly. -/
inductive Freq
  | monthly
  | weekly
  | other (name : String)
  deriving DecidableEq

/-- `strategy`; any text but `value_avg` is taken as the normal plan. -/
inductive Strategy
  | normal
  | valueAvg
  | other (name : String)
  deriving DecidableEq

/-- `list(range(0, n, step))` for a positive step. -/
def rangeStep (n step : ℕ) : List ℕ := List.range' 0 ((n + step - 1) / step) step

/-- `max(1, round(n / max(1, int(n / per))))`. -/
def spacing (n per : ℕ) : ℕ := (max 1 (Decimal.halfEven ((n : ℚ) / (max 1 (n / per) : ℕ)))).toNat

/-- `_pick_invest_indices`. -/
def pickInvestIndices (n : ℕ) (freq : Freq) : List ℕ :=
  match freq with
  | .weekly => rangeStep n (max 1 (spacing n 5))
  | _ => rangeStep n (max 1 (spacing n 21))

/-- The indices `run` trades at. -/
def investIndices (n : ℕ) (freq : Freq) : List ℕ :=
  let idxs := pickInvestIndices n freq
  if idxs.length < 2 then rangeStep n (max 1 (n / 2)) else idxs

/-- The points `run` trades at. -/
def investPoints (points : List NavPoint) (freq : Freq) : List NavPoint :=
  (investIndices points.length freq).filterMap fun i => points[i]?

/-! ### The loop -/

variable (N : Numerics)

/-- What the loop of `run` carries. -/
structure State where
  shares : ℚ := 0
  principal : ℚ := 0
  grossIn : ℚ := 0
  redeemed : ℚ := 0
  investCf : List ℚ := []
  investAmt : List ℚ := []
  costSeries : List ℚ := []
  valueSeries : List ℚ := []
  navSeries : List ℚ := []
  dateSeries : List String := []
  valueTarget : ℚ := 0
  deriving DecidableEq

def State.buy (s : State) (buy nav : ℚ) : State :=
  { s with
    shares := s.shares + buy / nav
    principal := s.principal + buy
    grossIn := s.grossIn + buy
    investAmt := s.investAmt ++ [N.round 2 buy]
    investCf := s.investCf ++ [-N.round 2 buy] }

def State.sell (s : State) (sell nav : ℚ) : State :=
  { s with
    shares := s.shares - sell / nav
    principal := s.principal - sell
    redeemed := s.redeemed + sell
    investAmt := s.investAmt ++ [N.round 2 (-sell)]
    investCf := s.investCf ++ [N.round 2 sell] }

/-- The entries a period appends to the reported series. -/
def State.record (s : State) (p : NavPoint) : State :=
  { s with
    valueSeries := s.valueSeries ++ [N.round 2 (s.shares * p.nav)]
    costSeries := s.costSeries ++ [N.round 2 s.principal]
    navSeries := s.navSeries ++ [N.round 4 p.nav]
    dateSeries := s.dateSeries ++ [p.date] }

def trade (strategy : Strategy) (amount fee : ℚ) (s : State) (nav : ℚ) : State :=
  let portValue := s.shares * nav
  match strategy with
  | .valueAvg =>
    let s := { s with valueTarget := s.valueTarget + amount }
    let need := s.valueTarget - portValue
    if 0 ≤ need then s.buy N (need * (1 - fee)) nav
    else s.sell N (min (-need) portValue * (1 - fee)) nav
  | _ => s.buy N (amount * (1 - fee)) nav

/-- The body of the loop of `run`. -/
def period (strategy : Strategy) (amount fee : ℚ) (s : State) (p : NavPoint) : State :=
  (trade N strategy amount fee s p.nav).record N p

def loop (strategy : Strategy) (amount fee : ℚ) (pts : List NavPoint) : State :=
  pts.foldl (period N strategy amount fee) {}

/-! ### The internal rate of return -/

/-- The flows, each divided by the growth over the days since the first date. -/
def presentValue (growth : ℤ → ℚ) (dates : List ℤ) (amounts : List ℚ) : ℚ :=
  (List.zipWith (fun a d => a / growth (d - dates.headD 0)) amounts dates).sum

/-- `npv(rate)`. -/
def npv (dates : List ℤ) (amounts : List ℚ) (rate : ℚ) : ℚ :=
  presentValue (fun dd => N.pow (1 + rate) ((dd : ℚ) / 365)) dates amounts

/-- What is left of the 200 rounds of the bisection. -/
def bisect (f : ℚ → ℚ) : ℕ → ℚ → ℚ → ℚ → ℚ
  | 0, lo, hi, _ => (lo + hi) / 2
  | rounds + 1, lo, hi, fLo =>
    let mid := (lo + hi) / 2
    let fMid := f mid
    if |fMid| < 1 / 10 ^ 7 then mid
    else if fLo * fMid < 0 then bisect f rounds lo mid fLo
    else bisect f rounds mid hi fMid

/-- `_xirr`. -/
def xirr (dates : List ℤ) (amounts : List ℚ) : ℚ :=
  if amounts.length < 2 then 0
  else
    let f := npv N dates amounts
    let lo : ℚ := -99 / 100
    let hi : ℚ := 20
    if 0 < f lo * f hi then 0 else bisect f 200 lo hi (f lo)

/-- The arguments `run` calls `_xirr` with: the final value is dated as the last entry of
`date_series`.  Nothing when a date does not parse or there is none. -/
def xirrArgs (strptime : String → Option ℤ) (s : State) (finalValue : ℚ) :
    Option (List ℤ × List ℚ) := do
  let dts ← s.dateSeries.mapM strptime
  let last ← dts.getLast?
  return (dts ++ [last], s.investCf ++ [N.round 2 finalValue])

/-! ### The result -/

structure Result where
  strategy : Strategy
  strategyName : String
  freq : Freq
  amount : ℚ
  feeBps : ℚ
  periods : ℕ
  firstDate : Option String
  lastDate : Option String
  shares : ℚ
  principal : ℚ
  grossInvested : ℚ
  redeemed : ℚ
  finalValue : ℚ
  totalReturnPct : ℚ
  xirrPct : ℚ
  dates : List String
  investAmt : List ℚ
  costSeries : List ℚ
  valueSeries : List ℚ
  navSeries : List ℚ
  deriving DecidableEq

def strategyName : Strategy → String
  | .valueAvg => "智能定投（价值平均）"
  | _ => "普通定投"

/-- `navs[-1]`. -/
def finalNav (points : List NavPoint) : ℚ := (navsOf points).getLastD 0

/-- `total_return`, before it is rounded. -/
def totalReturn (s : State) (finalValue : ℚ) : ℚ :=
  if 0 < s.principal then (finalValue - s.principal) / s.principal * 100 else 0

/-- The dict `run` returns after the loop. -/
def report (strptime : String → Option ℤ) (points : List NavPoint) (amount : ℚ) (freq : Freq)
    (strategy : Strategy) (feeBps : ℚ) : Result :=
  let s := loop N strategy amount (feeBps / 10000) (investPoints points freq)
  let finalValue := s.shares * finalNav points
  let rate := match xirrArgs N strptime s finalValue with
    | some (dts, cf) => xirr N dts cf
    | none => 0
  { strategy := strategy
    strategyName := strategyName strategy
    freq := freq
    amount := amount
    feeBps := feeBps
    periods := (investIndices points.length freq).length
    firstDate := s.dateSeries.head?
    lastDate := s.dateSeries.getLast?
    shares := N.round 2 s.shares
    principal := N.round 2 s.principal
    grossInvested := N.round 2 s.grossIn
    redeemed := N.round 2 s.redeemed
    finalValue := N.round 2 finalValue
    totalReturnPct := N.round 2 (totalReturn s finalValue)
    xirrPct := N.round 2 (rate * 100)
    dates := s.dateSeries
    investAmt := s.investAmt
    costSeries := s.costSeries
    valueSeries := s.valueSeries
    navSeries := s.navSeries }

/-- `run`.  The loop divides by the NAV of each point it trades at; it has no effect outside
itself, so a zero among them is found up front. -/
def run (strptime : String → Option ℤ) (points : List NavPoint) (amount : ℚ) (freq : Freq)
    (strategy : Strategy) (feeBps : ℚ) : Except Backtest.RunError Result :=
  if points.length < 10 then .error (.reported "历史数据不足，无法定投回测")
  else if 0 ∈ navsOf (investPoints points freq) then .error (.raised .zeroDivision)
  else .ok (report N strptime points amount freq strategy feeBps)

/-! ### The points a plan trades at -/

theorem rangeStep_cons {n step : ℕ} (hn : 0 < n) (hs : 0 < step) :
    ∃ rest, rangeStep n step = 0 :: rest := by
  have hcount : 0 < (n + step - 1) / step := Nat.div_pos (by omega) hs
  obtain ⟨k, hk⟩ := Nat.exists_eq_add_of_lt hcount
  refine ⟨List.range' step k step, ?_⟩
  rw [rangeStep, hk, Nat.zero_add, List.range'_succ, Nat.zero_add]

theorem lt_of_mem_rangeStep {n step i : ℕ} (hs : 0 < step) (hi : i ∈ rangeStep n step) :
    i < n := by
  obtain ⟨j, hj, rfl⟩ := List.mem_range'.1 hi
  have hle : (j + 1) * step ≤ n + step - 1 := (Nat.le_div_iff_mul_le hs).1 hj
  have hexp : (j + 1) * step = step * j + step := by ring
  omega

/-- The indices are those of a range with a positive step. -/
theorem investIndices_eq (n : ℕ) (freq : Freq) :
    ∃ step, 0 < step ∧ investIndices n freq = rangeStep n step := by
  have hpick : ∃ step, 0 < step ∧ pickInvestIndices n freq = rangeStep n step := by
    cases freq with
    | weekly => exact ⟨max 1 (spacing n 5), by omega, rfl⟩
    | monthly | other name => exact ⟨max 1 (spacing n 21), by omega, rfl⟩
  by_cases hshort : (pickInvestIndices n freq).length < 2
  · exact ⟨max 1 (n / 2), by omega, if_pos hshort⟩
  · obtain ⟨step, hstep, heq⟩ := hpick
    exact ⟨step, hstep, (if_neg hshort).trans heq⟩

theorem mem_of_mem_investPoints {points : List NavPoint} {freq : Freq} {p : NavPoint}
    (hp : p ∈ investPoints points freq) : p ∈ points := by
  obtain ⟨i, -, hi⟩ := List.mem_filterMap.1 hp
  exact List.mem_of_getElem? hi

/-- A plan trades at the first point of the history. -/
theorem investPoints_cons (p : NavPoint) (ps : List NavPoint) (freq : Freq) :
    ∃ rest, investPoints (p :: ps) freq = p :: rest := by
  obtain ⟨step, hstep, heq⟩ := investIndices_eq (p :: ps).length freq
  obtain ⟨rest, hrest⟩ := rangeStep_cons (Nat.succ_pos ps.length) hstep
  refine ⟨rest.filterMap fun i => (p :: ps)[i]?, ?_⟩
  rw [investPoints, heq, List.length_cons, hrest, List.filterMap_cons, List.getElem?_cons_zero]

theorem finalNav_eq {points : List NavPoint} {last : NavPoint}
    (h : points.getLast? = some last) : finalNav points = last.nav := by
  rw [finalNav, navsOf, List.getLastD_eq_getLast?, List.getLast?_map, h]
  rfl

/-! ### When the backtest succeeds -/

theorem nav_pos_of_mem {points : List NavPoint} (hpos : ∀ p ∈ points, 0 < p.nav) {freq : Freq} :
    ∀ p ∈ investPoints points freq, 0 < p.nav :=
  fun p hp => hpos p (mem_of_mem_investPoints hp)

theorem run_eq_ok {points : List NavPoint} (hlen : 10 ≤ points.length)
    (hpos : ∀ p ∈ points, 0 < p.nav) (strptime : String → Option ℤ) (amount : ℚ) (freq : Freq)
    (strategy : Strategy) (feeBps : ℚ) :
    run N strptime points amount freq strategy feeBps =
      .ok (report N strptime points amount freq strategy feeBps) := by
  have hzero : 0 ∉ navsOf (investPoints points freq) := by
    intro hmem
    obtain ⟨p, hp, hnav⟩ := List.mem_map.1 hmem
    exact (nav_pos_of_mem hpos p hp).ne' hnav
  rw [run, if_neg (by omega), if_neg hzero]

end Dca

end QuantFlow
