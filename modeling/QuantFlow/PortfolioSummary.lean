/-
**The summary of the stored holdings.**

`portfolio.compute` in `backend/app/portfolio.py` values the stored holdings with a map from fund
codes to NAVs: one row per holding, then the shares of the rows in the whole, the mix of the
advice, and the totals.  A holding whose fund has no NAV in the map (or the NAV zero, which Python
takes for none) has a row without a value.

The table checks that shares and cost NAV are positive, so a holding carries both facts
(`Holding`).  Numbers are exact and each rounding is the host's; the results
below are about the numbers before they are rounded, that is, for a rounding that changes nothing.

* The totals are gathered separately from the rows: the cost of every holding, the value of those
  that have one.  The total profit is therefore the sum of the rows' profits exactly when every
  holding has a NAV.
* The profit of the day is the change in percent applied to today's value.  The change is one of
  yesterday's, so each fund is off by the square of its change.

Main definitions:

* `Holding`, `Info` — a stored holding, and an entry of the NAV map;
* `compute` — rows and summary.

Main results:

* `ofRow_rowOf` — a stored position of finite numbers is a holding;
* `summary_adds_up_iff` — **the summary adds up exactly when every holding has a NAV**;
* `day_pnl_correct_iff` — **the profit of the day is right exactly when no held fund moved**.
-/

import Mathlib.Algebra.BigOperators.Ring.List
import Mathlib.Tactic.FieldSimp
import QuantFlow.HoldingsMap
import QuantFlow.Indicators
import QuantFlow.ListSums
import QuantFlow.Watchlist

namespace QuantFlow.Portfolio

open Py (Str)
open Watchlist (orText)
open ListSums (sum_filterMap sum_filter_map sum_map_sub sum_map_eq_zero_iff)

/-! ### Holdings -/

/-- A stored holding of finite numbers. -/
structure Holding where
  code : Str
  name : Str
  shares : ℚ
  costNav : ℚ
  shares_pos : 0 < shares
  costNav_pos : 0 < costNav

/-- A row of the table as `compute` reads it; the checks of the table make the numbers positive. -/
def Holding.ofRow : HoldingRow → Option Holding
  | ⟨some code, name, .real (.finite shares _), .real (.finite costNav _), checked⟩ =>
    some
      { code := code, name := name, shares := shares, costNav := costNav,
        shares_pos := of_decide_eq_true checked.1,
        costNav_pos := of_decide_eq_true checked.2 }
  | _ => none

/-- A stored position of finite numbers is a holding. -/
theorem ofRow_rowOf (code : Str) {p : Position} {v w : ℚ} {x y : String}
    (hshares : p.shares = .finite v x) (hcost : p.costNav = .finite w y) :
    ∃ h, Holding.ofRow (rowOf code p) = some h ∧ h.code = code ∧ h.name = p.name ∧
      h.shares = v ∧ h.costNav = w := by
  obtain ⟨name, shares, costNav, hpositive⟩ := p
  simp only at hshares hcost
  subst hshares hcost
  exact ⟨_, rfl, rfl, rfl, rfl, rfl⟩

/-! ### The rows -/

/-- An entry of the NAV map. -/
structure Info where
  name : Str
  nav : Option ℚ
  dayChangePct : Option ℚ
  advice : Option Str
  direction : Option Str
  deriving DecidableEq

abbrev NavMap := List (Str × Info)

/-- The NAV of a holding that `compute` uses: `None` and zero are both false. -/
def navOf (navMap : NavMap) (h : Holding) : Option ℚ :=
  ((navMap.lookup h.code).bind Info.nav).filter fun nav => nav ≠ 0

structure Row where
  code : Str
  name : Str
  shares : ℚ
  costNav : ℚ
  latestNav : Option ℚ
  cost : ℚ
  value : Option ℚ
  pnl : Option ℚ
  pnlPct : Option ℚ
  dayChangePct : Option ℚ
  dayPnl : Option ℚ
  advice : Option Str
  direction : Option Str
  weight : ℚ := 0
  deriving DecidableEq

variable (N : Numerics)

/-- The row of a holding, before the weights are known. -/
def rowFor (navMap : NavMap) (h : Holding) : Row :=
  let info := navMap.lookup h.code
  let nav := navOf navMap h
  let cost := h.shares * h.costNav
  let value := nav.map fun nav => h.shares * nav
  let pnl := value.map fun value => value - cost
  { code := h.code
    name := orText (some h.name) (orText (info.map Info.name) h.code)
    shares := N.round 2 h.shares
    costNav := N.round 4 h.costNav
    latestNav := nav.map (N.round 4)
    cost := N.round 2 cost
    value := value.map (N.round 2)
    pnl := pnl.map (N.round 2)
    pnlPct := nav.map fun nav => N.round 2 ((nav / h.costNav - 1) * 100)
    dayChangePct := info.bind Info.dayChangePct
    dayPnl := nav.map fun nav =>
      N.round 2 (h.shares * nav * ((info.bind Info.dayChangePct).getD 0) / 100)
    advice := info.bind Info.advice
    direction := info.bind Info.direction }

/-- The row with its weight in the total value. -/
def Row.weighted (totalValue : ℚ) (r : Row) : Row :=
  { r with weight := if r.value.getD 0 ≠ 0 ∧ totalValue ≠ 0
      then N.round 2 (r.value.getD 0 / totalValue * 100) else 0 }

/-! ### The summary -/

/-- `advice_mix`: the weights of the rows under each advice. -/
def adviceMix (rows : List Row) : OrderedMap Str ℚ :=
  rows.foldl (fun mix r =>
    let adv := orText r.advice (Str.ofString "未评估")
    mix.upsert adv (N.round 2 ((mix.get adv).getD 0 + r.weight))) OrderedMap.empty

structure Summary where
  count : ℕ
  totalCost : ℚ
  totalValue : ℚ
  totalPnl : ℚ
  totalPnlPct : ℚ
  dayPnl : ℚ
  dayPnlPct : ℚ
  adviceMix : OrderedMap Str ℚ

structure Report where
  positions : List Row
  summary : Summary

/-- `total_cost`. -/
def totalCost (holdings : List Holding) : ℚ := (holdings.map fun h => h.shares * h.costNav).sum

/-- `total_value`. -/
def totalValue (navMap : NavMap) (holdings : List Holding) : ℚ :=
  (holdings.map fun h => ((navOf navMap h).map fun nav => h.shares * nav).getD 0).sum

/-- `compute(nav_map)` on the stored holdings. -/
def compute (navMap : NavMap) (holdings : List Holding) : Report :=
  let totalValue := totalValue navMap holdings
  let totalCost := totalCost holdings
  let rows := (holdings.map (rowFor N navMap)).map (Row.weighted N totalValue)
  let totalPnl := if holdings = [] then 0 else totalValue - totalCost
  let dayPnl := (rows.map fun r => r.dayPnl.getD 0).sum
  { positions := rows.mergeSort fun a b => decide (b.value.getD 0 ≤ a.value.getD 0)
    summary :=
      { count := rows.length
        totalCost := N.round 2 totalCost
        totalValue := N.round 2 totalValue
        totalPnl := N.round 2 totalPnl
        totalPnlPct := if totalCost = 0 then 0 else N.round 2 (totalPnl / totalCost * 100)
        dayPnl := N.round 2 dayPnl
        dayPnlPct := if totalValue = 0 then 0 else N.round 2 (dayPnl / totalValue * 100)
        adviceMix := adviceMix N rows } }

/-! ### The totals against the rows -/

theorem navOf_isSome_iff (navMap : NavMap) (h : Holding) :
    (navOf navMap h).isSome ↔
      ∃ info nav, navMap.lookup h.code = some info ∧ info.nav = some nav ∧ nav ≠ 0 := by
  simp only [navOf, Option.isSome_iff_exists, Option.filter_eq_some_iff, Option.bind_eq_some_iff,
    decide_eq_true_eq]
  constructor
  · rintro ⟨nav, ⟨info, hinfo, hnav⟩, hne⟩
    exact ⟨info, nav, hinfo, hnav, hne⟩
  · rintro ⟨info, nav, hinfo, hnav, hne⟩
    exact ⟨nav, ⟨info, hinfo, hnav⟩, hne⟩

/-- Sorting and weighting leave what the rows say about their holdings. -/
theorem sum_positions (navMap : NavMap) (holdings : List Holding) {f : Row → ℚ}
    (hf : ∀ total r, f (Row.weighted N total r) = f r) :
    ((compute N navMap holdings).positions.map f).sum =
      (holdings.map fun h => f (rowFor N navMap h)).sum := by
  have hperm := (List.mergeSort_perm ((holdings.map (rowFor N navMap)).map
    (Row.weighted N (totalValue navMap holdings)))
    fun a b => decide (b.value.getD 0 ≤ a.value.getD 0)).map f
  refine hperm.sum_eq.trans ?_
  rw [List.map_map, List.map_map]
  congr 1
  apply List.map_congr_left
  intro h _
  exact hf _ _

section Unrounded

variable {N} (hround : ∀ n x, N.round n x = x) (navMap : NavMap) (holdings : List Holding)

/-- The cost of the holdings that have a NAV. -/
def knownCost : ℚ :=
  (holdings.map fun h => if (navOf navMap h).isSome then h.shares * h.costNav else 0).sum

/-- The cost of the other holdings; it vanishes only when there are none. -/
theorem totalCost_eq_knownCost_iff :
    totalCost holdings = knownCost navMap holdings ↔ ∀ h ∈ holdings, (navOf navMap h).isSome := by
  have hsplit : totalCost holdings - knownCost navMap holdings =
      (holdings.map fun h => if (navOf navMap h).isSome then 0 else h.shares * h.costNav).sum := by
    rw [totalCost, knownCost, ← sum_map_sub]
    congr 1
    apply List.map_congr_left
    intro h _
    split <;> ring
  have hcost : ∀ h : Holding, 0 < h.shares * h.costNav := fun h =>
    mul_pos h.shares_pos h.costNav_pos
  rw [← sub_eq_zero, hsplit, sum_map_eq_zero_iff]
  · apply forall₂_congr
    intro h _
    split
    case isTrue hsome => simp [hsome]
    case isFalse hnone => simp [hnone, (hcost h).ne']
  · intro h _
    split
    · exact le_rfl
    · exact (hcost h).le

include hround

/-- The profits of the rows add up to the value less the cost of the holdings that have one. -/
theorem sum_pnl :
    ((compute N navMap holdings).positions.filterMap Row.pnl).sum =
      totalValue navMap holdings - knownCost navMap holdings := by
  rw [sum_filterMap, sum_positions N navMap holdings fun _ _ => rfl, totalValue, knownCost,
    ← sum_map_sub]
  congr 1
  apply List.map_congr_left
  intro h _
  cases hnav : navOf navMap h with
  | none => simp [rowFor, hnav]
  | some nav => simp [rowFor, hnav, hround]

theorem sum_cost :
    (((compute N navMap holdings).positions.filter fun r => r.pnl.isSome).map Row.cost).sum =
      knownCost navMap holdings := by
  rw [sum_filter_map, sum_positions N navMap holdings fun _ _ => rfl, knownCost]
  congr 1
  apply List.map_congr_left
  intro h _
  cases hnav : navOf navMap h with
  | none => simp [rowFor, hnav]
  | some nav => simp [rowFor, hnav, hround]

/-- **The summary adds up exactly when every holding has a NAV.**  Before rounding, the total profit
is the sum of the profits of the positions that have one, and the percentage that sum over their
cost, when and only when no holding is without a NAV. -/
theorem summary_adds_up_iff :
    let report := compute N navMap holdings
    let profit := (report.positions.filterMap Row.pnl).sum
    let cost := ((report.positions.filter fun r => r.pnl.isSome).map Row.cost).sum
    (report.summary.totalPnl = profit ∧ report.summary.totalPnlPct = profit / cost * 100) ↔
      ∀ h ∈ holdings, ∃ info nav, navMap.lookup h.code = some info ∧ info.nav = some nav ∧
        nav ≠ 0 := by
  intro report profit cost
  have hempty : (if holdings = [] then 0 else totalValue navMap holdings - totalCost holdings) =
      totalValue navMap holdings - totalCost holdings := by
    split
    case isTrue hnil => simp [hnil, totalValue, totalCost]
    case isFalse => rfl
  have hpnl : report.summary.totalPnl = totalValue navMap holdings - totalCost holdings :=
    (hround 2 _).trans hempty
  have hpct : report.summary.totalPnlPct =
      (totalValue navMap holdings - totalCost holdings) / totalCost holdings * 100 := by
    simp only [report, compute, hround, hempty]
    split
    case isTrue hzero => rw [hzero, div_zero, zero_mul]
    case isFalse => rfl
  rw [show profit = _ from sum_pnl hround navMap holdings,
    show cost = _ from sum_cost hround navMap holdings, hpnl, hpct]
  simp only [← navOf_isSome_iff, ← totalCost_eq_knownCost_iff]
  constructor
  · rintro ⟨hsum, -⟩
    linarith
  · intro hcost
    rw [hcost]
    exact ⟨rfl, rfl⟩

end Unrounded

/-- A hundred shares bought at one. -/
def hundred (code : String) : Holding :=
  { code := Str.ofString code, name := [], shares := 100, costNav := 1,
    shares_pos := by norm_num, costNav_pos := by norm_num }

/-- An entry of the map. -/
def quote (code : String) (nav dayChangePct : Option ℚ) : Str × Info :=
  (Str.ofString code,
    { name := [], nav := nav, dayChangePct := dayChangePct, advice := none, direction := none })

theorem summary_adds_up_iff_one :
    let report := compute Numerics.unrounded [quote "1" (some 2) none] [hundred "1"]
    (report.summary.totalPnl = (report.positions.filterMap Row.pnl).sum ∧
      report.summary.totalPnlPct = (report.positions.filterMap Row.pnl).sum /
        ((report.positions.filter fun r => r.pnl.isSome).map Row.cost).sum * 100) :=
  (summary_adds_up_iff (N := Numerics.unrounded) (fun _ _ => rfl)
    [quote "1" (some 2) none] [hundred "1"]).2 (by
      intro h hmem
      obtain rfl := List.mem_singleton.1 hmem
      exact ⟨_, 2, rfl, rfl, by norm_num⟩)

/-- Two equal holdings, one of them without a NAV.  The other has gained its cost, and the summary
reports no profit. -/
theorem summary_mixed :
    let report := compute Numerics.unrounded [quote "1" (some 2) none, quote "2" none none]
      [hundred "1", hundred "2"]
    (report.positions.filterMap Row.pnl).sum = 100 ∧ report.summary.totalPnl = 0 := by
  refine ⟨?_, by decide +kernel⟩
  rw [sum_pnl fun _ _ => rfl]
  decide +kernel

/-! ### The profit of the day -/

/-- The holdings with the entry of their fund in the NAV map. -/
def quoted (navMap : NavMap) (holdings : List Holding) : List (Holding × Info) :=
  holdings.filterMap fun h => (navMap.lookup h.code).map fun info => (h, info)

/-- The NAV of each fund in the map is the one of the day before, changed by the percentage the map
gives. -/
def Moved (navMap : NavMap) (prev : Str → ℚ) : Prop :=
  ∀ code info, navMap.lookup code = some info → 0 < prev code ∧
    ∃ pct, info.dayChangePct = some pct ∧ info.nav = some (prev code * (1 + pct / 100))

theorem mem_quoted {navMap : NavMap} {holdings : List Holding} {q : Holding × Info} :
    q ∈ quoted navMap holdings ↔ q.1 ∈ holdings ∧ navMap.lookup q.1.code = some q.2 := by
  obtain ⟨h, info⟩ := q
  simp only [quoted, List.mem_filterMap, Option.map_eq_some_iff, Prod.mk.injEq]
  constructor
  · rintro ⟨h', hmem, info', hinfo, rfl, rfl⟩
    exact ⟨hmem, hinfo⟩
  · rintro ⟨hmem, hinfo⟩
    exact ⟨h, hmem, info, hinfo, rfl, rfl⟩

section Day

variable {N} (hround : ∀ n x, N.round n x = x) (navMap : NavMap) (holdings : List Holding)
include hround

/-- The profit of the day is the change applied to the value of the day; a holding without a NAV
adds nothing, as does one whose NAV is zero. -/
theorem dayPnl_eq :
    (compute N navMap holdings).summary.dayPnl = ((quoted navMap holdings).map fun q =>
      q.1.shares * q.2.nav.getD 0 * q.2.dayChangePct.getD 0 / 100).sum := by
  have hrows : (compute N navMap holdings).summary.dayPnl =
      (holdings.map fun h => (rowFor N navMap h).dayPnl.getD 0).sum := by
    refine (hround 2 _).trans ?_
    rw [List.map_map, List.map_map]
    rfl
  rw [hrows, quoted, List.map_filterMap, sum_filterMap]
  congr 1
  apply List.map_congr_left
  intro h _
  cases hinfo : navMap.lookup h.code with
  | none => simp [rowFor, navOf, hinfo]
  | some info =>
    cases hnav : info.nav with
    | none => simp [rowFor, navOf, hinfo, hnav]
    | some nav =>
      by_cases hzero : nav = 0
      · simp [rowFor, navOf, hinfo, hnav, hzero, Option.filter]
      · simp [rowFor, navOf, hinfo, hnav, hzero, hround, Option.filter]

/-- What is reported exceeds the change in value by the squares of the changes. -/
theorem dayPnl_sub_gain {prev : Str → ℚ} (hmoved : Moved navMap prev) :
    (compute N navMap holdings).summary.dayPnl - ((quoted navMap holdings).map fun q =>
        q.1.shares * (q.2.nav.getD 0 - prev q.1.code)).sum =
      ((quoted navMap holdings).map fun q =>
        q.1.shares * prev q.1.code * (q.2.dayChangePct.getD 0 / 100) ^ 2).sum := by
  rw [dayPnl_eq hround, ← sum_map_sub]
  congr 1
  apply List.map_congr_left
  intro q hq
  obtain ⟨-, pct, hpct, hnav⟩ := hmoved q.1.code q.2 (mem_quoted.1 hq).2
  rw [hpct, hnav, Option.getD_some, Option.getD_some]
  ring

theorem dayPnl_eq_gain_iff {prev : Str → ℚ} (hmoved : Moved navMap prev) :
    (compute N navMap holdings).summary.dayPnl = ((quoted navMap holdings).map fun q =>
        q.1.shares * (q.2.nav.getD 0 - prev q.1.code)).sum ↔
      ∀ q ∈ quoted navMap holdings, q.2.dayChangePct = some 0 := by
  have hprev : ∀ q ∈ quoted navMap holdings, 0 < q.1.shares * prev q.1.code := fun q hq =>
    mul_pos q.1.shares_pos (hmoved q.1.code q.2 (mem_quoted.1 hq).2).1
  rw [← sub_eq_zero, dayPnl_sub_gain hround navMap holdings hmoved, sum_map_eq_zero_iff]
  · apply forall₂_congr
    intro q hq
    obtain ⟨-, pct, hpct, -⟩ := hmoved q.1.code q.2 (mem_quoted.1 hq).2
    rw [hpct, Option.getD_some, mul_eq_zero, or_iff_right (hprev q hq).ne', sq_eq_zero_iff,
      div_eq_zero_iff, or_iff_left (by norm_num), Option.some.injEq]
  · intro q hq
    exact mul_nonneg (hprev q hq).le (sq_nonneg _)

omit hround in
theorem gain_eq_zero {prev : Str → ℚ} (hmoved : Moved navMap prev)
    (hstill : ∀ q ∈ quoted navMap holdings, q.2.dayChangePct = some 0) :
    ((quoted navMap holdings).map fun q =>
      q.1.shares * (q.2.nav.getD 0 - prev q.1.code)).sum = 0 := by
  refine List.sum_eq_zero ?_
  intro x hx
  obtain ⟨q, hq, rfl⟩ := List.mem_map.1 hx
  obtain ⟨-, pct, hpct, hnav⟩ := hmoved q.1.code q.2 (mem_quoted.1 hq).2
  have hzero : pct = 0 := Option.some.inj (hpct.symm.trans (hstill q hq))
  rw [hnav, hzero, Option.getD_some]
  ring

/-- **The profit of the day is right exactly when no held fund moved.**  Before rounding, the
reported profit is the change in value since the day before, and the percentage that change over the
value of the day before, when and only when each held fund in the map has the change zero. -/
theorem day_pnl_correct_iff {prev : Str → ℚ} (hmoved : Moved navMap prev) :
    let summary := (compute N navMap holdings).summary
    let gain := ((quoted navMap holdings).map fun q =>
      q.1.shares * (q.2.nav.getD 0 - prev q.1.code)).sum
    let base := ((quoted navMap holdings).map fun q => q.1.shares * prev q.1.code).sum
    (summary.dayPnl = gain ∧ summary.dayPnlPct = gain / base * 100) ↔
      ∀ h ∈ holdings, ∀ info, navMap.lookup h.code = some info → info.dayChangePct = some 0 := by
  intro summary gain base
  have hright : summary.dayPnl = gain ↔ _ := dayPnl_eq_gain_iff hround navMap holdings hmoved
  have hstill : (∀ q ∈ quoted navMap holdings, q.2.dayChangePct = some 0) ↔
      ∀ h ∈ holdings, ∀ info, navMap.lookup h.code = some info → info.dayChangePct = some 0 := by
    constructor
    · intro hzero h hh info hinfo
      exact hzero (h, info) (mem_quoted.2 ⟨hh, hinfo⟩)
    · intro hzero q hq
      exact hzero q.1 (mem_quoted.1 hq).1 q.2 (mem_quoted.1 hq).2
  rw [← hstill, ← hright]
  refine ⟨fun h => h.1, fun h => ⟨h, ?_⟩⟩
  -- Nothing has moved: both percentages are zero.
  have hgain : gain = 0 := gain_eq_zero navMap holdings hmoved (hright.1 h)
  have hpct : summary.dayPnlPct = if totalValue navMap holdings = 0 then 0
      else summary.dayPnl / totalValue navMap holdings * 100 := by
    simp only [summary, compute, hround]
  rw [hpct, h, hgain, zero_div, zero_div, zero_mul, ite_self]

end Day

/-- A fund that moves by a percentage from one. -/
def mover (pct : ℚ) : NavMap := [quote "1" (some (1 + pct / 100)) (some pct)]

theorem moved_mover (pct : ℚ) : Moved (mover pct) fun _ => 1 := by
  intro code info hlookup
  rw [mover, quote, List.lookup_cons] at hlookup
  split at hlookup
  · obtain rfl := Option.some.inj hlookup
    exact ⟨by norm_num, pct, rfl, by rw [one_mul]⟩
  · simp at hlookup

theorem day_pnl_correct_iff_mover :
    let summary := (compute Numerics.unrounded (mover 0) [hundred "1"]).summary
    summary.dayPnl = ((quoted (mover 0) [hundred "1"]).map fun q =>
      q.1.shares * (q.2.nav.getD 0 - 1)).sum := by
  refine ((day_pnl_correct_iff (N := Numerics.unrounded) (fun _ _ => rfl) (mover 0) [hundred "1"]
    (moved_mover 0)).2 ?_).1
  intro h hmem info hinfo
  obtain rfl := List.mem_singleton.1 hmem
  obtain rfl := Option.some.inj hinfo
  rfl

/-- A fund rises by ten percent, from one to one and a tenth.  A hundred shares gain ten; eleven are
reported. -/
theorem day_pnl_overstated :
    Moved (mover 10) (fun _ => 1) ∧
      ((quoted (mover 10) [hundred "1"]).map fun q =>
        q.1.shares * (q.2.nav.getD 0 - 1)).sum = 10 ∧
      (compute Numerics.unrounded (mover 10) [hundred "1"]).summary.dayPnl = 11 :=
  ⟨moved_mover 10, by decide +kernel, by decide +kernel⟩

end QuantFlow.Portfolio
