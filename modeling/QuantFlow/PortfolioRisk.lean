/-
**The risk of the portfolio.**

`_portfolio_risk_payload` of `backend/app/main.py` looks up every holding for 250 days, stops at the
first one that is not REAL, and hands the weights by value and the daily returns of each fund to
`portfolio_risk` of `backend/app/risk/portfolio.py`.  There the series are cut to the length of the
shortest one, counted from the end, and the covariance, the contributions, the curve of the portfolio
and its alerts are computed.

The dates are dropped on the way.  The columns of the matrix are days of the market only if the last
dates of all funds agree.  The numbers here are exact; `FloatRisk` has the report in floats.

Main definitions:

* `portfolioRisk`, `buildAlerts` — the report;
* `collectWith` — the loop over the holdings;
* `Usable` — a portfolio whose holdings all have positive REAL series;
* `rawWeights`, `rawRows` — what `portfolio_risk` selects, before it divides and cuts;
* `Measurable` — weights and returns that have a report;
* `SameDays` — the columns of the matrix are days.

Main results:

* `sameDays_iff` — **the columns are days exactly when the last dates of all funds agree**.
-/

import QuantFlow.Drawdowns
import QuantFlow.Rebalance
import QuantFlow.SampleCovariance

namespace QuantFlow.PortfolioRisk

open Rebalance (Dict Holding)
open WeightedSeries (dot cumprod steps)

variable (N : Numerics) (sim : Bool)

/-! ### The report -/

inductive Alert
  | drawdown
  | volatility
  | concentration
  deriving DecidableEq

/-- Level, code and message of an alert. -/
def Alert.texts : Alert → String × String × String
  | .drawdown => ("high", "DRAWDOWN", "历史最大回撤超过 10%")
  | .volatility => ("high", "VOLATILITY", "年化波动率处于高位")
  | .concentration => ("medium", "CONCENTRATION", "单一基金占比超过 50%")

/-- `build_alerts(risk, concentration)`; `None <= -0.10` raises `TypeError`. -/
def buildAlerts (maxDrawdown : Option ℚ) (volatility concentration : ℚ) :
    Except PyError (List Alert) :=
  match maxDrawdown with
  | none => .error .typeError
  | some fall =>
    .ok ((if fall ≤ -1 / 10 then [.drawdown] else []) ++
      (if 3 / 10 ≤ volatility then [.volatility] else []) ++
      if 1 / 2 ≤ concentration then [.concentration] else [])

structure Report (V : Type := ℚ) where
  riskLevel : RiskLevel
  riskScore : V
  volatility : V
  concentration : V
  maxDrawdown : Option V
  return30d : Option V
  downsideVolatility : Option V
  sharpe : Option V
  sortino : Option V
  calmar : Option V
  mainRiskSource : String
  riskContribution : Dict V
  alerts : List Alert
  deriving DecidableEq

/-- The three answers. -/
inductive Payload (V : Type := ℚ)
  | insufficientData
  | blockedSimulatedData
  | ok (report : Report V)
  deriving DecidableEq

/-- `min(len(row) for row in rows)`, 0 for no rows. -/
def commonSize {α : Type} (rows : List (List α)) : ℕ :=
  match rows with
  | [] => 0
  | row :: rows => rows.foldl (fun n r => min n r.length) row.length

/-- The rows, cut to their common size from the end. -/
def cutRows {α : Type} (rows : List (List α)) : List (List α) := rows.map (lastN (commonSize rows))

/-- `np.cov(m)`. -/
def covarianceMatrix (m : List (List ℚ)) : List (List ℚ) := SampleCovariance.matrix m

/-- `v @ m`. -/
def vecMul (v : List ℚ) (m : List (List ℚ)) (size : ℕ) : List ℚ := SampleCovariance.combine v m size

/-- `np.argmax`: the first place of the largest element. -/
def argmax (xs : List ℚ) : ℕ := xs.findIdx fun x => xs.all (· ≤ x)

/-- The curve of the portfolio. -/
def equity (w : List ℚ) (m : List (List ℚ)) : List ℚ :=
  cumprod ((vecMul w m (commonSize m)).map (1 + ·))

/-- The report of normalised weights and a matrix of returns. -/
def report (codes : List String) (w : List ℚ) (m : List (List ℚ)) : Except PyError Payload := do
  let cov := covarianceMatrix m
  let variance := dot (vecMul w cov w.length) w
  let vol := N.sqrt (max variance 0) * N.sqrt 252
  let marginal := cov.map fun row => dot row w
  let contributions :=
    if 0 < variance then List.zipWith (fun a b => a * b / variance) w marginal else w.map fun _ => 0
  let returns := vecMul w m (commonSize m)
  let perf := Risk.calculateMetrics N (equity w m)
  let trailing := lastN 30 returns
  let return30d := if trailing = [] then none else some ((trailing.map (1 + ·)).prod - 1)
  let concentration := (w.map (· ^ 2)).sum
  let score := N.round 2 (min 100 (vol / (45 / 100) * 70 + concentration * 30))
  let volatility := N.round 6 vol
  let maxDrawdown := perf.map Risk.Metrics.maxDrawdown
  let alerts ← buildAlerts maxDrawdown volatility concentration
  .ok (.ok
    { riskLevel := .ofScore score
      riskScore := score
      volatility := volatility
      concentration := N.round 6 concentration
      maxDrawdown := maxDrawdown
      return30d := return30d.map (N.round 6)
      downsideVolatility := perf.map Risk.Metrics.downsideVolatility
      sharpe := perf.bind Risk.Metrics.sharpe
      sortino := perf.bind Risk.Metrics.sortino
      calmar := perf.bind Risk.Metrics.calmar
      mainRiskSource := codes.getD (argmax contributions) ""
      riskContribution := codes.zip (contributions.map (N.round 6))
      alerts := alerts })

/-- The codes that have a weight and a series. -/
def commonCodes {V : Type} (weights : Dict V) (series : Dict (List V)) : List String :=
  (weights.map Prod.fst).filter fun c => (series.lookup c).isSome

/-- The matrix: the series of these codes, cut to their common size. -/
def matrix {V : Type} (weights : Dict V) (series : Dict (List V)) : List (List V) :=
  cutRows ((commonCodes weights series).map fun c => (series.lookup c).getD [])

/-- The weights of these codes, divided by their sum. -/
def weightVector (weights : Dict ℚ) (series : Dict (List ℚ)) : List ℚ :=
  WeightedSeries.normalize ((commonCodes weights series).map fun c => (weights.lookup c).getD 0)

/-- `portfolio_risk(weights, return_series)`. -/
def portfolioRisk (weights : Dict ℚ) (series : Dict (List ℚ)) : Except PyError Payload :=
  let codes := commonCodes weights series
  if codes = [] ∨ commonSize (codes.map fun c => (series.lookup c).getD []) < 3 then
    .ok .insufficientData
  else report N codes (weightVector weights series) (matrix weights series)

/-! ### The route -/

section Loop

variable {V : Type}

/-- A holding, and what its lookup meets. -/
structure Visit (V : Type := ℚ) where
  holding : Holding V
  moment : Moment V

/-- What the loop keeps of a holding. -/
structure Kept (V : Type := ℚ) where
  code : String
  value : V
  returns : List V

/-- The loop over the holdings; `none` when one of them is not REAL.  `keep` computes the value and
the returns of a holding. -/
def collectWith (keep : Holding V → List V → Except PyError (Kept V)) :
    List (Visit V) → FundCache V → Except PyError (Option (List (Kept V))) × FundCache V
  | [], funds => (.ok (some []), funds)
  | v :: vs, funds =>
    let (entry, funds) := ensureFund sim v.moment funds v.holding.code 250
    if permitsResearch entry.source then
      let navs := navsOf entry.points
      if navs.length < 3 then collectWith keep vs funds
      else
        match keep v.holding navs with
        | .error e => (.error e, funds)
        | .ok kept =>
          let (rest, funds) := collectWith keep vs funds
          (rest.map (Option.map (kept :: ·)), funds)
    else (.ok none, funds)

/-- The series of what was kept. -/
def seriesOfKept (kept : List (Kept V)) : Dict (List V) := Dict.build Kept.code Kept.returns kept

/-- The entries that the loop meets. -/
def entriesMet : List (Visit V) → FundCache V → List (Entry V)
  | [], _ => []
  | v :: vs, funds =>
    (ensureFund sim v.moment funds v.holding.code 250).1 ::
      entriesMet vs (ensureFund sim v.moment funds v.holding.code 250).2

variable {sim} {visits : List (Visit V)} {funds : FundCache V}

theorem length_entriesMet (sim : Bool) (visits : List (Visit V)) (funds : FundCache V) :
    (entriesMet sim visits funds).length = visits.length := by
  induction visits generalizing funds with
  | nil => rfl
  | cons v vs ih =>
    rw [entriesMet, List.length_cons, List.length_cons, ih]

theorem length_navs_of_real {e : Entry V} (h : e.source = .real) : 5 ≤ (navsOf e.points).length := by
  rw [navsOf, List.length_map]
  exact e.enough h

/-- No holding is skipped where all entries are REAL and every holding can be kept. -/
theorem collectWith_of_real {keep : Holding V → List V → Except PyError (Kept V)}
    (kept : Visit V → Entry V → Kept V)
    (hreal : ∀ e ∈ entriesMet sim visits funds, e.source = .real)
    (hkeep : ∀ v, ∀ e ∈ entriesMet sim visits funds,
      keep v.holding (navsOf e.points) = .ok (kept v e)) :
    (collectWith sim keep visits funds).1 =
      .ok (some ((visits.zip (entriesMet sim visits funds)).map fun ve => kept ve.1 ve.2)) := by
  induction visits generalizing funds with
  | nil => rfl
  | cons v vs ih =>
    rw [entriesMet] at hreal hkeep
    rw [List.forall_mem_cons] at hreal
    have hrest := ih hreal.2 fun v' e he => hkeep v' e (List.mem_cons_of_mem _ he)
    have hlength := length_navs_of_real hreal.1
    simp only [collectWith, (permitsResearch_iff _).2 hreal.1, if_true,
      if_neg (show ¬ (navsOf (ensureFund sim v.moment funds v.holding.code 250).1.points).length < 3
        by omega), hkeep v _ List.mem_cons_self]
    rw [hrest]
    rfl

end Loop

/-- `[navs[i] / navs[i - 1] - 1 for i in range(1, len(navs))]`. -/
def dailyReturns (navs : List ℚ) : Except PyError (List ℚ) :=
  if 0 ∈ navs.dropLast then .error .zeroDivision else .ok (Indicators.returns navs)

/-- The loop over the holdings. -/
def collect (visits : List Visit) (funds : FundCache) :
    Except PyError (Option (List Kept)) × FundCache :=
  collectWith sim (fun holding navs => (dailyReturns navs).map fun returns =>
    { code := holding.code, value := holding.shares * navs.getLastD 0, returns := returns })
    visits funds

/-- `{code: value / total …} if total else {}`. -/
def weightsOf (values : Dict ℚ) : Dict ℚ :=
  if Dict.total values = 0 then [] else values.map fun p => (p.1, p.2 / Dict.total values)

/-- The weights of what was kept. -/
def weightsOfKept (kept : List Kept) : Dict ℚ := weightsOf (Dict.build Kept.code Kept.value kept)

/-! ### The loop over a usable portfolio -/

/-- Different funds of positive amount, whose entries are REAL with positive NAVs. -/
structure Usable (visits : List Visit) (funds : FundCache) : Prop where
  nonempty : visits ≠ []
  distinct : (visits.map fun v => v.holding.code).Nodup
  shares : ∀ v ∈ visits, 0 < v.holding.shares
  real : ∀ e ∈ entriesMet sim visits funds, e.source = .real
  positive : ∀ e ∈ entriesMet sim visits funds, ∀ p ∈ e.points, 0 < p.nav

/-- What is kept of a holding whose entry can be used. -/
def keptOf (v : Visit) (e : Entry) : Kept :=
  { code := v.holding.code, value := v.holding.shares * (navsOf e.points).getLastD 0,
    returns := Indicators.returns (navsOf e.points) }

/-- All that is kept. -/
def keptAll (visits : List Visit) (funds : FundCache) : List Kept :=
  (visits.zip (entriesMet sim visits funds)).map fun ve => keptOf ve.1 ve.2

theorem dailyReturns_of_pos {navs : List ℚ} (h : ∀ x ∈ navs, 0 < x) :
    dailyReturns navs = .ok (Indicators.returns navs) := by
  refine if_neg ?_
  intro hzero
  exact (h 0 (List.mem_of_mem_dropLast hzero)).ne rfl

theorem navs_pos {e : Entry} (h : ∀ p ∈ e.points, 0 < p.nav) : ∀ x ∈ navsOf e.points, 0 < x := by
  intro x hx
  obtain ⟨p, hp, rfl⟩ := List.mem_map.1 hx
  exact h p hp

variable {sim} in
theorem collect_of_usable {visits : List Visit} {funds : FundCache} (h : Usable sim visits funds) :
    (collect sim visits funds).1 = .ok (some (keptAll sim visits funds)) := by
  refine collectWith_of_real keptOf h.real fun v e he => ?_
  rw [dailyReturns_of_pos (navs_pos (h.positive e he))]
  rfl

/-! ### Dictionaries of different keys -/

section Dictionaries

variable {α V : Type} {key : α → String} {value : α → V} {xs : List α}

theorem set_of_not_mem {d : Dict V} {k : String} {v : V} (h : k ∉ d.map Prod.fst) :
    Dict.set d k v = d ++ [(k, v)] := by
  induction d with
  | nil => rfl
  | cons e d ih =>
    rw [List.map_cons, List.mem_cons, not_or] at h
    rw [Dict.set, if_neg fun heq => h.1 heq.symm, ih h.2]
    rfl

/-- A dictionary built from different keys lists them in order. -/
theorem build_of_nodup (h : (xs.map key).Nodup) :
    Dict.build key value xs = xs.map fun x => (key x, value x) := by
  have hfold : ∀ d : Dict V, (∀ x ∈ xs, key x ∉ d.map Prod.fst) →
      xs.foldl (fun d x => Dict.set d (key x) (value x)) d =
        d ++ xs.map fun x => (key x, value x) := by
    induction xs with
    | nil =>
      intro d _
      simp
    | cons x xs ih =>
      intro d hnew
      rw [List.map_cons, List.nodup_cons] at h
      -- the accumulator has the keys of the elements before, so a new key is appended
      have hlater : ∀ y ∈ xs, key y ∉ (d ++ [(key x, value x)]).map Prod.fst := by
        intro y hy hmem
        rw [List.map_append, List.mem_append] at hmem
        rcases hmem with hold | hself
        · exact hnew y (List.mem_cons_of_mem x hy) hold
        · have heq : key y = key x := by simpa using hself
          exact h.1 (heq ▸ List.mem_map_of_mem hy)
      rw [List.foldl_cons, set_of_not_mem (hnew x List.mem_cons_self), ih h.2 _ hlater,
        List.append_assoc]
      rfl
  have hall := hfold [] fun x _ => List.not_mem_nil
  rwa [List.nil_append] at hall

theorem lookup_of_nodup (h : (xs.map key).Nodup) {x : α} (hx : x ∈ xs) :
    (xs.map fun x => (key x, value x)).lookup (key x) = some (value x) := by
  induction xs with
  | nil => cases hx
  | cons y xs ih =>
    rw [List.map_cons, List.nodup_cons] at h
    rw [List.map_cons, List.lookup_cons]
    rcases List.mem_cons.1 hx with rfl | hlater
    · simp
    · have hne : key x ≠ key y := fun heq => h.1 (heq ▸ List.mem_map_of_mem hlater)
      rw [beq_eq_false_iff_ne.2 hne]
      exact ih h.2 hlater

end Dictionaries

/-! ### Weights and series of what was kept -/

section Kept

variable {V : Type} {kept : List (Kept V)} {weights : Dict V}

/-- Weights with the codes that were kept select all of them. -/
theorem commonCodes_kept (hdistinct : (kept.map Kept.code).Nodup)
    (hkeys : weights.map Prod.fst = kept.map Kept.code) :
    commonCodes weights (seriesOfKept kept) = kept.map Kept.code := by
  rw [commonCodes, hkeys, List.filter_eq_self]
  intro c hc
  obtain ⟨k, hk, rfl⟩ := List.mem_map.1 hc
  rw [seriesOfKept, build_of_nodup hdistinct, lookup_of_nodup hdistinct hk]
  rfl

theorem rows_kept (hdistinct : (kept.map Kept.code).Nodup)
    (hkeys : weights.map Prod.fst = kept.map Kept.code) :
    ((commonCodes weights (seriesOfKept kept)).map fun c =>
      ((seriesOfKept kept).lookup c).getD []) = kept.map Kept.returns := by
  rw [commonCodes_kept hdistinct hkeys, List.map_map]
  refine List.map_congr_left fun k hk => ?_
  rw [Function.comp_apply, seriesOfKept, build_of_nodup hdistinct, lookup_of_nodup hdistinct hk]
  rfl

theorem keys_weightsOfKept {kept : List Kept} (hdistinct : (kept.map Kept.code).Nodup)
    (htotal : (kept.map Kept.value).sum ≠ 0) :
    (weightsOfKept kept).map Prod.fst = kept.map Kept.code := by
  have hsum : Dict.total (kept.map fun k => (k.code, k.value)) = (kept.map Kept.value).sum := by
    rw [Dict.total, List.map_map]
    rfl
  rw [weightsOfKept, build_of_nodup hdistinct, weightsOf, hsum, if_neg htotal, List.map_map,
    List.map_map]
  rfl

end Kept

/-! ### Common sizes -/

section Sizes

variable {α β : Type} {rows : List (List α)}

theorem commonSize_cons (row : List α) (rows : List (List α)) :
    commonSize (row :: rows) = (rows.map List.length).foldl min row.length := by
  rw [List.foldl_map]
  rfl

theorem le_foldl_min {ns : List ℕ} {n k : ℕ} (hn : k ≤ n) (hns : ∀ m ∈ ns, k ≤ m) :
    k ≤ ns.foldl min n := by
  induction ns generalizing n with
  | nil => exact hn
  | cons m ns ih =>
    exact ih (le_min hn (hns m List.mem_cons_self)) fun m' hm' => hns m' (List.mem_cons_of_mem m hm')

theorem commonSize_le {row : List α} (h : row ∈ rows) : commonSize rows ≤ row.length := by
  cases rows with
  | nil => cases h
  | cons first rows =>
    obtain ⟨hfirst, hrest⟩ := Drawdown.foldl_min_le (rows.map List.length) first.length
    rw [commonSize_cons]
    rcases List.mem_cons.1 h with rfl | hlater
    · exact hfirst
    · exact hrest row.length (List.mem_map_of_mem hlater)

theorem le_commonSize {k : ℕ} (hne : rows ≠ []) (h : ∀ row ∈ rows, k ≤ row.length) :
    k ≤ commonSize rows := by
  cases rows with
  | nil => exact absurd rfl hne
  | cons first rows =>
    rw [commonSize_cons]
    refine le_foldl_min (h first List.mem_cons_self) ?_
    intro m hm
    obtain ⟨row, hrow, rfl⟩ := List.mem_map.1 hm
    exact h row (List.mem_cons_of_mem first hrow)

/-- The common size depends on the lengths only. -/
theorem commonSize_map (f : List α → List β) (hf : ∀ row ∈ rows, (f row).length = row.length) :
    commonSize (rows.map f) = commonSize rows := by
  cases rows with
  | nil => rfl
  | cons first rows =>
    rw [List.map_cons, commonSize_cons, commonSize_cons, List.map_map,
      hf first List.mem_cons_self]
    congr 1
    exact List.map_congr_left fun row hrow => hf row (List.mem_cons_of_mem first hrow)

/-- Every row of the matrix has the common size. -/
theorem length_cutRow {row : List α} (h : row ∈ cutRows rows) : row.length = commonSize rows := by
  obtain ⟨long, hlong, rfl⟩ := List.mem_map.1 h
  exact length_lastN (commonSize_le hlong)

end Sizes

/-! ### Curves -/

section Curves

variable {N}

/-- The curve of weights that are not negative and returns above −1 is positive. -/
theorem equity_pos {w : List ℚ} {m : List (List ℚ)} (hlength : w.length = m.length)
    (hw : ∀ a ∈ w, 0 ≤ a) (hsum : 0 < w.sum) (hm : ∀ row ∈ m, ∀ x ∈ row, -1 < x) :
    ∀ v ∈ equity (WeightedSeries.normalize w) m, 0 < v := by
  refine WeightedSeries.cumprod_pos ?_
  intro factor hfactor
  obtain ⟨x, hx, rfl⟩ := List.mem_map.1 hfactor
  obtain ⟨j, -, rfl⟩ := List.mem_map.1 hx
  have hreturn : -1 < dot (WeightedSeries.normalize w) (m.map fun row => row.getD j 0) := by
    refine WeightedSeries.lt_dot_normalize (by rw [List.length_map, hlength]) hw hsum ?_
    intro b hb
    obtain ⟨row, hrow, rfl⟩ := List.mem_map.1 hb
    by_cases hj : j < row.length
    · rw [List.getD_eq_getElem _ _ hj]
      exact hm row hrow _ (List.getElem_mem hj)
    · rw [List.getD_eq_default _ _ (Nat.not_lt.1 hj)]
      norm_num
  linarith

theorem length_equity (w : List ℚ) (m : List (List ℚ)) : (equity w m).length = commonSize m := by
  rw [equity, WeightedSeries.length_cumprod, List.length_map, vecMul,
    SampleCovariance.length_combine]

theorem calculateMetrics_isSome {navs : List ℚ} (hlength : 3 ≤ navs.length)
    (hpos : ∀ v ∈ navs, 0 < v) : (Risk.calculateMetrics N navs).isSome = true := by
  rw [Risk.calculateMetrics, if_neg (Risk.not_insufficient hlength hpos)]
  rfl

end Curves

/-! ### Weights and returns that have a report -/

/-- The weights of the codes that have returns. -/
def rawWeights (weights : Dict ℚ) (series : Dict (List ℚ)) : List ℚ :=
  (commonCodes weights series).map fun c => (weights.lookup c).getD 0

/-- The returns of the codes that have a weight. -/
def rawRows (weights : Dict ℚ) (series : Dict (List ℚ)) : List (List ℚ) :=
  (commonCodes weights series).map fun c => (series.lookup c).getD []

/-- Weights that are not negative and count, and returns above −1 of at least three days. -/
structure Measurable (weights : Dict ℚ) (series : Dict (List ℚ)) : Prop where
  nonneg : ∀ a ∈ rawWeights weights series, 0 ≤ a
  positive : 0 < (rawWeights weights series).sum
  returns : ∀ row ∈ rawRows weights series, ∀ x ∈ row, -1 < x
  size : 3 ≤ commonSize (rawRows weights series)

section Measurable

variable {N} {weights : Dict ℚ} {series : Dict (List ℚ)}

theorem Measurable.codes_ne_nil (h : Measurable weights series) : commonCodes weights series ≠ [] := by
  intro hnil
  have hpositive := h.positive
  rw [rawWeights, hnil] at hpositive
  exact lt_irrefl _ hpositive

theorem length_weightVector (weights : Dict ℚ) (series : Dict (List ℚ)) :
    (weightVector weights series).length = (commonCodes weights series).length := by
  simp [weightVector, WeightedSeries.normalize]

theorem length_matrix (weights : Dict ℚ) (series : Dict (List ℚ)) :
    (matrix weights series).length = (commonCodes weights series).length := by
  simp [matrix, cutRows]

theorem length_weightVector_eq (weights : Dict ℚ) (series : Dict (List ℚ)) :
    (weightVector weights series).length = (matrix weights series).length := by
  rw [length_weightVector, length_matrix]

theorem Measurable.matrix_ne_nil (h : Measurable weights series) : matrix weights series ≠ [] := by
  intro hnil
  have hlength := length_matrix weights series
  rw [hnil, List.length_nil] at hlength
  exact h.codes_ne_nil (List.length_eq_zero_iff.1 hlength.symm)

/-- All rows of the matrix have the common size. -/
theorem length_row_matrix (weights : Dict ℚ) (series : Dict (List ℚ)) :
    ∀ row ∈ matrix weights series, row.length = commonSize (rawRows weights series) :=
  fun _ hrow => length_cutRow hrow

theorem Measurable.commonSize_matrix (h : Measurable weights series) :
    commonSize (matrix weights series) = commonSize (rawRows weights series) := by
  have hrows := length_row_matrix weights series
  refine le_antisymm ?_ ?_
  · obtain ⟨row, hrow⟩ := List.exists_mem_of_ne_nil _ h.matrix_ne_nil
    rw [← hrows row hrow]
    exact commonSize_le hrow
  · exact le_commonSize h.matrix_ne_nil fun row hrow => (hrows row hrow).ge

theorem Measurable.curve_pos (h : Measurable weights series) :
    ∀ v ∈ equity (weightVector weights series) (matrix weights series), 0 < v := by
  refine equity_pos (w := rawWeights weights series) ?_ h.nonneg h.positive ?_
  · rw [rawWeights, List.length_map, length_matrix]
  · intro row hrow x hx
    obtain ⟨long, hlong, rfl⟩ := List.mem_map.1 hrow
    exact h.returns long hlong x (List.mem_of_mem_drop hx)

theorem Measurable.metrics (h : Measurable weights series) :
    ∃ perf, Risk.calculateMetrics N (equity (weightVector weights series) (matrix weights series)) =
      some perf := by
  refine Option.isSome_iff_exists.1 (calculateMetrics_isSome ?_ h.curve_pos)
  rw [length_equity, h.commonSize_matrix]
  exact h.size

/-- The guard of `portfolio_risk`: there is a fund, and every series is long enough. -/
theorem Measurable.portfolioRisk_eq (h : Measurable weights series) :
    portfolioRisk N weights series =
      report N (commonCodes weights series) (weightVector weights series) (matrix weights series) := by
  refine if_neg ?_
  rintro (hnil | hshort)
  · exact h.codes_ne_nil hnil
  · exact absurd h.size (not_le.2 hshort)

end Measurable

/-! ### Whole portfolios -/

section Whole

variable {V : Type} {sim}

theorem codes_keptWith (sim : Bool) (kept : Visit V → Entry V → Kept V)
    (hcode : ∀ v e, (kept v e).code = v.holding.code) (visits : List (Visit V))
    (funds : FundCache V) :
    ((visits.zip (entriesMet sim visits funds)).map fun ve => kept ve.1 ve.2).map Kept.code =
      visits.map fun v => v.holding.code := by
  have hlength : visits.length ≤ (entriesMet sim visits funds).length :=
    (length_entriesMet sim visits funds).ge
  calc _ = ((visits.zip (entriesMet sim visits funds)).map Prod.fst).map
          fun v => v.holding.code := by
        rw [List.map_map, List.map_map]
        exact List.map_congr_left fun ve _ => hcode ve.1 ve.2
    _ = visits.map fun v => v.holding.code := by rw [List.map_fst_zip hlength]

theorem getLastD_pos {navs : List ℚ} (hne : navs ≠ []) (h : ∀ x ∈ navs, 0 < x) :
    0 < navs.getLastD 0 := by
  rw [List.getLastD_eq_getLast?, List.getLast?_eq_some_getLast hne]
  exact h _ (List.getLast_mem hne)

variable {visits : List Visit} {funds : FundCache}

theorem Usable.distinct_kept (h : Usable sim visits funds) :
    ((keptAll sim visits funds).map Kept.code).Nodup := by
  rw [keptAll, codes_keptWith sim keptOf fun _ _ => rfl]
  exact h.distinct

theorem Usable.total_pos (h : Usable sim visits funds) :
    0 < ((keptAll sim visits funds).map Kept.value).sum := by
  refine WeightedSeries.sum_pos_of_pos ?_ ?_
  · intro hnil
    have hcodes : (keptAll sim visits funds).map Kept.code = visits.map fun v => v.holding.code :=
      codes_keptWith sim keptOf (fun _ _ => rfl) visits funds
    rw [List.map_eq_nil_iff.1 hnil, List.map_nil] at hcodes
    exact h.nonempty (List.map_eq_nil_iff.1 hcodes.symm)
  · intro a ha
    obtain ⟨k, hk, rfl⟩ := List.mem_map.1 ha
    obtain ⟨⟨v, e⟩, hve, rfl⟩ := List.mem_map.1 hk
    obtain ⟨hv, he⟩ := List.of_mem_zip hve
    have hlength := length_navs_of_real (h.real e he)
    refine mul_pos (h.shares v hv) (getLastD_pos ?_ (navs_pos (h.positive e he)))
    intro hnil
    rw [hnil] at hlength
    simp at hlength

theorem Usable.matrix (h : Usable sim visits funds) :
    matrix (weightsOfKept (keptAll sim visits funds)) (seriesOfKept (keptAll sim visits funds)) =
      cutRows ((keptAll sim visits funds).map Kept.returns) := by
  rw [PortfolioRisk.matrix,
    rows_kept h.distinct_kept (keys_weightsOfKept h.distinct_kept h.total_pos.ne')]

end Whole

/-! Two funds of five days. -/

/-- Five days of a fund, by their dates. -/
def fiveDaysOf (dates : List String) : List NavPoint :=
  List.zipWith (fun d nav => { date := d, nav := nav }) dates [1, 11 / 10, 6 / 5, 13 / 10, 7 / 5]

/-- The provider has a history for each of two funds. -/
def twoFunds (dates dates' : List String) : Moment :=
  { now := 0,
    provider := fun code _ =>
      { real := some (fiveDaysOf (if code = "000001" then dates else dates')), simulated := [],
        fetchedAt := "" } }

/-- One share of the first fund and two of the second. -/
def twoHoldings (m : Moment) : List Visit :=
  [{ holding := { code := "000001", shares := 1 }, moment := m },
    { holding := { code := "000002", shares := 2 }, moment := m }]

def tradingDays : List String := ["05", "06", "07", "08", "09"]

/-- The second fund has no NAV for the fourth day, and one more at the front. -/
def otherDays : List String := ["02", "05", "06", "07", "09"]

theorem usable_tradingDays :
    Usable true (twoHoldings (twoFunds tradingDays tradingDays)) (fun _ => none) where
  nonempty := by decide
  distinct := by decide
  shares := by decide
  real := by decide
  positive := by decide +kernel

/-! ### The days of the columns -/

/-- The returns of a series, each with the two dates it is between. -/
def datedReturns (points : List NavPoint) : List ((String × String) × ℚ) :=
  (steps points).map fun pq => ((pq.1.date, pq.2.date), pq.2.nav / pq.1.nav - 1)

/-- The matrix of the entries, with the dates that the program drops. -/
def datedMatrix (entries : List Entry) : List (List ((String × String) × ℚ)) :=
  cutRows (entries.map fun e => datedReturns e.points)

/-- All returns of a column are between the same two dates. -/
def SameDays (m : List (List ((String × String) × ℚ))) : Prop :=
  ∀ j : ℕ, ∀ row ∈ m, ∀ row' ∈ m, (row[j]?).map Prod.fst = (row'[j]?).map Prod.fst

def datesOf (e : Entry) : List String := e.points.map NavPoint.date

/-- The number of points of the shortest series. -/
def shortest (entries : List Entry) : ℕ := commonSize (entries.map datesOf)

section Days

variable {entries : List Entry}

theorem map_snd_datedReturns (points : List NavPoint) :
    (datedReturns points).map Prod.snd = Indicators.returns (navsOf points) := by
  rw [datedReturns, steps, List.map_map, Indicators.returns, navsOf, ← List.map_tail,
    List.zipWith_map, ← List.map_uncurry_zip_eq_zipWith]
  rfl

theorem map_fst_datedReturns (points : List NavPoint) :
    (datedReturns points).map Prod.fst = steps (points.map NavPoint.date) := by
  rw [datedReturns, steps, steps, List.map_map, ← List.map_tail, List.zip_map]
  rfl

theorem length_datedReturns (points : List NavPoint) :
    (datedReturns points).length = points.length - 1 := by
  rw [datedReturns, List.length_map, WeightedSeries.length_steps]

theorem map_lastN {α β : Type} (f : α → β) (k : ℕ) (xs : List α) :
    (lastN k xs).map f = lastN k (xs.map f) := by
  rw [lastN, lastN, List.map_drop, List.length_map]

/-- A row of dates is that of the last dates of its series. -/
theorem steps_lastN {ds : List String} {n : ℕ} (hn : 1 ≤ n) :
    lastN (n - 1) (steps ds) = steps (lastN n ds) := by
  rw [lastN, lastN, WeightedSeries.steps_drop, WeightedSeries.length_steps]
  congr 1
  omega

/-- The common number of returns is one less than that of points. -/
theorem commonSize_datedReturns (h : ∀ e ∈ entries, 1 ≤ e.points.length) (hne : entries ≠ []) :
    commonSize (entries.map fun e => datedReturns e.points) = shortest entries - 1 := by
  refine le_antisymm ?_ ?_
  · have hle : commonSize (entries.map fun e => datedReturns e.points) + 1 ≤ shortest entries := by
      refine le_commonSize (by simpa using hne) ?_
      intro row hrow
      obtain ⟨e, he, rfl⟩ := List.mem_map.1 hrow
      have hrow' := commonSize_le (List.mem_map_of_mem (f := fun e : Entry => datedReturns e.points) he)
      have hpoints := h e he
      rw [length_datedReturns] at hrow'
      rw [datesOf, List.length_map]
      omega
    omega
  · refine le_commonSize (by simpa using hne) ?_
    intro row hrow
    obtain ⟨e, he, rfl⟩ := List.mem_map.1 hrow
    have hdates := commonSize_le (List.mem_map_of_mem (f := datesOf) he)
    rw [datesOf, List.length_map] at hdates
    rw [length_datedReturns]
    exact Nat.sub_le_sub_right hdates 1

/-- Cutting does not depend on what the rows are of. -/
theorem cutRows_map {α β : Type} (f : α → β) (rows : List (List α)) :
    cutRows (rows.map (List.map f)) = (cutRows rows).map (List.map f) := by
  rw [cutRows, cutRows, commonSize_map _ fun row _ => List.length_map f, List.map_map, List.map_map]
  refine List.map_congr_left fun row _ => ?_
  exact (map_lastN f _ row).symm

/-- The series that the loop keeps are the returns of the entries. -/
theorem returns_keptAll (sim : Bool) (visits : List Visit) (funds : FundCache) :
    (keptAll sim visits funds).map Kept.returns =
      ((entriesMet sim visits funds).map fun e => datedReturns e.points).map (List.map Prod.snd) := by
  have hlength : (entriesMet sim visits funds).length ≤ visits.length :=
    (length_entriesMet sim visits funds).le
  calc (keptAll sim visits funds).map Kept.returns
      = ((visits.zip (entriesMet sim visits funds)).map Prod.snd).map fun e =>
          Indicators.returns (navsOf e.points) := by
        rw [keptAll, List.map_map, List.map_map]
        rfl
    _ = (entriesMet sim visits funds).map fun e => Indicators.returns (navsOf e.points) := by
        rw [List.map_snd_zip hlength]
    _ = _ := by
        rw [List.map_map]
        exact List.map_congr_left fun e _ => (map_snd_datedReturns e.points).symm

/-- Rows have the same dates in each column when they have the same lists of dates. -/
theorem sameDays_iff_map (m : List (List ((String × String) × ℚ))) :
    SameDays m ↔ ∀ row ∈ m, ∀ row' ∈ m, row.map Prod.fst = row'.map Prod.fst := by
  constructor
  · intro h row hrow row' hrow'
    refine List.ext_getElem? fun j => ?_
    rw [List.getElem?_map, List.getElem?_map]
    exact h j row hrow row' hrow'
  · intro h j row hrow row' hrow'
    rw [← List.getElem?_map, ← List.getElem?_map, h row hrow row' hrow']

theorem sameDays_datedMatrix_iff (hne : entries ≠ []) (h : ∀ e ∈ entries, 2 ≤ e.points.length) :
    SameDays (datedMatrix entries) ↔
      ∀ e ∈ entries, ∀ e' ∈ entries,
        lastN (shortest entries) (datesOf e) = lastN (shortest entries) (datesOf e') := by
  have hsize := commonSize_datedReturns (fun e he => le_trans (by decide) (h e he)) hne
  have hshort : 2 ≤ shortest entries := by
    refine le_commonSize (by simpa using hne) ?_
    intro row hrow
    obtain ⟨e, he, rfl⟩ := List.mem_map.1 hrow
    rw [datesOf, List.length_map]
    exact h e he
  -- the dates of a row are the steps of the last dates, and these determine the dates
  have hrow : ∀ e : Entry, (lastN (shortest entries - 1) (datedReturns e.points)).map Prod.fst =
      steps (lastN (shortest entries) (datesOf e)) := by
    intro e
    rw [map_lastN, map_fst_datedReturns, steps_lastN (by omega)]
    rfl
  have hlength : ∀ e ∈ entries, (lastN (shortest entries) (datesOf e)).length = shortest entries :=
    fun e he => length_lastN (commonSize_le (List.mem_map_of_mem he))
  rw [sameDays_iff_map, datedMatrix, cutRows, hsize]
  simp only [List.map_map, List.forall_mem_map, Function.comp_apply, hrow]
  constructor
  · intro hsame e he e' he'
    refine WeightedSeries.steps_inj ?_ ?_ (hsame e he e' he')
    · rw [hlength e he]
      exact hshort
    · rw [hlength e' he']
      exact hshort
  · intro hdates e he e' he'
    rw [hdates e he e' he']

end Days

/-- **The columns of the matrix are days exactly when the last dates of all funds agree**, as many as
the shortest series has. -/
theorem sameDays_iff {sim : Bool} {visits : List Visit} {funds : FundCache}
    (h : Usable sim visits funds) :
    ∃ kept, (collect sim visits funds).1 = .ok (some kept) ∧
      matrix (weightsOfKept kept) (seriesOfKept kept) =
        (datedMatrix (entriesMet sim visits funds)).map (List.map Prod.snd) ∧
      (SameDays (datedMatrix (entriesMet sim visits funds)) ↔
        ∀ e ∈ entriesMet sim visits funds, ∀ e' ∈ entriesMet sim visits funds,
          lastN (shortest (entriesMet sim visits funds)) (datesOf e) =
            lastN (shortest (entriesMet sim visits funds)) (datesOf e')) := by
  have hlength := length_entriesMet sim visits funds
  refine ⟨keptAll sim visits funds, collect_of_usable h, ?_, ?_⟩
  · rw [h.matrix, returns_keptAll, cutRows_map]
    rfl
  · refine sameDays_datedMatrix_iff ?_ ?_
    · intro hnil
      rw [hnil, List.length_nil] at hlength
      exact h.nonempty (List.length_eq_zero_iff.1 hlength.symm)
    · intro e he
      exact le_trans (by decide) (e.enough (h.real e he))

theorem sameDays_iff_tradingDays :
    let visits := twoHoldings (twoFunds tradingDays tradingDays)
    ∃ kept, (collect true visits (fun _ => none)).1 = .ok (some kept) ∧
      matrix (weightsOfKept kept) (seriesOfKept kept) =
        (datedMatrix (entriesMet true visits fun _ => none)).map (List.map Prod.snd) ∧
      (SameDays (datedMatrix (entriesMet true visits fun _ => none)) ↔
        ∀ e ∈ entriesMet true visits (fun _ => none), ∀ e' ∈ entriesMet true visits fun _ => none,
          lastN (shortest (entriesMet true visits fun _ => none)) (datesOf e) =
            lastN (shortest (entriesMet true visits fun _ => none)) (datesOf e')) :=
  sameDays_iff usable_tradingDays

/-- The second fund has no NAV for the fourth day, so its returns stand a day behind. -/
theorem columns_mix_days :
    Usable true (twoHoldings (twoFunds tradingDays otherDays)) (fun _ => none) ∧
      ¬ SameDays (datedMatrix
        (entriesMet true (twoHoldings (twoFunds tradingDays otherDays)) fun _ => none)) := by
  constructor
  · exact ⟨by decide, by decide, by decide, by decide, by decide +kernel⟩
  · intro hsame
    have hcolumn : ∀ row ∈ datedMatrix
        (entriesMet true (twoHoldings (twoFunds tradingDays otherDays)) fun _ => none),
        ∀ row' ∈ datedMatrix
          (entriesMet true (twoHoldings (twoFunds tradingDays otherDays)) fun _ => none),
        (row[2]?).map Prod.fst = (row'[2]?).map Prod.fst := hsame 2
    revert hcolumn
    decide +kernel

end QuantFlow.PortfolioRisk
