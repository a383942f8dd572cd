/-
**The red-team audit of a backtest.**

`backend/app/research/red_team.py` re-derives the signals from the parameters a result reports,
shifts them by a day and compares them with the positions the result claims, checks that the net
return is not above the gross one, and marks everything the program cannot verify as a warning.
The audited result is a dictionary: a missing key is `none` here.

The auditor and the engine are two code paths over the same history.  They agree on every result
the engine produces, and the auditor refuses every other list of positions.

Main definitions:

* `ResultDict`, `dictOf` — a result as the auditor reads it;
* `auditBacktest` — the audit;
* `Report.Reports` — a report contains a check with a given status.

Main results:

* `expected_dictOf` — the auditor recomputes the engine's signals;
* `timingOk_iff` — the timing check accepts exactly the engine's positions;
* `costCheck_ne_fail` — the cost check does not fail on an engine result;
* `audit_run` — **engine and auditor agree on every input**.
-/

import QuantFlow.BacktestFees

namespace QuantFlow

namespace RedTeam

open Backtest

/-! ### The audited dictionary -/

/-- `result["params"]`. -/
structure ParamsDict where
  short : Option ℤ
  long : Option ℤ
  feeBps : Option ℚ
  subscriptionFee : Option ℚ
  redemptionFee : Option ℚ
  managementFee : Option ℚ
  transactionCost : Option ℚ
  execution : Option String
  deriving DecidableEq

/-- The keys of a result that the auditor reads.  `position` is `none` when it is missing or not a
list. -/
structure ResultDict where
  params : ParamsDict
  strategy : Option Strategy
  position : Option (List ℤ)
  grossReturn : Option ℚ
  netReturn : Option ℚ
  benchmarkReturn : Option ℚ
  benchmark : Option (List ℚ)
  deriving DecidableEq

def paramsDictOf (params : Params) : ParamsDict :=
  { short := some params.short
    long := some params.long
    feeBps := some params.fees.feeBps
    subscriptionFee := some params.fees.subscriptionFee
    redemptionFee := some params.fees.redemptionFee
    managementFee := some params.fees.managementFee
    transactionCost := some params.fees.transactionCost
    execution := some params.execution }

/-- The dictionary `run` returns. -/
def dictOf (result : Result) : ResultDict :=
  { params := paramsDictOf result.params
    strategy := some result.strategy
    position := some result.position
    grossReturn := result.gross.map Gross.grossReturn
    netReturn := result.gross.map Gross.netReturn
    benchmarkReturn := result.gross.map Gross.benchmarkReturn
    benchmark := some result.benchmark }

/-! ### The audit -/

inductive CheckCode
  | executionTiming
  | transactionCost
  | benchmark
  | sampleSize
  | dataLeakage
  | newsTiming
  | survivorship
  | parameterSelection
  | outOfSample
  | regimeStability
  deriving DecidableEq

inductive Status
  | pass
  | warning
  | fail
  deriving DecidableEq

structure AuditCheck where
  code : CheckCode
  status : Status
  detail : String
  deriving DecidableEq

structure Report where
  verdict : Status
  checks : List AuditCheck
  deriving DecidableEq

variable (N : Numerics)

/-- The signals the reported parameters imply. -/
def expected (navs : List ℚ) (d : ResultDict) : Option (List ℤ) :=
  let short := (d.params.short.getD 5).toNat
  let long := (d.params.long.getD 20).toNat
  match d.strategy with
  | some .maCross => some (signalsMa N navs short long)
  | some .momentum => some (signalsMomentum navs short)
  | some .buyHold => some (List.replicate navs.length 1)
  | _ => none

/-- The reported positions are the expected signals executed a day later. -/
def timingOk (points : List NavPoint) (d : ResultDict) : Bool :=
  match expected N (navsOf points) d, d.position with
  | some exp, some actual =>
    actual.length = points.length && actual = 0 :: exp.dropLast &&
      d.params.execution = some "signal_t_execute_t_plus_1"
  | _, _ => false

def timingCheck (points : List NavPoint) (d : ResultDict) : AuditCheck :=
  if timingOk N points d then
    { code := .executionTiming, status := .pass, detail := "逐日持仓与 T+1 执行轨迹一致" }
  else
    { code := .executionTiming, status := .fail, detail := "持仓轨迹与 T 日信号在 T+1 执行不一致" }

/-- The values of the five fee fields, in the order the auditor lists them. -/
def feeFields (p : ParamsDict) : List (Option ℚ) :=
  [p.feeBps, p.subscriptionFee, p.redemptionFee, p.managementFee, p.transactionCost]

def costCheck (d : ResultDict) : AuditCheck :=
  match d.grossReturn, d.netReturn, (feeFields d.params).all Option.isSome with
  | some gross, some net, true =>
    if net > gross + 2 / 100 then
      { code := .transactionCost, status := .fail, detail := "净收益高于总收益，费用口径不一致" }
    else if (feeFields d.params).all (· = some 0) then
      { code := .transactionCost, status := .warning,
        detail := "所有费用为零，真实交易成本未验证" }
    else
      { code := .transactionCost, status := .pass, detail := "已报告总/净收益及费用参数" }
  | _, _, _ =>
    { code := .transactionCost, status := .fail, detail := "缺少总收益、净收益或费用参数" }

def benchmarkCheck (d : ResultDict) : AuditCheck :=
  if d.benchmarkReturn.isNone || (d.benchmark.getD []).isEmpty then
    { code := .benchmark, status := .fail, detail := "缺少 benchmark" }
  else
    { code := .benchmark, status := .warning,
      detail := "benchmark 为同一基金买入持有；独立市场基准未验证" }

def sampleCheck (points : List NavPoint) : AuditCheck :=
  if points.length < 120 then
    { code := .sampleSize, status := .warning, detail := "少于 120 个日频净值点" }
  else
    { code := .sampleSize, status := .pass,
      detail := "至少 120 个日频净值点；不代表统计显著性" }

/-- The dimensions the program has no data for. -/
def unverified : List AuditCheck :=
  [(.dataLeakage, "没有冻结特征/数据集版本，不能排除其他泄漏"),
    (.newsTiming, "没有历史新闻可用时间，不能验证新闻时间对齐"),
    (.survivorship, "没有冻结历史基金池，不能排除幸存者或选择偏差"),
    (.parameterSelection, "没有完整参数搜索记录，不能排除过拟合或时间窗口挑选"),
    (.outOfSample, "没有独立样本外回测结果"),
    (.regimeStability, "没有跨市场状态或极端行情分层结果")].map fun cd =>
      { code := cd.1, status := .warning, detail := cd.2 }

def auditBacktest (points : List NavPoint) (d : ResultDict) : Report :=
  let checks := [timingCheck N points d, costCheck d, benchmarkCheck d, sampleCheck points] ++
    unverified
  { verdict := if checks.any (·.status = .fail) then .fail else .warning, checks := checks }

/-- The report has a check of this code with this status. -/
def Report.Reports (report : Report) (code : CheckCode) (status : Status) : Prop :=
  ∃ c ∈ report.checks, c.code = code ∧ c.status = status

/-! ### Reading a report -/

@[simp] theorem timingCheck_code (points : List NavPoint) (d : ResultDict) :
    (timingCheck N points d).code = .executionTiming := by
  unfold timingCheck; split_ifs <;> rfl

@[simp] theorem timingCheck_status (points : List NavPoint) (d : ResultDict) :
    (timingCheck N points d).status = if timingOk N points d then .pass else .fail := by
  unfold timingCheck; split_ifs <;> rfl

@[simp] theorem costCheck_code (d : ResultDict) : (costCheck d).code = .transactionCost := by
  unfold costCheck
  split
  · split_ifs <;> rfl
  · rfl

@[simp] theorem benchmarkCheck_code (d : ResultDict) : (benchmarkCheck d).code = .benchmark := by
  unfold benchmarkCheck; split_ifs <;> rfl

@[simp] theorem sampleCheck_code (points : List NavPoint) :
    (sampleCheck points).code = .sampleSize := by
  unfold sampleCheck; split_ifs <;> rfl

theorem sampleCheck_ne_fail (points : List NavPoint) : (sampleCheck points).status ≠ .fail := by
  unfold sampleCheck; split_ifs <;> simp

/-- The report's timing status is the status of the timing check, which it always contains. -/
theorem reports_timing_iff (points : List NavPoint) (d : ResultDict) (st : Status) :
    (auditBacktest N points d).Reports .executionTiming st ↔
      (timingCheck N points d).status = st := by
  simp [Report.Reports, auditBacktest, unverified]

theorem reports_cost_iff (points : List NavPoint) (d : ResultDict) (st : Status) :
    (auditBacktest N points d).Reports .transactionCost st ↔ (costCheck d).status = st := by
  simp [Report.Reports, auditBacktest, unverified]

theorem reports_benchmark_iff (points : List NavPoint) (d : ResultDict) (st : Status) :
    (auditBacktest N points d).Reports .benchmark st ↔ (benchmarkCheck d).status = st := by
  simp [Report.Reports, auditBacktest, unverified]

/-- Only the three substantial checks can make the verdict a failure. -/
theorem verdict_fail_iff (points : List NavPoint) (d : ResultDict) :
    (auditBacktest N points d).verdict = .fail ↔ timingOk N points d = false ∨
      (costCheck d).status = .fail ∨ (benchmarkCheck d).status = .fail := by
  have hsample := sampleCheck_ne_fail points
  cases htime : timingOk N points d with
  | false => simp [auditBacktest, unverified, htime]
  | true =>
    simp only [auditBacktest, unverified]
    simp [hsample, htime, or_iff_not_imp_left]

theorem verdict_fail_or_warning (points : List NavPoint) (d : ResultDict) :
    (auditBacktest N points d).verdict = .fail ∨
      (auditBacktest N points d).verdict = .warning := by
  simp only [auditBacktest]
  split_ifs
  · exact Or.inl rfl
  · exact Or.inr rfl

/-! ### The auditor against the engine -/

variable {N}

/-- The auditor recomputes the signals of the engine from the windows the engine reports. -/
theorem expected_dictOf {points : List NavPoint} {strategy : Strategy} (hs : strategy.Known)
    {short long : ℤ} {d : ResultDict} (hstr : d.strategy = some strategy)
    (hshort : d.params.short = some short) (hlong : d.params.long = some long) :
    expected N (navsOf points) d = some (rawPos N strategy (navsOf points) short long) := by
  cases strategy with
  | other name => exact absurd hs id
  | _ => simp [expected, hstr, hshort, hlong, rawPos]

/-- **The timing check accepts the engine's positions and no others.** -/
theorem timingOk_iff {points : List NavPoint} {strategy : Strategy} (hs : strategy.Known)
    (hne : points ≠ []) (short long : ℤ) (fees : Fees) {d : ResultDict} {actual : List ℤ}
    (hstr : d.strategy = some strategy)
    (hparams : d.params = paramsDictOf (runOnce N points strategy short long fees).params)
    (hactual : d.position = some actual) :
    timingOk N points d = true ↔
      actual = (runOnce N points strategy short long fees).position := by
  have hexp : expected N (navsOf points) d = some (rawPos N strategy (navsOf points)
      (clampShort short) (clampLong (clampShort short) long)) :=
    expected_dictOf hs hstr (by rw [hparams]; rfl) (by rw [hparams]; rfl)
  have hexec : d.params.execution = some "signal_t_execute_t_plus_1" := by
    rw [hparams]; rfl
  have hpos : (runOnce N points strategy short long fees).position =
      0 :: (rawPos N strategy (navsOf points) (clampShort short)
        (clampLong (clampShort short) long)).dropLast :=
    position_eq N fees strategy _ _ points
  have hlen : (0 :: (rawPos N strategy (navsOf points) (clampShort short)
      (clampLong (clampShort short) long)).dropLast).length = points.length := by
    have := List.length_pos_iff.2 hne
    simp only [List.length_cons, List.length_dropLast, length_rawPos, navsOf, List.length_map]
    omega
  rw [timingOk, hexp, hactual, hpos]
  simp only [hexec, Bool.and_eq_true, decide_eq_true_eq]
  constructor
  · rintro ⟨⟨-, h⟩, -⟩
    exact h
  · rintro rfl
    exact ⟨⟨hlen, rfl⟩, trivial⟩

/-- A result with all fee fields and a net return not above the gross return passes the cost
check. -/
theorem costCheck_ne_fail {d : ResultDict} {gross net : ℚ} (hg : d.grossReturn = some gross)
    (hn : d.netReturn = some net) (hfields : (feeFields d.params).all Option.isSome = true)
    (hle : net ≤ gross) : (costCheck d).status ≠ .fail := by
  have hnot : ¬ net > gross + 2 / 100 := by
    have : (0 : ℚ) < 2 / 100 := by norm_num
    linarith
  rw [costCheck, hg, hn, hfields]
  simp only [if_neg hnot]
  split_ifs <;> simp

theorem benchmarkCheck_ne_fail {d : ResultDict} {ret : ℚ} (hr : d.benchmarkReturn = some ret)
    {series : List ℚ} (hb : d.benchmark = some series) (hne : series ≠ []) :
    (benchmarkCheck d).status ≠ .fail := by
  have hempty : series.isEmpty = false := by
    cases series with
    | nil => exact absurd rfl hne
    | cons => rfl
  simp [benchmarkCheck, hr, hb, hempty]

/-- **Engine and auditor agree.**  On every history of five or more positive NAVs, every offered
strategy, all windows and all fees whose management fee does not exceed the capital, the audit of
the engine's result passes the timing check, does not fail, and ends in a warning; with any other
list of positions it fails. -/
theorem audit_run (pow : ℚ → ℚ → ℚ) (sqrt : ℚ → ℚ) (points : List NavPoint)
    (hlen : 5 ≤ points.length) (hpos : ∀ p ∈ points, 0 < p.nav) (strategy : Strategy)
    (hs : strategy.Known) (short long : ℤ) (fees : Fees) (hfees : fees.managementFee ≤ 252) :
    ∃ r : Result, run (.python pow sqrt) points strategy short long fees = .ok r ∧
      (auditBacktest (.python pow sqrt) points (dictOf r)).Reports .executionTiming .pass ∧
      ¬ (auditBacktest (.python pow sqrt) points (dictOf r)).Reports .executionTiming .fail ∧
      ¬ (auditBacktest (.python pow sqrt) points (dictOf r)).Reports .transactionCost .fail ∧
      ¬ (auditBacktest (.python pow sqrt) points (dictOf r)).Reports .benchmark .fail ∧
      (auditBacktest (.python pow sqrt) points (dictOf r)).verdict = .warning ∧
      ∀ position : List ℤ, position ≠ r.position →
        (auditBacktest (.python pow sqrt) points
          { dictOf r with position := some position }).Reports .executionTiming .fail ∧
        (auditBacktest (.python pow sqrt) points
          { dictOf r with position := some position }).verdict = .fail := by
  have hN := Numerics.python_monotoneRounding pow sqrt
  have hne : points ≠ [] := by rintro rfl; simp at hlen
  refine ⟨_, run_eq_ok _ hlen hpos strategy short long fees, ?_⟩
  set net := runOnce (.python pow sqrt) points strategy short long fees with hnet
  set gross := runOnce (.python pow sqrt) points strategy (clampShort short)
    (clampLong (clampShort short) long) Fees.zero with hgross
  have hret : net.stats.perf.totalReturn ≤ gross.stats.perf.totalReturn := by
    rw [hgross, runOnce_clamp]
    exact totalReturn_le_gross hN.dayRounding (hN.mono 2) (by omega) hpos strategy short long hfees
  have htime : timingOk (.python pow sqrt) points (dictOf (withGross net gross)) = true :=
    (timingOk_iff hs hne short long fees rfl rfl rfl).2 rfl
  have hcost : (costCheck (dictOf (withGross net gross))).status ≠ .fail :=
    costCheck_ne_fail rfl rfl rfl hret
  have hseries : benchmarkOf (.python pow sqrt) (navsOf points) ≠ [] := by
    simpa [benchmarkOf, navsOf] using hne
  have hbench : (benchmarkCheck (dictOf (withGross net gross))).status ≠ .fail :=
    benchmarkCheck_ne_fail rfl rfl hseries
  refine ⟨?_, ?_, ?_, ?_, ?_, ?_⟩
  · rw [reports_timing_iff, timingCheck_status, if_pos htime]
  · rw [reports_timing_iff, timingCheck_status, if_pos htime]
    simp
  · rwa [reports_cost_iff]
  · rwa [reports_benchmark_iff]
  · refine (verdict_fail_or_warning _ points _).resolve_left fun hfail => ?_
    rcases (verdict_fail_iff _ points _).1 hfail with h | h | h
    · rw [htime] at h
      cases h
    · exact hcost h
    · exact hbench h
  · intro position hposition
    have hbad : timingOk (.python pow sqrt) points
        { dictOf (withGross net gross) with position := some position } = false := by
      rw [Bool.eq_false_iff]
      intro h
      exact hposition ((timingOk_iff hs hne short long fees rfl rfl rfl).1 h)
    refine ⟨?_, (verdict_fail_iff _ points _).2 (Or.inl hbad)⟩
    rw [reports_timing_iff, timingCheck_status, hbad]
    rfl

theorem audit_run_fiveDays :
    ∃ r : Result, run Numerics.runnable (fiveDays 2) .buyHold 5 20 {} = .ok r ∧
      (auditBacktest Numerics.runnable (fiveDays 2) (dictOf r)).verdict = .warning ∧
      (auditBacktest Numerics.runnable (fiveDays 2)
        { dictOf r with position := some [1, 1, 1, 1, 1] }).verdict = .fail := by
  obtain ⟨r, hr, -, -, -, -, hverdict, hother⟩ := audit_run (fun x y => x ^ y.num.toNat)
    (fun x => (Nat.sqrt ⌊x * 10 ^ 24⌋.toNat : ℚ) / 10 ^ 12) (fiveDays 2) (by decide)
    (by decide +kernel) .buyHold trivial 5 20 {} (by norm_num)
  have hpos : r.position = [0, 1, 1, 1, 1] := by
    have hrun : (run Numerics.runnable (fiveDays 2) .buyHold 5 20 {}).toOption.map
        Result.position = some [0, 1, 1, 1, 1] := by decide +kernel
    rw [show run Numerics.runnable (fiveDays 2) .buyHold 5 20 {} = .ok r from hr] at hrun
    exact Option.some.inj hrun
  exact ⟨r, hr, hverdict, (hother _ (by rw [hpos]; decide)).2⟩

end RedTeam

end QuantFlow
