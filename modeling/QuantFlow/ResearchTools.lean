/-
**The research tools and their registry.**

`backend/app/agent_tools/read.py` wraps the deterministic core for the agent, and `invoke` of
`registry.py` validates the arguments, runs the handler of the tool, refuses a result whose text is
too long and turns every exception into a failure.

Seven tools answer from the history of one fund.  They share a gate: the fund is looked up, a
window is cut, and the tool goes on only with a REAL entry, a date and enough points.  What they
answer is a function of that window; it never sees the cache.

Main definitions:

* `World`, `ToolEnv` — what the tools reach, and what a call meets;
* `gate`, `Evidence`, `evidenceOf` — the gate, and each tool's window, minimum and answer;
* `newsSearch`, `runNews` — the news tool, and the cache it reads;
* `handle`, `invoke` — the registry.

Main results:

* `invoke_success` — a successful call was validated, handled and short enough;
* `research_rests_on_real_evidence` — **a successful research call used the tail of one
  REAL entry, at least its minimum of points, and says so; a successful news search used no item
  of the built-in library**.
-/

import QuantFlow.FundPage
import QuantFlow.ToolSchemas

namespace QuantFlow

open News (NewsItem NewsList Attempt)

/-! ### What a call reaches and meets -/

/-- What the tools reach. -/
structure World where
  funds : FundCache
  news : TTLCache NewsList
  tables : Tables

/-- What a call meets: the clock and the provider, the fund universe, the news sources, the new id
and time of an experiment, and whether the database can be read and written. -/
structure ToolEnv where
  moment : Moment
  info : String → Except PyError (Option Listing)
  search : String → ℕ → Except PyError (List Py.Json)
  lower : Py.Str → Py.Str
  sample : List NewsItem
  attempts : List Attempt
  newsStored : ℚ
  newId : String
  nowText : String
  readable : Bool
  accepts : Bool

/-- What is fixed for the process: the numeric functions, the switch for generated data, the fees
of the configuration, the validation library and the text it renders of a result (`none` is an
exception).  The text is UTF-8, so a failure is rendered unless its name has a lone surrogate. -/
structure Host where
  numerics : Numerics
  sim : Bool
  fees : Backtest.Fees
  validator : Validator
  render : ToolResult → Option String
  render_failure : ∀ name code message retryable,
    (render (.failure name code message retryable)).isSome = Py.Str.encodable name

variable (host : Host) (env : ToolEnv)

/-! ### The gate -/

/-- `_real(tool, entry, min_points, points)`. -/
def gate (tool : Tool) (entry : Entry) (minPoints : ℕ) (points : List NavPoint) :
    Option ToolResult :=
  if permitsResearch entry.source = false then
    some (.failure (Py.Str.ofString tool.name) "insufficient_evidence"
      "真实净值不可用；模拟或过期数据不能用于研究")
  else if points.length < minPoints ∨ (entry.provenance.dataTimestamp.getD "") = "" then
    some (.failure (Py.Str.ofString tool.name) "insufficient_data" "真实净值或时间戳不足")
  else none

/-- A tool that passes the gate has a REAL entry, enough points and a date. -/
theorem gate_eq_none {tool : Tool} {entry : Entry} {minPoints : ℕ} {points : List NavPoint}
    (h : gate tool entry minPoints points = none) :
    entry.source = .real ∧ minPoints ≤ points.length ∧
      ∃ date, entry.provenance.dataTimestamp = some date ∧ date ≠ "" := by
  unfold gate at h
  split at h
  · cases h
  · rename_i hsource
    split at h
    · cases h
    · rename_i hrest
      have hreal : permitsResearch entry.source = true := by simpa using hsource
      have hlen : ¬ points.length < minPoints := fun hlt => hrest (.inl hlt)
      refine ⟨(permitsResearch_iff _).1 hreal, not_lt.1 hlen, ?_⟩
      cases hd : entry.provenance.dataTimestamp with
      | none => exact absurd (.inr (by rw [hd]; rfl)) hrest
      | some date =>
        refine ⟨date, rfl, ?_⟩
        rintro rfl
        exact hrest (.inr (by rw [hd]; rfl))

theorem success_of_gate {tool : Tool} {entry : Entry} {minPoints : ℕ} {points : List NavPoint}
    {refused : ToolResult} (h : gate tool entry minPoints points = some refused) :
    refused.success = false := by
  unfold gate at h
  split at h
  · cases h
    rfl
  · split at h
    · cases h
      rfl
    · cases h

/-- `_prov(entry, version)`. -/
def prov (entry : Entry) (version : String) : ToolProvenance :=
  { dataSource := .market entry.provenance.dataSource
    provider := entry.provenance.provider
    dataTimestamp := entry.provenance.dataTimestamp
    fetchedAt := some entry.provenance.fetchedAt
    algorithmVersion := version }

/-! ### The seven tools -/

/-- What a tool makes of its window: data under the version of an algorithm, or a refusal. -/
inductive Answer
  | data (data : ToolData) (version : String) (warnings : List String := [])
  | refuse (code message : String)

/-- The fund, window and minimum of a tool, and its answer. -/
structure Evidence where
  code : String
  days : ℤ
  minPoints : ℕ
  answer : DataSource → List NavPoint → Except PyError Answer

/-- The body of `fund_snapshot`. -/
def fundSnapshot (args : FundCode) : Evidence :=
  { code := args.code, days := 60, minPoints := 1
    answer := fun _ points => do
      let info ← env.info args.code
      .ok (.data (.snapshot args.code (info.map Listing.name) points.getLast? points.length)
        "nav-snapshot-v1") }

/-- The body of `fund_history`. -/
def fundHistory (args : HistoryWindow) : Evidence :=
  { code := args.code, days := args.days, minPoints := 2
    answer := fun _ points => .ok (.data (.history args.code points) "nav-history-v1") }

/-- The body of `feature_get`. -/
def featureGet (args : FundWindow) : Evidence :=
  { code := args.code, days := args.days, minPoints := 20
    answer := fun _ points => do
      let navs := navsOf points
      let trend ← Signals.trendScore host.numerics navs
      .ok (.data (.feature args.code (lastDate points) trend
          (Signals.momentumScore host.numerics navs) (Signals.riskScore host.numerics navs))
        signalVersion ["新闻没有可验证的历史可用时间，未加入此特征快照"]) }

/-- The body of `signal_get`. -/
def signalGet (args : FundWindow) : Evidence :=
  { code := args.code, days := args.days, minPoints := 20
    answer := fun source points => do
      let signal ← Signals.computeSignal host.numerics (navsOf points) [] source
      .ok (.data (.signal args.code (lastDate points) signal) signalVersion
        ["新闻情绪因缺少可验证的时间对齐而设为中性；可能与旧页面评分不同"]) }

/-- The body of `risk_fund`. -/
def riskFund (args : FundWindow) : Evidence :=
  { code := args.code, days := args.days, minPoints := 3
    answer := fun _ points =>
      match Risk.calculateMetrics host.numerics (navsOf points) with
      | none => .ok (.refuse "insufficient_data" "无法计算风险指标")
      | some metrics =>
        .ok (.data (.risk args.code (lastDate points) metrics) "risk-metrics-v1") }

/-- The call of the engine that both backtest tools make. -/
def backtestOf (args : BacktestRequest) (points : List NavPoint) :
    Except Backtest.RunError Backtest.Result :=
  Backtest.run host.numerics points args.strategy args.short args.long
    { host.fees with feeBps := args.feeBps }

/-- The two backtest tools refuse crossed windows, pass the engine's refusal and its exceptions on,
and differ in what they make of a result. -/
def backtestAnswer (args : BacktestRequest) (points : List NavPoint)
    (report : Backtest.Result → Answer) : Except PyError Answer :=
  if args.strategy = .maCross ∧ args.long ≤ args.short then
    .ok (.refuse "invalid_input" "短均线周期必须小于长均线周期")
  else
    match backtestOf host args points with
    | .error (.reported message) => .ok (.refuse "insufficient_data" message)
    | .error (.raised e) => .error e
    | .ok result => .ok (report result)

/-- The body of `backtest_run`. -/
def backtestRun (args : BacktestRequest) : Evidence :=
  { code := args.code, days := args.days, minPoints := 40
    answer := fun _ points => backtestAnswer host args points fun result =>
      match result.gross with
      | none => .refuse "incomplete_metrics" "回测未返回完整合同指标"
      | some gross => .data
          (.backtest args.code
            { strategy := result.strategy, strategyName := result.strategyName,
              params := result.params, grossReturn := gross.grossReturn,
              netReturn := gross.netReturn, benchmarkReturn := gross.benchmarkReturn,
              excessReturn := gross.excessReturn, stats := result.stats,
              benchmarkStats := result.benchmarkStats, start := points.head?.map NavPoint.date,
              stop := lastDate points, observations := points.length })
          "backtest-v1" ["benchmark 为同一基金的买入持有净值；未验证样本外表现或基金池偏差"] }

/-- The body of `backtest_audit`. -/
def backtestAudit (args : BacktestRequest) : Evidence :=
  { code := args.code, days := args.days, minPoints := 40
    answer := fun _ points => backtestAnswer host args points fun result => .data
      (.audit args.code (RedTeam.auditBacktest host.numerics points (RedTeam.dictOf result)))
      "backtest-red-team-v1" }

/-- The tools that answer from the history of a fund. -/
def evidenceOf : Input → Option Evidence
  | .fundSnapshot args => some (fundSnapshot env args)
  | .fundHistory args => some (fundHistory args)
  | .featureGet args => some (featureGet host args)
  | .signalGet args => some (signalGet host args)
  | .riskFund args => some (riskFund host args)
  | .backtestRun args => some (backtestRun host args)
  | .backtestAudit args => some (backtestAudit host args)
  | _ => none

/-- The result of an answer, under the provenance of its entry. -/
def Answer.result (tool : Tool) (entry : Entry) : Answer → ToolResult
  | .data d version warnings => .ok tool d (prov entry version) warnings
  | .refuse code message => .failure (Py.Str.ofString tool.name) code message

/-- A research tool: lookup, window, gate, answer. -/
def research (tool : Tool) (ev : Evidence) (w : World) : Except PyError ToolResult × World :=
  let (entry, funds) := ensureFund host.sim env.moment w.funds ev.code ev.days
  let points := slice entry.points ev.days
  let w := { w with funds := funds }
  match gate tool entry ev.minPoints points with
  | some refused => (.ok refused, w)
  | none => ((ev.answer entry.source points).map (Answer.result tool entry), w)

/-! ### The other tools -/

/-- `{**item.model_dump(), "summary": item.summary[:300]}`. -/
def clip (item : NewsItem) : NewsItem :=
  { item with summary := item.summary.take 300 }

/-- `news_search`. -/
def newsSearch (args : NewsSearch) (w : World) : Except PyError ToolResult × World :=
  let (nl, news) := News.fetchNewsCached env.sample w.news env.moment.now env.newsStored env.attempts
  let w := { w with news := news }
  if News.isSample nl then
    (.ok (.failure (Py.Str.ofString Tool.newsSearch.name) "insufficient_evidence"
      "当前只有内置示例资讯"), w)
  else
    let found := News.filterNews env.lower nl args.q none "" .relevance args.limit
    (.ok (.ok .newsSearch (.news (found.items.map clip) found.total)
      { dataSource := .market .real, provider := nl.sourceNote, dataTimestamp := none,
        fetchedAt := none, algorithmVersion := "news-filter-v1" }
      ["新闻发布时间未统一验证，不可用于历史因果判断"]), w)

/-- `fund_search`. -/
def fundSearch (args : FundSearch) : Except PyError ToolResult := do
  let rows ← env.search args.q args.limit
  .ok (.ok .fundSearch (.search rows)
    { dataSource := .reference, provider := "fund_universe", dataTimestamp := none,
      fetchedAt := none, algorithmVersion := "fund-universe-search-v1" }
    ["基金名称/代码参考数据不是实时行情或研究结论"])

/-- The provenance of research metadata, stamped with the time of a row. -/
def metadata (stamp : Option String) : ToolProvenance :=
  { dataSource := .researchMetadata, provider := "quantflow", dataTimestamp := stamp,
    fetchedAt := stamp, algorithmVersion := "experiment-registry-v1" }

/-- The result for an inserted experiment. -/
def created (row : ExperimentRow) : ToolResult :=
  .ok .experimentCreate (.experiment row) (metadata (some row.createdAt))
    ["草稿不是回测结果或生产策略"]

/-- `_experiment_create`. -/
def experimentCreate (args : ExperimentCreate) (w : World) : Except PyError ToolResult × World :=
  match createExperiment env.accepts env.newId env.nowText args w.tables with
  | .error e => (.error e, w)
  | .ok (row, tables) => (.ok (created row), { w with tables := tables })

/-- `_experiment_get`. -/
def experimentGet (args : ExperimentId) (w : World) : Except PyError ToolResult :=
  if env.readable then
    match getExperiment w.tables args.experimentId with
    | none => .ok (.failure (Py.Str.ofString Tool.experimentGet.name) "not_found" "实验不存在")
    | some row => .ok (.ok .experimentGet (.experiment row) (metadata (some row.createdAt)))
  else .error .database

/-- `_experiment_list`. -/
def experimentList (args : ExperimentList) (w : World) : Except PyError ToolResult :=
  if env.readable then
    .ok (.ok .experimentList (.experiments (listExperiments w.tables args.limit)) (metadata none))
  else .error .database

/-! ### The registry -/

/-- The handler of a validated input. -/
def handle (input : Input) (w : World) : Except PyError ToolResult × World :=
  match input with
  | .fundSearch args => (fundSearch env args, w)
  | .newsSearch args => newsSearch env args w
  | .experimentCreate args => experimentCreate env args w
  | .experimentGet args => (experimentGet env args w, w)
  | .experimentList args => (experimentList env args w, w)
  | .fundSnapshot args => research host env .fundSnapshot (fundSnapshot env args) w
  | .fundHistory args => research host env .fundHistory (fundHistory args) w
  | .featureGet args => research host env .featureGet (featureGet host args) w
  | .signalGet args => research host env .signalGet (signalGet host args) w
  | .riskFund args => research host env .riskFund (riskFund host args) w
  | .backtestRun args => research host env .backtestRun (backtestRun host args) w
  | .backtestAudit args => research host env .backtestAudit (backtestAudit host args) w

/-- The result of a handler as `invoke` passes it on: its text must be rendered and short, and an
exception becomes a failure. -/
def settle (name : Py.Str) (res : Except PyError ToolResult) : ToolResult :=
  let unavailable :=
    ToolResult.failure name "tool_unavailable" "工具执行失败；没有生成研究结果" true
  match res with
  | .error _ => unavailable
  | .ok result =>
    match host.render result with
    | none => unavailable
    | some text =>
      if 30000 < text.length then
        .failure name "output_too_large" "结果超过 Agent 工具大小上限，请缩小查询范围"
      else result

/-- `invoke(name, arguments)`. -/
def invoke (name : Py.Str) (arguments : Py.Fields) (w : World) : ToolResult × World :=
  match Tool.ofName name with
  | none => (.failure name "tool_not_allowed" "该工具不在 QuantFlow 白名单中", w)
  | some tool =>
    match host.validator.validate tool arguments with
    | none => (.failure name "invalid_input" "工具输入不符合 schema", w)
    | some input =>
      let (res, w) := handle host env input w
      (settle host name res, w)

/-! ### What a successful call is -/

variable {host env}

/-- A success that `invoke` passes on is the handler's result, and its text was short enough. -/
theorem settle_success {name : Py.Str} {res : Except PyError ToolResult}
    (h : (settle host name res).success = true) :
    res = .ok (settle host name res) ∧
      ∃ text, host.render (settle host name res) = some text ∧ text.length ≤ 30000 := by
  cases res with
  | error e => cases h
  | ok result =>
    cases hr : host.render result with
    | none =>
      simp only [settle, hr] at h
      cases h
    | some text =>
      by_cases hlong : 30000 < text.length
      · simp only [settle, hr, if_pos hlong] at h
        cases h
      · simp only [settle, hr, if_neg hlong]
        exact ⟨trivial, text, rfl, not_lt.1 hlong⟩

/-- A successful call names a tool, passed its schema, and was answered by its handler. -/
theorem invoke_success {name : Py.Str} {arguments : Py.Fields} {w : World}
    (h : (invoke host env name arguments w).1.success = true) :
    ∃ tool input, Tool.ofName name = some tool ∧
      host.validator.validate tool arguments = some input ∧
      handle host env input w =
        (.ok (invoke host env name arguments w).1, (invoke host env name arguments w).2) := by
  unfold invoke at h ⊢
  cases ht : Tool.ofName name with
  | none =>
    simp only [ht] at h
    cases h
  | some tool =>
    simp only [ht] at h ⊢
    cases hv : host.validator.validate tool arguments with
    | none =>
      simp only [hv] at h
      cases h
    | some input =>
      simp only [hv] at h ⊢
      refine ⟨tool, input, rfl, hv, ?_⟩
      obtain ⟨hres, -⟩ := settle_success h
      rw [← hres]

/-! ### What a research tool rests on -/

/-- What a successful research call rests on: the entry now in the cache, the window cut from it,
and an answer computed from that window alone. -/
structure RestsOn (ev : Evidence) (w : World) (r : ToolResult) (entry : Entry)
    (points : List NavPoint) : Prop where
  cached : w.funds ev.code = some entry
  real : entry.source = .real
  window : points = slice entry.points ev.days
  tail : points <:+ entry.points
  enough : ev.minPoints ≤ points.length
  answer : ∃ data version warnings, ev.answer .real points = .ok (.data data version warnings) ∧
    r.data = some data
  provenance : ∃ p date, r.provenance = some p ∧ p.dataSource = .market .real ∧
    p.dataTimestamp = some date ∧ date ≠ "" ∧ lastDate points = some date

theorem research_success {tool : Tool} {ev : Evidence} {w w' : World} {r : ToolResult}
    (hmin : 1 ≤ ev.minPoints) (h : research host env tool ev w = (.ok r, w'))
    (hs : r.success = true) : ∃ entry points, RestsOn ev w' r entry points := by
  have hcached := ensureFund_stored host.sim env.moment w.funds ev.code ev.days
  rcases hl : ensureFund host.sim env.moment w.funds ev.code ev.days with ⟨entry, funds⟩
  rw [hl] at hcached
  simp only [research, hl] at h
  cases hg : gate tool entry ev.minPoints (slice entry.points ev.days) with
  | some refused =>
    simp only [hg] at h
    cases h
    rw [success_of_gate hg] at hs
    cases hs
  | none =>
    obtain ⟨hreal, henough, date, hdate, hne⟩ := gate_eq_none hg
    simp only [hg] at h
    cases ha : ev.answer entry.source (slice entry.points ev.days) with
    | error e =>
      rw [ha] at h
      cases h
    | ok answer =>
      rw [ha] at h
      cases answer with
      | refuse code message =>
        cases h
        cases hs
      | data d version warnings =>
        cases h
        have hnil : slice entry.points ev.days ≠ [] := by
          intro hnil
          rw [hnil] at henough
          simp at henough
          omega
        refine ⟨entry, slice entry.points ev.days, hcached, hreal, rfl,
          slice_suffix _ _, henough, ⟨d, version, warnings, ?_, rfl⟩,
          prov entry version, date, rfl, ?_, hdate, hne, ?_⟩
        · rw [← hreal]
          exact ha
        · show Label.market entry.provenance.dataSource = _
          rw [entry.labelled, hreal]
        · rw [lastDate_slice hnil, ← entry.stamped, hdate]

/-- The tools that answer from the history of a fund. -/
def Tool.onHistory : Tool → Bool
  | .fundSnapshot | .fundHistory | .featureGet | .signalGet | .riskFund | .backtestRun
  | .backtestAudit => true
  | _ => false

/-- Their handlers are `research` with their own evidence. -/
theorem handle_onHistory (host : Host) (env : ToolEnv) (input : Input)
    (h : input.tool.onHistory = true) (w : World) :
    ∃ ev, evidenceOf host env input = some ev ∧ 1 ≤ ev.minPoints ∧
      handle host env input w = research host env input.tool ev w := by
  cases input with
  | fundSnapshot args => exact ⟨_, rfl, by simp [fundSnapshot], rfl⟩
  | fundHistory args => exact ⟨_, rfl, by simp [fundHistory], rfl⟩
  | featureGet args => exact ⟨_, rfl, by simp [featureGet], rfl⟩
  | signalGet args => exact ⟨_, rfl, by simp [signalGet], rfl⟩
  | riskFund args => exact ⟨_, rfl, by simp [riskFund], rfl⟩
  | backtestRun args => exact ⟨_, rfl, by simp [backtestRun], rfl⟩
  | backtestAudit args => exact ⟨_, rfl, by simp [backtestAudit], rfl⟩
  | _ => cases h

/-- The items of a successful news search were fetched in the run or by the call itself. -/
theorem newsSearch_success {ops : List News.NewsOp} {args : NewsSearch} {w w' : World}
    {r : ToolResult} (hw : w.news = News.runNews ops) (h : newsSearch env args w = (.ok r, w'))
    (hs : r.success = true) :
    ∃ items count, r.data = some (.news items count) ∧
      ∃ attempts ∈ News.attemptsOf ops ++ [env.attempts],
        ∀ item ∈ items, ∃ it ∈ News.fetched attempts, item = clip it := by
  have hmerged := News.merged_run ops
  rw [← hw] at hmerged
  obtain ⟨⟨sample, attempts, hmem, hnl⟩, -⟩ := News.fetchNewsCached_merged env.sample
    env.moment.now env.newsStored env.attempts hmerged
  rcases hf : News.fetchNewsCached env.sample w.news env.moment.now env.newsStored env.attempts
    with ⟨nl, news⟩
  rw [hf] at hnl
  have hnl' : nl = News.getNews sample attempts 40 := hnl
  simp only [newsSearch, hf] at h
  by_cases hsample : News.isSample nl = true
  · rw [if_pos hsample] at h
    cases h
    cases hs
  · rw [if_neg hsample] at h
    cases h
    -- the list is not marked, so something was fetched and nothing is from the library
    rw [hnl', News.isSample_getNews_iff] at hsample
    refine ⟨_, _, rfl, attempts, hmem, ?_⟩
    intro item hitem
    obtain ⟨it, hit, rfl⟩ := List.mem_map.1 hitem
    have hin := News.mem_of_mem_filterNews hit
    rw [hnl'] at hin
    rcases News.mem_items_getNews hin with hfetched | ⟨hnone, -⟩
    · exact ⟨it, hfetched, rfl⟩
    · exact absurd hnone hsample

/-- **A successful research call used the tail of one REAL entry, at least its minimum of points,
and says so; a successful news search used no item of the built-in library.** -/
theorem research_rests_on_real_evidence (host : Host) (env : ToolEnv) (ops : List News.NewsOp)
    (name : Py.Str) (arguments : Py.Fields) (w : World) (hw : w.news = News.runNews ops)
    (hs : (invoke host env name arguments w).1.success = true) :
    ∃ tool input, name = Py.Str.ofString tool.name ∧
      host.validator.validate tool arguments = some input ∧
      (tool.onHistory = true → ∃ ev entry points, evidenceOf host env input = some ev ∧
        RestsOn ev (invoke host env name arguments w).2 (invoke host env name arguments w).1 entry
          points) ∧
      (tool = .newsSearch → ∃ items count,
        (invoke host env name arguments w).1.data = some (.news items count) ∧
        ∃ attempts ∈ News.attemptsOf ops ++ [env.attempts],
          ∀ item ∈ items, ∃ it ∈ News.fetched attempts, item = clip it) := by
  obtain ⟨tool, input, ht, hv, hh⟩ := invoke_success hs
  refine ⟨tool, input, Tool.ofName_eq_some.1 ht, hv, ?_, ?_⟩
  · intro hkind
    rw [← host.validator.tool_validate tool arguments input hv] at hkind
    obtain ⟨ev, hev, hmin, heq⟩ := handle_onHistory host env input hkind w
    rw [heq] at hh
    obtain ⟨entry, points, hrests⟩ := research_success hmin hh hs
    exact ⟨ev, entry, points, hev, hrests⟩
  · intro hkind
    have hinput := host.validator.tool_validate tool arguments input hv
    rw [hkind] at hinput
    cases input with
    | newsSearch args => exact newsSearch_success hw hh hs
    | _ => cases hinput

/-! The history of the fund of five days. -/

/-- The input model of the arguments `"code": "000001"`, with the default window. -/
def weekWindow : HistoryWindow :=
  { code := "000001", sixDigits := by decide, days := 60, bounds := by decide }

/-- The arguments `"code": "000001"`. -/
def weekArguments : Py.Fields := [(Py.Str.ofString "code", .text "000001")]

/-- The validation library on these arguments. -/
def weekValidator : Validator :=
  { validate := fun t args =>
      match t, args with
      | .fundHistory, [(k, .str s)] =>
        if k = Py.Str.ofString "code" ∧ s = Py.Str.ofString "000001" then
          some (.fundHistory weekWindow)
        else none
      | _, _ => none
    tool_validate := by
      intro t args input h
      split at h
      · split at h
        · cases h
          rfl
        · cases h
      · cases h }

/-- A renderer whose texts are cut to the first field. -/
def weekHost : Host :=
  { numerics := .runnable, sim := true, fees := {}, validator := weekValidator,
    render := fun r =>
      if Py.Str.encodable r.tool then
        some (if r.success then "\x7b\"success\":true\x7d" else "\x7b\"success\":false\x7d")
      else none
    render_failure := by
      intro name code message retryable
      cases h : Py.Str.encodable name <;> simp [ToolResult.failure, h] }

def weekEnv : ToolEnv :=
  { moment := online 0 week, info := fun _ => .ok none, search := fun _ _ => .ok [], lower := id,
    sample := [], attempts := [], newsStored := 0, newId := "0123456789ab",
    nowText := "2026-01-10", readable := true, accepts := true }

def emptyWorld : World :=
  { funds := fun _ => none, news := .empty,
    tables := { experiments := [], strategyVersions := [], approvals := [] } }

theorem research_rests_on_real_evidence_week :
    (invoke weekHost weekEnv (Py.Str.ofString "fund.history") weekArguments emptyWorld).1.success =
        true ∧
      ∃ ev entry points, RestsOn ev
        (invoke weekHost weekEnv (Py.Str.ofString "fund.history") weekArguments emptyWorld).2
        (invoke weekHost weekEnv (Py.Str.ofString "fund.history") weekArguments emptyWorld).1
        entry points := by
  have hs : (invoke weekHost weekEnv (Py.Str.ofString "fund.history") weekArguments
      emptyWorld).1.success = true := by
    decide +kernel
  obtain ⟨tool, input, hname, -, hhistory, -⟩ :=
    research_rests_on_real_evidence weekHost weekEnv [] _ weekArguments emptyWorld rfl hs
  have htool : Tool.fundHistory = tool :=
    Tool.name_injective (Py.Str.ofString_injective hname)
  obtain ⟨ev, entry, points, -, hrests⟩ := hhistory (by rw [← htool]; rfl)
  exact ⟨hs, ev, entry, points, hrests⟩

end QuantFlow
