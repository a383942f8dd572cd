/-
**The agent tools: their inputs and results.**

`backend/app/agent_tools/schemas.py` and `registry.py` fix what may cross the boundary to the agent:
twelve tools, each with an input model, and one shape of result.  An input model is a record whose
fields carry their bounds, so an input out of bounds cannot be built; turning an argument object
into one is the validation library's work and a parameter here.

Main definitions:

* `FundCode`, …, `ExperimentList` — the input models;
* `Tool`, `Tool.ofName` — the registered tools and their names;
* `Input`, `Validator` — a validated input of a tool;
* `ToolResult`, `ToolResult.failure` — the results.

Main results:

* `Tool.ofName_eq_some` — a tool has exactly one name.
-/

import QuantFlow.News
import QuantFlow.RedTeam
import QuantFlow.ResearchDb
import QuantFlow.Signals

namespace QuantFlow

/-! ### Input models -/

/-- Six digits; no tool looks at more than the length. -/
structure FundCode where
  code : String
  sixDigits : code.length = 6

structure FundSearch where
  q : String
  limit : ℕ
  bounds : 1 ≤ q.length ∧ q.length ≤ 60 ∧ 1 ≤ limit ∧ limit ≤ 20

structure FundWindow extends FundCode where
  days : ℤ
  bounds : 20 ≤ days ∧ days ≤ 400

structure HistoryWindow extends FundCode where
  days : ℤ
  bounds : 20 ≤ days ∧ days ≤ 120

structure BacktestRequest extends FundCode where
  strategy : Backtest.Strategy
  short : ℤ
  long : ℤ
  days : ℤ
  feeBps : ℚ
  known : strategy.Known
  bounds : 2 ≤ short ∧ short ≤ 120 ∧ 3 ≤ long ∧ long ≤ 250 ∧ 40 ≤ days ∧ days ≤ 400 ∧
    0 ≤ feeBps ∧ feeBps ≤ 200

structure NewsSearch where
  q : String
  limit : ℕ
  bounds : 1 ≤ q.length ∧ q.length ≤ 80 ∧ 1 ≤ limit ∧ limit ≤ 10

/-- `EXP-` and twelve hexadecimal digits. -/
structure ExperimentId where
  experimentId : String
  form : "EXP-".toList <+: experimentId.toList ∧ experimentId.length = 16 ∧
    ∀ c ∈ experimentId.toList.drop 4, c ∈ "0123456789abcdef".toList

structure ExperimentList where
  limit : ℕ
  bounds : 1 ≤ limit ∧ limit ≤ 100

/-! ### Tools -/

/-- The keys of `TOOLS`. -/
inductive Tool
  | fundSearch
  | fundSnapshot
  | fundHistory
  | featureGet
  | signalGet
  | riskFund
  | backtestRun
  | backtestAudit
  | newsSearch
  | experimentCreate
  | experimentGet
  | experimentList
  deriving DecidableEq

def Tool.name : Tool → String
  | .fundSearch => "fund.search"
  | .fundSnapshot => "fund.snapshot"
  | .fundHistory => "fund.history"
  | .featureGet => "feature.get"
  | .signalGet => "signal.get"
  | .riskFund => "risk.fund"
  | .backtestRun => "backtest.run"
  | .backtestAudit => "backtest.audit"
  | .newsSearch => "news.search"
  | .experimentCreate => "experiment.create"
  | .experimentGet => "experiment.get"
  | .experimentList => "experiment.list"

def Tool.all : List Tool :=
  [.fundSearch, .fundSnapshot, .fundHistory, .featureGet, .signalGet, .riskFund, .backtestRun,
    .backtestAudit, .newsSearch, .experimentCreate, .experimentGet, .experimentList]

theorem Tool.mem_all (t : Tool) : t ∈ Tool.all := by
  cases t <;> decide

theorem Tool.name_injective : Function.Injective Tool.name := by
  intro s t h
  cases s <;> cases t <;> first | rfl | (simp [Tool.name] at h)

/-- `TOOLS.get(name)`. -/
def Tool.ofName (name : Py.Str) : Option Tool :=
  Tool.all.find? fun t => Py.Str.ofString t.name = name

/-- A name is a key of `TOOLS` exactly when it is the name of a tool. -/
theorem Tool.ofName_eq_some {name : Py.Str} {t : Tool} :
    Tool.ofName name = some t ↔ name = Py.Str.ofString t.name := by
  constructor
  · intro h
    have := List.find?_some h
    exact (of_decide_eq_true this).symm
  · rintro rfl
    cases hf : Tool.ofName (Py.Str.ofString t.name) with
    | none =>
      have hnone := List.find?_eq_none.1 hf t t.mem_all
      simp at hnone
    | some s =>
      have hs := List.find?_some hf
      rw [decide_eq_true_eq] at hs
      rw [Tool.name_injective (Py.Str.ofString_injective hs)]

/-- A validated input: a tool with an instance of its model. -/
inductive Input
  | fundSearch (args : FundSearch)
  | fundSnapshot (args : FundCode)
  | fundHistory (args : HistoryWindow)
  | featureGet (args : FundWindow)
  | signalGet (args : FundWindow)
  | riskFund (args : FundWindow)
  | backtestRun (args : BacktestRequest)
  | backtestAudit (args : BacktestRequest)
  | newsSearch (args : NewsSearch)
  | experimentCreate (args : ExperimentCreate)
  | experimentGet (args : ExperimentId)
  | experimentList (args : ExperimentList)

def Input.tool : Input → Tool
  | .fundSearch _ => .fundSearch
  | .fundSnapshot _ => .fundSnapshot
  | .fundHistory _ => .fundHistory
  | .featureGet _ => .featureGet
  | .signalGet _ => .signalGet
  | .riskFund _ => .riskFund
  | .backtestRun _ => .backtestRun
  | .backtestAudit _ => .backtestAudit
  | .newsSearch _ => .newsSearch
  | .experimentCreate _ => .experimentCreate
  | .experimentGet _ => .experimentGet
  | .experimentList _ => .experimentList

/-- `model.model_validate(arguments)` for the model of each tool; `none` is a `ValidationError`. -/
structure Validator where
  validate : Tool → Py.Fields → Option Input
  tool_validate : ∀ t args input, validate t args = some input → input.tool = t

/-! ### Results -/

structure ToolError where
  code : String
  message : String
  retryable : Bool
  deriving DecidableEq

/-- The `data_source` of a result: a label of market data, or one of the two other kinds. -/
inductive Label
  | market (source : DataSource)
  | reference
  | researchMetadata
  deriving DecidableEq

structure ToolProvenance where
  dataSource : Label
  provider : String
  dataTimestamp : Option String
  fetchedAt : Option String
  algorithmVersion : String
  deriving DecidableEq

/-- The part of a backtest that `backtest.run` reports. -/
structure BacktestReport where
  strategy : Backtest.Strategy
  strategyName : String
  params : Backtest.Params
  grossReturn : ℚ
  netReturn : ℚ
  benchmarkReturn : ℚ
  excessReturn : ℚ
  stats : Backtest.Stats
  benchmarkStats : Indicators.PerfStats
  start : Option String
  stop : Option String
  observations : ℕ
  deriving DecidableEq

/-- The `data` of a result. -/
inductive ToolData
  | search (items : List Py.Json)
  | snapshot (code : String) (name : Option String) (latest : Option NavPoint) (points : ℕ)
  | history (code : String) (points : List NavPoint)
  | feature (code : String) (asOf : Option String) (trend momentum volatilityRisk : ℚ)
  | signal (code : String) (asOf : Option String) (signal : Signals.SignalResult)
  | risk (code : String) (asOf : Option String) (metrics : Risk.Metrics)
  | backtest (code : String) (report : BacktestReport)
  | audit (code : String) (report : RedTeam.Report)
  | news (items : List News.NewsItem) (count : ℕ)
  | experiment (row : ExperimentRow)
  | experiments (rows : List ExperimentRow)

/-- No text of the data contains a lone surrogate. -/
def ToolData.encodable : ToolData → Bool
  | .search items => Py.encodableAll items
  | .experiment row => Py.encodableFields row.request.parameters
  | .experiments rows => rows.all fun row => Py.encodableFields row.request.parameters
  | _ => true

structure ToolResult where
  success : Bool
  tool : Py.Str
  data : Option ToolData
  provenance : Option ToolProvenance
  warnings : List String
  error : Option ToolError

/-- The text of the result has a UTF-8 form. -/
def ToolResult.encodable (r : ToolResult) : Bool :=
  Py.Str.encodable r.tool && r.data.all ToolData.encodable

/-- `success(tool, data, provenance, warnings)`. -/
def ToolResult.ok (tool : Tool) (data : ToolData) (provenance : ToolProvenance)
    (warnings : List String := []) : ToolResult :=
  { success := true, tool := Py.Str.ofString tool.name, data := some data,
    provenance := some provenance, warnings := warnings, error := none }

/-- `failure(tool, code, message, retryable)`. -/
def ToolResult.failure (tool : Py.Str) (code message : String) (retryable : Bool := false) :
    ToolResult :=
  { success := false, tool := tool, data := none, provenance := none, warnings := [],
    error := some { code := code, message := message, retryable := retryable } }

end QuantFlow
