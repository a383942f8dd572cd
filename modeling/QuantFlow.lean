import QuantFlow.BacktestCausal
import QuantFlow.BacktestMarks
import QuantFlow.FloatRisk
import QuantFlow.BacktestRounding
import QuantFlow.Comparison
import QuantFlow.DcaReturns
import QuantFlow.DcaRate
import QuantFlow.SignalMonotone
import QuantFlow.IndicatorRanges
import QuantFlow.TtlCache
import QuantFlow.FailedCalls
import QuantFlow.EventPolling
import QuantFlow.FinalAnswers
import QuantFlow.ThreadIsolation
import QuantFlow.EarnedVerification
import QuantFlow.WatchlistRequests
import QuantFlow.FundSearch
import QuantFlow.ExperimentListing
import QuantFlow.StrategyLineage
import QuantFlow.ExperimentRecords
import QuantFlow.PortfolioSummary
import QuantFlow.GrowingHistory
import QuantFlow.OneFundRisk
import QuantFlow.TargetWeights
import QuantFlow.BacktestRoutes
import QuantFlow.Explainer
import QuantFlow.CsvExport
import QuantFlow.RelativeStrength
import QuantFlow.InvestSchedule
import QuantFlow.CacheThreads
import QuantFlow.NewsFetch
import QuantFlow.NewsRequests
import QuantFlow.AgentWire
import QuantFlow.UniverseAge
import QuantFlow.BacktestScale
