/-
**The assembled states and their cache.**

`build_state` of `backend/app/main.py` joins everything the pages show of one fund: the window cut
from the fund's entry, its signal, risk and forecast, and the provenance of the entry.  A state is
kept for a minute under the code, the window, the date of the last point and the signal version.

The two caches live as long as the process.  Requests reach them only through `ensure_fund` and
`build_state`, and empty them when a fund is deleted, when the watchlist is reset, on a refresh and
before a forced analysis; a run of the process is a sequence of these operations.

Main definitions:

* `State`, `assemble` — an assembled state;
* `App`, `buildState` — the two caches, and the lookup through both;
* `Op`, `step` — the operations of a run;
* `StateOk` — the invariant of a stored state.

Main results:

* `stateOk_run` — every state stored in a run was assembled from an entry that has the
  date of its key;
* `buildState_coherent` — **a state returned in a run is young, dated like the entry of
  the same call, carries the signal of its own points, and is blocked unless it is REAL**.
-/

import QuantFlow.FundCache
import QuantFlow.Predictor

namespace QuantFlow

open Signals (SignalResult computeSignal)
open Predictor (Prediction Sentiment Draws)

variable (N : Numerics) (sim : Bool)

/-! ### Assembling a state -/

inductive RiskLevel
  | low
  | medium
  | high
  deriving DecidableEq

/-- The `risk` part of a state: one of the two refusals, or the metrics with the score of the
signal and its level. -/
inductive RiskReport
  | blockedSimulatedData
  | insufficientData
  | ok (metrics : Risk.Metrics) (riskScore : ℚ) (riskLevel : RiskLevel)
  deriving DecidableEq

def RiskLevel.ofScore (score : ℚ) : RiskLevel :=
  if 67 ≤ score then .high else if 34 ≤ score then .medium else .low

/-- The risk part of the state of a labelled series. -/
def riskReport (navs : List ℚ) (source : DataSource) (signal : SignalResult) : RiskReport :=
  if permitsResearch source then
    match Risk.calculateMetrics N navs with
    | none => .insufficientData
    | some metrics => .ok metrics (signal.riskScore.getD 0) (.ofScore (signal.riskScore.getD 0))
  else .blockedSimulatedData

/-- The assembled state of a fund. -/
structure State where
  points : List NavPoint
  source : DataSource
  sentiment : Sentiment
  pred : Prediction
  latest : Option NavPoint
  signal : SignalResult
  risk : RiskReport
  provenance : Provenance

/-- The word for a state in the deterministic explanation. -/
def stateText : Signals.State → String
  | .positive => "增强"
  | .neutral => "中性"
  | .negative => "减弱"
  | .unavailable => "暂无"

/-- The headline of the deterministic explanation, `f"{name}趋势{state}"`. -/
def headline (name : String) (state : Signals.State) : String := name ++ "趋势" ++ stateText state

/-- `llm.analyze` without a model: it fails exactly when the headline is over the 80 characters of
its schema. -/
def analyze (name : String) (signal : SignalResult) : Except PyError Unit :=
  if signal.status = .ok ∧ 80 < (headline name signal.state).length then .error .validation
  else .ok ()

/-- The `pred` part of a state: the forecast, or what stands in its place. -/
def forecast (draws : Draws) (code : String) (points : List NavPoint) (source : DataSource)
    (sentiment : Sentiment) : Except PyError Prediction :=
  if permitsResearch source then Predictor.predict N draws code points sentiment
  else do
    let ind ← Predictor.computeIndicators N points
    .ok (Predictor.blocked ind)

/-- The part of `build_state` after the caches: everything is computed from one entry. -/
def assemble (draws : Draws) (code name : String) (news : List News.NewsItem) (days : ℤ)
    (entry : Entry) : Except PyError State := do
  let points := slice entry.points days
  let source := entry.source
  let sentiment := Predictor.aggregateNewsSentiment N news
  let navs := navsOf points
  let signal ← computeSignal N navs [] source
  let pred ← forecast N draws code points source sentiment
  analyze name signal
  .ok
    { points := points, source := source, sentiment := sentiment, pred := pred,
      latest := points.getLast?, signal := signal, risk := riskReport N navs source signal,
      provenance := entry.provenance }

/-! ### The two caches -/

structure StateKey where
  code : String
  days : ℤ
  dataTimestamp : Option String
  signalVersion : String
  deriving DecidableEq

structure Stored where
  state : State
  updated : ℚ

/-- `config.CACHE_TTL_SECONDS`. -/
def cacheTtlSeconds : ℚ := 60

structure App where
  funds : FundCache
  states : StateKey → Option Stored

def App.empty : App := { funds := fun _ => none, states := fun _ => none }

/-- The key of the state of an entry. -/
def stateKey (code : String) (days : ℤ) (entry : Entry) : StateKey :=
  { code := code, days := days, dataTimestamp := entry.provenance.dataTimestamp,
    signalVersion := signalVersion }

def Stored.fresh (now : ℚ) (s : Stored) : Bool := now - s.updated < cacheTtlSeconds

/-- The arguments of `build_state`, and what it meets: the moment of its lookup, the clock reading
after it, and the draws of the forecast. -/
structure Build where
  code : String
  name : String
  news : List News.NewsItem
  days : ℤ := historyDays
  moment : Moment
  now : ℚ
  draws : Draws

/-- The stored state of an entry, when it has to be assembled. -/
def Build.load (b : Build) (entry : Entry) : Except PyError Stored := do
  let state ← assemble N b.draws b.code b.name b.news b.days entry
  .ok { state := state, updated := b.now }

/-- The lookup of `build_state`, with the clock reading of the state. -/
def lookupState (b : Build) (app : App) : Except PyError Stored × App :=
  let (entry, funds) := ensureFund sim b.moment app.funds b.code b.days
  let (found, states) := KeyedCache.tryLookup (Stored.fresh b.now) (b.load N entry) app.states
    (stateKey b.code b.days entry)
  (found, { funds := funds, states := states })

/-- `build_state(code, meta, news_list, days)`. -/
def buildState (b : Build) (app : App) : Except PyError State × App :=
  let (found, app) := lookupState N sim b app
  (found.map Stored.state, app)

/-! ### Runs -/

inductive Op
  | ensureFund (code : String) (days : ℤ) (moment : Moment)
  | buildState (b : Build)
  | deleteFund (code : String) (watched : Bool)
  | resetWatchlist
  | refresh (watchlist : List (String × Moment))
  | forget (code : String)

/-- `delete_fund`, after the watchlist has answered whether it held the code. -/
def deleteFund (code : String) (watched : Bool) (app : App) : App :=
  if watched then
    { funds := Function.update app.funds code none,
      states := fun k => if k.code = code then none else app.states k }
  else app

/-- The lookups of a refresh, one for each watched fund. -/
def fetchAll (watchlist : List (String × Moment)) (funds : FundCache) : FundCache :=
  watchlist.foldl (fun funds w => (ensureFund sim w.2 funds w.1).2) funds

/-- `refresh`: both caches are emptied and the watched funds are fetched again. -/
def refresh (watchlist : List (String × Moment)) : App :=
  { App.empty with funds := fetchAll sim watchlist App.empty.funds }

/-- One operation. -/
def step (app : App) : Op → App
  | .ensureFund code days moment =>
    { app with funds := (ensureFund sim moment app.funds code days).2 }
  | .buildState b => (buildState N sim b app).2
  | .deleteFund code watched => deleteFund code watched app
  | .resetWatchlist => App.empty
  | .refresh watchlist => refresh sim watchlist
  | .forget code => { app with funds := Function.update app.funds code none }

/-- The caches after a run of the process. -/
def run (ops : List Op) : App := KeyedCache.exec (step N sim) App.empty ops

/-! ### What an assembled state is -/

/-- The facts that tie an assembled state to the entry it was assembled from. -/
structure Assembled (days : ℤ) (entry : Entry) (st : State) : Prop where
  points : st.points = slice entry.points days
  source : st.source = entry.source
  provenance : st.provenance = entry.provenance
  latest : st.latest = st.points.getLast?
  signal : computeSignal N (navsOf st.points) [] st.source = .ok st.signal
  risk : st.risk = riskReport N (navsOf st.points) st.source st.signal
  noFuture : st.source ≠ .real → st.pred.NoFuture

theorem assembled_of_assemble {draws : Draws} {code name : String} {news : List News.NewsItem}
    {days : ℤ} {entry : Entry} {st : State}
    (h : assemble N draws code name news days entry = .ok st) : Assembled N days entry st := by
  simp only [assemble, except_bind_eq_ok] at h
  obtain ⟨signal, hsignal, pred, hpred, -, -, hst⟩ := h
  cases hst
  refine ⟨rfl, rfl, rfl, rfl, hsignal, rfl, ?_⟩
  intro hsource
  have hblocked : permitsResearch entry.source = false := by
    simpa [permitsResearch] using hsource
  rw [forecast, hblocked, if_neg Bool.false_ne_true, except_bind_eq_ok] at hpred
  obtain ⟨ind, -, hind⟩ := hpred
  cases hind
  exact Predictor.noFuture_blocked ind

/-- A state that is not REAL is blocked in all its parts. -/
theorem Assembled.blocked {days : ℤ} {entry : Entry} {st : State} (h : Assembled N days entry st)
    (hs : st.source ≠ .real) :
    st.signal = Signals.unavailable .blockedSimulatedData ∧ st.risk = .blockedSimulatedData ∧
      st.pred.NoFuture := by
  have hsignal := h.signal
  rw [Signals.computeSignal_of_not_real N hs] at hsignal
  refine ⟨(Except.ok.inj hsignal).symm, ?_, h.noFuture hs⟩
  rw [h.risk, riskReport, if_neg (by simpa using hs)]

/-- The invariant of a stored state: it was assembled, for the window of its key, from an entry
that has the date of its key. -/
def StateOk (k : StateKey) (s : Stored) : Prop :=
  ∃ entry, stateKey k.code k.days entry = k ∧ Assembled N k.days entry s.state

theorem stateOk_of_load {b : Build} {entry : Entry} {s : Stored} (h : b.load N entry = .ok s) :
    StateOk N (stateKey b.code b.days entry) s := by
  rw [Build.load, except_bind_eq_ok] at h
  obtain ⟨st, hst, hs⟩ := h
  cases hs
  exact ⟨entry, rfl, assembled_of_assemble N hst⟩

/-! ### The invariant along a run -/

/-- A lookup of a state keeps the invariant of the stored states. -/
theorem holds_lookupState (b : Build) {app : App}
    (h : KeyedCache.Holds (StateOk N) app.states) :
    KeyedCache.Holds (StateOk N) (lookupState N sim b app).2.states :=
  h.tryLookup fun _ hv => stateOk_of_load N hv

theorem holds_step (app : App) (op : Op) (h : KeyedCache.Holds (StateOk N) app.states) :
    KeyedCache.Holds (StateOk N) (step N sim app op).states := by
  cases op with
  | ensureFund code days moment => exact h
  | buildState b => exact holds_lookupState N sim b h
  | deleteFund code watched =>
    cases watched with
    | false => exact h
    | true =>
      refine h.mono fun k s hk => ?_
      by_cases hcode : k.code = code
      · simp [step, deleteFund, hcode] at hk
      · simpa [step, deleteFund, hcode] using hk
  | resetWatchlist => exact KeyedCache.holds_empty
  | refresh watchlist => exact KeyedCache.holds_empty
  | forget code => exact h

/-- Every state stored in a run was assembled from an entry that has the date of its key. -/
theorem stateOk_run (ops : List Op) : KeyedCache.Holds (StateOk N) (run N sim ops).states :=
  KeyedCache.exec_invariant (P := fun app : App => KeyedCache.Holds (StateOk N) app.states)
    (holds_step N sim) KeyedCache.holds_empty ops

/-- The entry of the lookup that `build_state` makes. -/
def Build.entry (b : Build) (app : App) : Entry :=
  (ensureFund sim b.moment app.funds b.code b.days).1

/-- The key under which `build_state` looks. -/
def Build.key (b : Build) (app : App) : StateKey := stateKey b.code b.days (b.entry sim app)

/-- What `build_state` returns was stored and is still live, or is assembled from the entry of the
same call and stored. -/
theorem buildState_cases {b : Build} {app : App} {st : State}
    (h : (buildState N sim b app).1 = .ok st) :
    (∃ s, s.state = st ∧ app.states (b.key sim app) = some s ∧ s.fresh b.now = true ∧
        (buildState N sim b app).2.states = app.states) ∨
      ((∀ s, app.states (b.key sim app) = some s → s.fresh b.now = false) ∧
        assemble N b.draws b.code b.name b.news b.days (b.entry sim app) = .ok st ∧
        (buildState N sim b app).2.states =
          Function.update app.states (b.key sim app) (some { state := st, updated := b.now })) := by
  cases hl : (lookupState N sim b app).1 with
  | error e =>
    simp only [buildState, hl] at h
    cases h
  | ok s =>
    simp only [buildState, hl] at h
    have hst : s.state = st := Except.ok.inj h
    rcases KeyedCache.tryLookup_cases hl with ⟨hs, hf, heq⟩ | ⟨hstale, hload, heq⟩
    · exact .inl ⟨s, hst, hs, hf, heq⟩
    · rw [Build.load, except_bind_eq_ok] at hload
      obtain ⟨st', hst', hs⟩ := hload
      cases hs
      cases hst
      exact .inr ⟨hstale, hst', heq⟩

/-- What `build_state` returns is stored under the key of the entry of the same call, and is young
there. -/
theorem buildState_ok {b : Build} {app : App} {st : State}
    (h : (buildState N sim b app).1 = .ok st) :
    ∃ s, s.state = st ∧ b.now - s.updated < cacheTtlSeconds ∧
      (buildState N sim b app).2.states (b.key sim app) = some s := by
  rcases buildState_cases N sim h with ⟨s, hst, hs, hf, heq⟩ | ⟨-, -, heq⟩
  · refine ⟨s, hst, by simpa [Stored.fresh] using hf, ?_⟩
    rw [heq, hs]
  · refine ⟨{ state := st, updated := b.now }, rfl, by norm_num [cacheTtlSeconds], ?_⟩
    rw [heq, Function.update_self]

/-- The label of what is shown of an entry: that of the state stored for it while it is live, else
its own. -/
def App.label (app : App) (code : String) (days : ℤ) (now : ℚ) (entry : Entry) : DataSource :=
  match (app.states (stateKey code days entry)).filter (Stored.fresh now) with
  | some s => s.state.source
  | none => entry.source

/-- The label of the state `build_state` returns. -/
def Build.label (b : Build) (app : App) : DataSource :=
  app.label b.code b.days b.now (b.entry sim app)

theorem source_of_buildState {b : Build} {app : App} {st : State}
    (h : (buildState N sim b app).1 = .ok st) : st.source = b.label sim app := by
  rcases buildState_cases N sim h with ⟨s, hst, hs, hf, -⟩ | ⟨hstale, hst, -⟩
  · have hlive : (app.states (stateKey b.code b.days (b.entry sim app))).filter
        (Stored.fresh b.now) = some s := Option.filter_eq_some_iff.2 ⟨hs, hf⟩
    rw [Build.label, App.label, hlive, ← hst]
  · have hnone : (app.states (stateKey b.code b.days (b.entry sim app))).filter
        (Stored.fresh b.now) = none := by
      rw [Option.filter_eq_none_iff]
      intro s hs
      simp [hstale s hs]
    rw [Build.label, App.label, hnone, (assembled_of_assemble N hst).source]

/-- A returned state was assembled from an entry with the last date of the entry of its call. -/
theorem assembled_of_buildState {b : Build} {app : App} {st : State}
    (hinv : KeyedCache.Holds (StateOk N) app.states) (h : (buildState N sim b app).1 = .ok st) :
    ∃ entry : Entry, lastDate entry.points = lastDate (b.entry sim app).points ∧
      Assembled N b.days entry st := by
  rcases buildState_cases N sim h with ⟨s, rfl, hs, -, -⟩ | ⟨-, hst, -⟩
  · obtain ⟨entry, hkey, hst⟩ := hinv _ s hs
    refine ⟨entry, ?_, hst⟩
    rw [← entry.stamped, ← (b.entry sim app).stamped]
    exact congrArg StateKey.dataTimestamp hkey
  · exact ⟨b.entry sim app, rfl, assembled_of_assemble N hst⟩

/-- **A state returned in a run is young, dated like the entry of the same call, carries the
signal of its own points, and is blocked unless it is REAL.** -/
theorem buildState_coherent (ops : List Op) (b : Build) (st : State)
    (h : (buildState N sim b (run N sim ops)).1 = .ok st) :
    (∃ s, (buildState N sim b (run N sim ops)).2.states (b.key sim (run N sim ops)) = some s ∧
        s.state = st ∧ b.now - s.updated < cacheTtlSeconds) ∧
      st.provenance.dataTimestamp = (b.entry sim (run N sim ops)).provenance.dataTimestamp ∧
      computeSignal N (navsOf st.points) [] st.source = .ok st.signal ∧
      (st.source ≠ .real → st.signal = Signals.unavailable .blockedSimulatedData ∧
        st.risk = .blockedSimulatedData ∧ st.pred.NoFuture) := by
  obtain ⟨s, hs, hage, hstored⟩ := buildState_ok N sim h
  obtain ⟨entry, hdate, hst⟩ := assembled_of_buildState N sim (stateOk_run N sim ops) h
  refine ⟨⟨s, hstored, hs, hage⟩, ?_, hst.signal, hst.blocked⟩
  rw [hst.provenance, entry.stamped, hdate, Entry.stamped]

/-- A request for the fund of five days at `now`, without noise in the forecast. -/
def weekBuild (now : ℚ) (moment : Moment) : Build :=
  { code := "000001", name := "基金", news := [], moment := moment, now := now,
    draws := { normal := fun _ _ _ => 0, date := fun _ => "2026-01-12" } }

theorem buildState_coherent_week :
    ∃ st, (buildState .runnable true (weekBuild 30 (online 30 week))
        (run .runnable true [.buildState (weekBuild 0 (online 0 week))])).1 = .ok st ∧
      computeSignal .runnable (navsOf st.points) [] st.source = .ok st.signal := by
  obtain ⟨st, hst, -⟩ := exists_ok_of_toOption (x := (buildState .runnable true
    (weekBuild 30 (online 30 week))
    (run .runnable true [.buildState (weekBuild 0 (online 0 week))])).1) (f := State.source)
    (y := .real) (by decide +kernel)
  exact ⟨st, hst, (buildState_coherent _ _ _ _ st hst).2.2.1⟩

end QuantFlow
