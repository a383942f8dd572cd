/-
**The fund page.**

`fund_detail` of `backend/app/main.py` answers with the assembled state of a fund, its indicators,
statistics and valuation, and a provenance record.  One request reaches the fund cache three
times: `build_state` looks the fund up for the window of the page, the valuation for 250 days, and
the provenance is that of a last lookup for the window of the page.  Each of them may ask the
provider again and replace the entry.

Main definitions:

* `PageRequest`, `FundDetail` — a request with what it meets, and the answer;
* `fundDetail`, `fundSignals` — the two routes;
* `PageRequest.Steady` — nothing that arrives after the state was taken contradicts it.

Main results:

* `provenance_describes_page_iff` — **at every reachable content of the caches, the
  provenance of a page describes its data exactly when the request is steady**.
-/

import QuantFlow.AppState

namespace QuantFlow

open Signals (SignalResult computeSignal)
open Predictor (Prediction Sentiment Draws)

variable (N : Numerics) (sim : Bool)

/-! ### The routes -/

/-- What the watchlist knows of a fund. -/
structure Meta where
  name : String
  category : String := ""
  note : Option String := none
  focus : Bool := false
  deriving DecidableEq

/-- What the fund universe knows of a fund. -/
structure Listing where
  name : String
  type : Option String := none
  deriving DecidableEq

/-- A request for a page and what it meets: the watchlist, the universe and the news at that time,
and the moments of its three lookups. -/
structure PageRequest where
  code : String
  days : ℤ := 60
  watched : Option Meta
  listed : Option Listing := none
  news : List News.NewsItem := []
  first : Moment
  now : ℚ
  draws : Draws
  second : Moment
  third : Moment

/-- The description of the fund: the watchlist's, else one made of the universe's. -/
def PageRequest.info (r : PageRequest) : Option Meta :=
  r.watched.or (r.listed.map fun l =>
    { name := l.name, category := l.type.getD "", note := some "未加入自选" })

/-- The call of `build_state`. -/
def PageRequest.build (r : PageRequest) (name : String) : Build :=
  { code := r.code, name := name, news := r.news, days := r.days, moment := r.first, now := r.now,
    draws := r.draws }

structure FundDetail where
  code : String
  info : Meta
  dataSource : DataSource
  latestDate : Option String
  days : ℕ
  history : List NavPoint
  indicators : Indicators.All
  stats : Indicators.PerfStats
  valuation : Indicators.Valuation
  prediction : Prediction
  sentiment : Sentiment
  provenance : Provenance
  signal : SignalResult
  risk : RiskReport

/-- `max(config.HISTORY_DAYS, 250)`, the window of the valuation. -/
def valuationDays : ℤ := max historyDays 250

/-- `_valuation_of(code)`. -/
def valuationOf (m : Moment) (funds : FundCache) (code : String) :
    Indicators.Valuation × FundCache :=
  let (entry, funds) := ensureFund sim m funds code valuationDays
  (Indicators.valuationTemperature N (navsOf entry.points), funds)

/-- The page of an assembled state. -/
def pageOf (r : PageRequest) (info : Meta) (st : State) (valuation : Indicators.Valuation)
    (provenance : Provenance) : FundDetail :=
  let navs := navsOf st.points
  { code := r.code, info := info, dataSource := st.source, latestDate := lastDate st.points,
    days := st.points.length, history := st.points, indicators := Indicators.computeAll N navs,
    stats := Indicators.perfStats N navs, valuation := valuation, prediction := st.pred,
    sentiment := st.sentiment, provenance := provenance, signal := st.signal, risk := st.risk }

/-- `fund_detail(code, days)`.  The window is validated by the route. -/
def fundDetail (r : PageRequest) (app : App) : Except PyError FundDetail × App :=
  if r.days < 20 ∨ 400 < r.days then (.error .validation, app)
  else
    match r.info with
    | none => (.error (.http 404 "基金代码未找到"), app)
    | some info =>
      match buildState N sim (r.build info.name) app with
      | (.error e, app) => (.error e, app)
      | (.ok st, app) =>
        -- the arguments of the answer are evaluated in order: valuation before provenance
        let (valuation, funds) := valuationOf N sim r.second app.funds r.code
        let (entry, funds) := ensureFund sim r.third funds r.code r.days
        (.ok (pageOf N r info st valuation entry.provenance), { app with funds := funds })

/-- The answer of `fund_signals`. -/
structure FundSignals where
  code : String
  signal : SignalResult
  provenance : Provenance

/-- `fund_signals(code, days)`. -/
def fundSignals (r : PageRequest) (app : App) : Except PyError FundSignals × App :=
  let (detail, app) := fundDetail N sim r app
  (detail.map fun d => { code := r.code, signal := d.signal, provenance := d.provenance }, app)

/-! ### When the provenance describes the page -/

/-- The provenance of a page has the label of its data and the date of its last point. -/
def FundDetail.Described (d : FundDetail) : Prop :=
  d.provenance.dataSource = d.dataSource ∧ d.provenance.dataTimestamp = lastDate d.history

/-- The entry the page is made from. -/
def PageRequest.served (r : PageRequest) (app : App) : Entry :=
  (ensureFund sim r.first app.funds r.code r.days).1

/-- The label the page shows. -/
def PageRequest.shown (r : PageRequest) (app : App) : DataSource :=
  app.label r.code r.days r.now (r.served sim app)

theorem entry_build (r : PageRequest) (name : String) (app : App) :
    (r.build name).entry sim app = r.served sim app := rfl

/-- The valuation asks the provider again: the entry has a window under 250 days or is old. -/
def PageRequest.secondAsks (r : PageRequest) (e : Entry) : Prop :=
  fundCacheTtl ≤ r.second.now - e.updated ∨ e.days < valuationDays

instance (r : PageRequest) (e : Entry) : Decidable (r.secondAsks e) :=
  inferInstanceAs (Decidable (_ ∨ _))

/-- The last lookup asks the provider again: the entry is old by then. -/
def PageRequest.thirdAsks (r : PageRequest) (e : Entry) : Prop :=
  fundCacheTtl ≤ r.third.now - if r.secondAsks e then r.second.now else e.updated

instance (r : PageRequest) (e : Entry) : Decidable (r.thirdAsks e) :=
  inferInstanceAs (Decidable (_ ≤ _))

/-- The last answer the provider gives after the state was taken, if it is asked at all. -/
def PageRequest.lastAnswer (r : PageRequest) (e : Entry) : Option Fetch :=
  if r.thirdAsks e then some (r.third.provider r.code (max valuationDays e.days))
  else if r.secondAsks e then some (r.second.provider r.code (max valuationDays e.days))
  else none

/-- Nothing that arrives after the state was taken contradicts it: the last answer of the provider
has the label the page shows and ends on the date of the entry served; when the provider is not
asked, the entry has the label the page shows. -/
def PageRequest.Steady (r : PageRequest) (app : App) : Prop :=
  match r.lastAnswer (r.served sim app) with
  | some f => (getNav sim f).2 = r.shown sim app ∧
      lastDate (getNav sim f).1 = lastDate (r.served sim app).points
  | none => (r.served sim app).source = r.shown sim app

instance (r : PageRequest) (app : App) : Decidable (r.Steady sim app) :=
  show Decidable (match r.lastAnswer (r.served sim app) with
    | some f => (getNav sim f).2 = r.shown sim app ∧
        lastDate (getNav sim f).1 = lastDate (r.served sim app).points
    | none => (r.served sim app).source = r.shown sim app) from
  match r.lastAnswer (r.served sim app) with
  | some _ => inferInstance
  | none => inferInstance

/-! ### The entry whose provenance is shown -/

/-- The entry after the second and third lookup. -/
def PageRequest.final (r : PageRequest) (e : Entry) : Entry :=
  (e.looked sim r.second r.code valuationDays).looked sim r.third r.code r.days

section Final

variable {sim} {r : PageRequest} {e : Entry}

theorem looked_second_of_asks (h : r.secondAsks e) :
    e.looked sim r.second r.code valuationDays =
      .ofFetch sim (r.second.provider r.code (max valuationDays e.days))
        (max valuationDays e.days) r.second.now := by
  have hf : ¬ e.fresh r.second.now valuationDays = true := by
    rw [Entry.fresh_iff]
    rintro ⟨hage, hdays⟩
    rcases h with h | h
    · exact absurd hage (not_lt.2 h)
    · omega
  have hwant : wanted valuationDays (some e) = max valuationDays e.days := by
    simp [wanted, valuationDays]
  rw [Entry.looked, if_neg hf, loadEntry, hwant]

theorem looked_second_of_not_asks (h : ¬ r.secondAsks e) :
    e.looked sim r.second r.code valuationDays = e := by
  have hf : e.fresh r.second.now valuationDays = true := by
    rw [Entry.fresh_iff]
    constructor
    · exact not_le.1 fun hage => h (.inl hage)
    · exact not_lt.1 fun hdays => h (.inr hdays)
  rw [Entry.looked, if_pos hf]

/-- After the second lookup the entry has the window of the valuation. -/
theorem looked_second (sim : Bool) (r : PageRequest) (e : Entry) :
    (e.looked sim r.second r.code valuationDays).days = max valuationDays e.days ∧
      (e.looked sim r.second r.code valuationDays).updated =
        if r.secondAsks e then r.second.now else e.updated := by
  by_cases h : r.secondAsks e
  · rw [looked_second_of_asks h, if_pos h]
    exact ⟨rfl, rfl⟩
  · rw [looked_second_of_not_asks h, if_neg h]
    refine ⟨?_, rfl⟩
    have hdays : valuationDays ≤ e.days := not_lt.1 fun hdays => h (.inr hdays)
    rw [max_eq_right hdays]

/-- The last answer of the provider decides the entry that is shown. -/
theorem final_of_lastAnswer (sim : Bool) (hdays : r.days ≤ e.days) :
    match r.lastAnswer e with
    | some f => (r.final sim e).source = (getNav sim f).2 ∧
        (r.final sim e).points = (getNav sim f).1
    | none => r.final sim e = e := by
  obtain ⟨hwindow, hupdated⟩ := looked_second sim r e
  have hcovers : r.days ≤ (e.looked sim r.second r.code valuationDays).days := by
    rw [hwindow]
    exact le_trans hdays (le_max_right _ _)
  by_cases h₃ : r.thirdAsks e
  · have hf : ¬ (e.looked sim r.second r.code valuationDays).fresh r.third.now r.days = true := by
      rw [Entry.fresh_iff, hupdated]
      rintro ⟨hage, -⟩
      exact absurd hage (not_lt.2 h₃)
    have hwant : wanted r.days (some (e.looked sim r.second r.code valuationDays)) =
        max valuationDays e.days := by
      rw [← hwindow]
      refine max_eq_right (max_le hcovers ?_)
      show historyDays ≤ (e.looked sim r.second r.code valuationDays).days
      rw [hwindow]
      exact le_trans (le_max_left _ _) (le_max_left _ _)
    simp only [PageRequest.lastAnswer, if_pos h₃]
    rw [PageRequest.final, Entry.looked, if_neg hf, loadEntry, hwant]
    exact ⟨rfl, rfl⟩
  · have hf : (e.looked sim r.second r.code valuationDays).fresh r.third.now r.days = true := by
      rw [Entry.fresh_iff, hupdated]
      exact ⟨not_le.1 h₃, hcovers⟩
    rw [PageRequest.final, Entry.looked, if_pos hf]
    by_cases h₂ : r.secondAsks e
    · simp only [PageRequest.lastAnswer, if_neg h₃, if_pos h₂]
      rw [looked_second_of_asks h₂]
      exact ⟨rfl, rfl⟩
    · simp only [PageRequest.lastAnswer, if_neg h₃, if_neg h₂]
      exact looked_second_of_not_asks h₂

end Final

/-! ### The exact condition -/

/-- A page that is returned was made of a state of `build_state` and the provenance of the entry
after the third lookup. -/
theorem fundDetail_ok {r : PageRequest} {app : App} {d : FundDetail}
    (h : (fundDetail N sim r app).1 = .ok d) :
    20 ≤ r.days ∧ ∃ info st valuation,
      (buildState N sim (r.build info.name) app).1 = .ok st ∧
      d = pageOf N r info st valuation (r.final sim (r.served sim app)).provenance := by
  unfold fundDetail at h
  split at h
  · cases h
  · rename_i hdays
    refine ⟨by omega, ?_⟩
    cases hinfo : r.info with
    | none =>
      rw [hinfo] at h
      cases h
    | some info =>
      rw [hinfo] at h
      rcases hb : buildState N sim (r.build info.name) app with ⟨res, app'⟩
      simp only [hb] at h
      cases res with
      | error e => cases h
      | ok st =>
        refine ⟨info, st, (valuationOf N sim r.second app'.funds r.code).1, by rw [hb], ?_⟩
        have hfirst : app'.funds r.code = some (r.served sim app) := by
          have hfunds := congrArg (fun p => p.2.funds r.code) hb
          rw [← hfunds]
          exact ensureFund_stored sim r.first app.funds r.code r.days
        have hsecond := ensureFund_stored sim r.second app'.funds r.code valuationDays
        rw [ensureFund_of_some hfirst] at hsecond
        rw [PageRequest.final, ← ensureFund_of_some hsecond]
        exact (Except.ok.inj h).symm

/-- **At every reachable content of the caches, the provenance of a page describes its data
exactly when the request is steady.**  The signal is always that of the page's history, and
`fund_signals` passes the signal and the provenance on. -/
theorem provenance_describes_page_iff (ops : List Op) (r : PageRequest) (d : FundDetail)
    (h : (fundDetail N sim r (run N sim ops)).1 = .ok d) :
    (d.Described ↔ r.Steady sim (run N sim ops)) ∧
      computeSignal N (navsOf d.history) [] d.dataSource = .ok d.signal ∧
      (fundSignals N sim r (run N sim ops)).1 =
        .ok { code := r.code, signal := d.signal, provenance := d.provenance } := by
  obtain ⟨hdays, info, st, valuation, hst, rfl⟩ := fundDetail_ok N sim h
  have hsource : st.source = r.shown sim (run N sim ops) := source_of_buildState N sim hst
  obtain ⟨entry, hstamp, hassembled⟩ := assembled_of_buildState N sim (stateOk_run N sim ops) hst
  have hdate : lastDate st.points = lastDate (r.served sim (run N sim ops)).points := by
    have hpos : 0 < (r.build info.name).days := by
      show 0 < r.days
      omega
    rw [hassembled.points, lastDate_slice_of_pos hpos, hstamp, entry_build]
  refine ⟨?_, hassembled.signal, ?_⟩
  · have hcovers : r.days ≤ (r.served sim (run N sim ops)).days :=
      le_days_ensureFund sim r.first (run N sim ops).funds r.code r.days
    have hfinal := final_of_lastAnswer sim hcovers
    show (r.final sim (r.served sim (run N sim ops))).provenance.dataSource = st.source ∧
      (r.final sim (r.served sim (run N sim ops))).provenance.dataTimestamp =
        lastDate st.points ↔ _
    rw [(r.final sim (r.served sim (run N sim ops))).labelled,
      (r.final sim (r.served sim (run N sim ops))).stamped, hsource, hdate, PageRequest.Steady]
    cases hanswer : r.lastAnswer (r.served sim (run N sim ops)) with
    | none =>
      rw [hanswer] at hfinal
      simp only at hfinal ⊢
      rw [hfinal]
      simp
    | some f =>
      rw [hanswer] at hfinal
      simp only at hfinal ⊢
      rw [hfinal.1, hfinal.2]
  · simp only [fundSignals, h]
    rfl

/-- The page of the fund of five days, on empty caches; the later lookups are made a second and two
seconds after the first. -/
def weekPage (second third : Moment) : PageRequest :=
  { code := "000001", watched := some { name := "基金" }, first := online 0 week, now := 0,
    draws := { normal := fun _ _ _ => 0, date := fun _ => "2026-01-12" }, second := second,
    third := third }

theorem provenance_describes_page_iff_week :
    ∃ d, (fundDetail .runnable true (weekPage (online 1 week) (online 2 week))
      (run .runnable true [])).1 = .ok d ∧ d.Described := by
  obtain ⟨d, hd, -⟩ := exists_ok_of_toOption (x := (fundDetail .runnable true
    (weekPage (online 1 week) (online 2 week)) (run .runnable true [])).1)
    (f := FundDetail.dataSource) (y := .real) (by decide +kernel)
  refine ⟨d, hd, (provenance_describes_page_iff _ _ [] _ d hd).1.2 ?_⟩
  decide +kernel

/-- The provider answers the first request and fails on the second, with generated data switched
off: the history is REAL and the provenance says STALE, without a date. -/
theorem week_page_mislabelled :
    ∃ d, (fundDetail .runnable false (weekPage (offline 1 []) (offline 2 []))
        (run .runnable false [])).1 = .ok d ∧
      d.dataSource = .real ∧ d.history = week ∧ d.provenance.dataSource = .stale ∧
      d.provenance.dataTimestamp = none ∧ ¬ d.Described := by
  obtain ⟨d, hd, hf⟩ := exists_ok_of_toOption (x := (fundDetail .runnable false
    (weekPage (offline 1 []) (offline 2 [])) (run .runnable false [])).1)
    (f := fun d => (d.dataSource, d.history, d.provenance.dataSource, d.provenance.dataTimestamp))
    (y := (.real, week, .stale, none)) (by decide +kernel)
  simp only [Prod.mk.injEq] at hf
  obtain ⟨hsource, hhistory, hlabel, hdate⟩ := hf
  refine ⟨d, hd, hsource, hhistory, hlabel, hdate, ?_⟩
  rintro ⟨h, -⟩
  rw [hlabel, hsource] at h
  cases h

end QuantFlow
