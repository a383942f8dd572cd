/-
**Rebalancing.**

`rebalance` of `backend/app/main.py` visits the holdings one after the other.  For each it looks
the fund up for 250 days, refuses to go on unless that entry is REAL, and then asks `build_state`
for the price and the signal; the volatility comes from the entry.  From these quotes
`backend/app/rebalance.py` computes target weights and suggested trades.

Main definitions:

* `targetWeights`, `suggest` — the suggestion;
* `Quote`, `visit` — one holding, and the series its numbers come from;
* `rebalance` — the route;
* `SteadyAll` — at every holding, what `build_state` will show is REAL.

Main results:

* `quotes_real_iff` — **a suggestion rests on REAL series only exactly when the
  request is steady at every holding**.
-/

import QuantFlow.FundPage

namespace QuantFlow

namespace Rebalance

open Predictor (Direction Draws)

variable (N : Numerics) (sim : Bool)

/-! ### Dictionaries -/

/-- A dictionary with its keys in the order of their first insertion. -/
abbrev Dict (V : Type) := List (String × V)

/-- `d[k] = v`: an existing key keeps its place. -/
def Dict.set {V : Type} : Dict V → String → V → Dict V
  | [], k, v => [(k, v)]
  | (k', v') :: d, k, v => if k' = k then (k, v) :: d else (k', v') :: Dict.set d k v

/-- The dictionary built by a loop over a list. -/
def Dict.build {α V : Type} (key : α → String) (value : α → V) (xs : List α) : Dict V :=
  xs.foldl (fun d x => Dict.set d (key x) (value x)) []

/-- `sum(d.values())`. -/
def Dict.total (d : Dict ℚ) : ℚ := (d.map Prod.snd).sum

/-- The value of a key, after a change of all values. -/
theorem Dict.lookup_map {V W : Type} (f : V → W) (d : Dict V) (c : String) :
    (d.map fun p => (p.1, f p.2)).lookup c = (d.lookup c).map f := by
  induction d with
  | nil => rfl
  | cons p d ih =>
    rw [List.map_cons, List.lookup_cons, List.lookup_cons]
    cases c == p.1 with
    | true => rfl
    | false => exact ih

/-! ### Weights and trades -/

inductive Method
  | equal
  | riskParity
  | signal
  | other (name : String)
  deriving DecidableEq

/-- The part of a signal that weights use. -/
structure Tilt where
  direction : Direction
  confidence : ℚ
  deriving DecidableEq

/-- The raw weight of a signal. -/
def Tilt.raw (s : Option Tilt) : ℚ :=
  match s with
  | some { direction := .up, confidence := c } => max 0 c
  | _ => 0

/-- `target_weights(method, values, vols, signals)`. -/
def targetWeights (method : Method) (values vols : Dict ℚ) (signals : Dict Tilt) : Dict ℚ :=
  let codes := values.map Prod.fst
  let equal := codes.map fun c => (c, 1 / (codes.length : ℚ))
  match method with
  | .riskParity =>
    let inv := codes.map fun c => (c, 1 / max ((vols.lookup c).getD 0) (1 / 10000))
    inv.map fun p => (p.1, p.2 / Dict.total inv)
  | .signal =>
    let raw := codes.map fun c => (c, Tilt.raw (signals.lookup c))
    if Dict.total raw ≤ 0 then equal else raw.map fun p => (p.1, p.2 / Dict.total raw)
  | _ => equal

inductive Action
  | hold
  | buy
  | sell
  deriving DecidableEq

structure Position where
  code : String
  name : String
  currentValue : ℚ
  currentWeight : ℚ
  targetWeight : ℚ
  targetValue : ℚ
  deltaValue : ℚ
  deltaPct : ℚ
  suggestedShares : ℚ
  action : Action
  deriving DecidableEq

structure Suggestion where
  method : Method
  total : ℚ
  positions : List Position
  note : String
  deriving DecidableEq

/-- The text that explains a method. -/
def Method.note : Method → String
  | .equal => "等权配置：每只持仓目标权重相同，最简单稳健。"
  | .riskParity => "风险平价：权重与年化波动率成反比，波动越低配得越多，使组合波动更均衡。"
  | .signal => "信号加权：按预测方向+置信度倾斜，看多加仓、看平/看减归零（无看多信号时退化为等权）。"
  | .other _ => ""

/-- The row of one position, given its target weight. -/
def position (prices : Dict ℚ) (names : Dict String) (total : ℚ) (c : String) (cur w : ℚ) :
    Position :=
  let tgt := w * total
  let delta := tgt - cur
  let price := (prices.lookup c).getD 0
  { code := c
    name := (names.lookup c).getD c
    currentValue := N.round 2 cur
    currentWeight := if total = 0 then 0 else N.round 2 (cur / total * 100)
    targetWeight := N.round 2 (w * 100)
    targetValue := N.round 2 tgt
    deltaValue := N.round 2 delta
    deltaPct := if total = 0 then 0 else N.round 2 (delta / total * 100)
    suggestedShares := if 0 < price then N.round 2 (delta / price) else 0
    action := if |delta| < max (total * (5 / 1000)) 1 then .hold
      else if 0 < delta then .buy else .sell }

/-- `suggest(method, navs, vols, signals, prices, names)`. -/
def suggest (method : Method) (navs vols : Dict ℚ) (signals : Dict Tilt) (prices : Dict ℚ)
    (names : Dict String) : Suggestion :=
  let total := Dict.total navs
  let weights := targetWeights method navs vols signals
  let positions := navs.map fun p =>
    position N prices names total p.1 p.2 ((weights.lookup p.1).getD 0)
  { method := method
    total := N.round 2 total
    positions := positions.mergeSort fun a b => b.deltaValue ≤ a.deltaValue
    note := method.note }

/-! ### The visit of one holding -/

structure Holding (V : Type := ℚ) where
  code : String
  name : String := ""
  shares : V
  deriving DecidableEq

/-- A holding and what its visit meets: what the universe knows of the fund, and the two lookups. -/
structure Visit where
  holding : Holding
  listed : Option Listing
  first : Moment
  second : Moment
  now : ℚ
  draws : Draws

/-- The call of `build_state`, for the default window.  The name is the universe's, else the
holding's. -/
def Visit.build (news : List News.NewsItem) (v : Visit) : Build :=
  { code := v.holding.code, name := v.listed.elim v.holding.name Listing.name, news := news,
    moment := v.second, now := v.now, draws := v.draws }

/-- What the loop keeps of a holding: the entry and the state its numbers are computed from. -/
structure Quote where
  holding : Holding
  listed : Option Listing
  entry : Entry
  state : State

/-- The latest NAV of the state, else the last of the entry. -/
def Quote.price (q : Quote) : ℚ :=
  match q.state.latest with
  | some point => point.nav
  | none => (navsOf q.entry.points).getLastD 0

def Quote.value (q : Quote) : ℚ := if q.price = 0 then 0 else q.holding.shares * q.price

def Quote.vol (q : Quote) : ℚ := (Indicators.perfStats N (navsOf q.entry.points)).volatility / 100

def Quote.signal (q : Quote) : Tilt :=
  { direction := match q.state.signal.state with
      | .positive => .up
      | .negative => .down
      | _ => .flat
    confidence := q.state.signal.confidence }

/-- `_resolve_name`: the holding's own name, else the universe's, else the code. -/
def Quote.name (q : Quote) : String :=
  if q.holding.name = "" then q.listed.elim q.holding.code Listing.name else q.holding.name

/-- The label of the series that the price, and with it the value, is taken from. -/
def Quote.priceSource (q : Quote) : DataSource :=
  if q.state.latest.isSome then q.state.source else q.entry.source

/-- Price, value, volatility and signal were computed from REAL series. -/
def Quote.Real (q : Quote) : Prop :=
  q.priceSource = .real ∧ q.entry.source = .real ∧ q.state.source = .real

/-- The text of the refusal. -/
def refusal : String := "实时数据暂时不可用；模拟数据禁止生成组合调整建议"

/-- One turn of the loop. -/
def visit (news : List News.NewsItem) (v : Visit) (app : App) : Except PyError Quote × App :=
  let (entry, funds) := ensureFund sim v.first app.funds v.holding.code valuationDays
  let app := { app with funds := funds }
  if permitsResearch entry.source then
    let (st, app) := buildState N sim (v.build news) app
    (st.map fun st =>
      { holding := v.holding, listed := v.listed, entry := entry, state := st }, app)
  else (.error (.http 409 refusal), app)

/-- The loop over the holdings. -/
def quotes (news : List News.NewsItem) : List Visit → App → Except PyError (List Quote) × App
  | [], app => (.ok [], app)
  | v :: vs, app =>
    match visit N sim news v app with
    | (.error e, app) => (.error e, app)
    | (.ok q, app) =>
      let (qs, app) := quotes news vs app
      (qs.map (q :: ·), app)

/-- The suggestion of the quotes, unless nothing has a value. -/
def ofQuotes (method : Method) (qs : List Quote) : Except PyError Suggestion :=
  let code (q : Quote) := q.holding.code
  let navs := Dict.build code Quote.value qs
  if ∀ p ∈ navs, p.2 = 0 then .error (.http 400 "持仓暂无净值数据，无法再平衡")
  else .ok (suggest N method navs (Dict.build code (Quote.vol N) qs)
    (Dict.build code Quote.signal qs) (Dict.build code Quote.price qs)
    (Dict.build code Quote.name qs))

/-- `rebalance(method)`. -/
def rebalance (method : Method) (news : List News.NewsItem) (visits : List Visit) (app : App) :
    Except PyError Suggestion × App :=
  if visits = [] then
    (.error (.http 400 "请先添加持仓（POST /api/portfolio）后再做再平衡"), app)
  else
    let (qs, app) := quotes N sim news visits app
    (qs.bind (ofQuotes N method), app)

/-! ### When the quotes are REAL -/

/-- The entry of the first lookup of a visit. -/
def Visit.served (v : Visit) (app : App) : Entry :=
  (ensureFund sim v.first app.funds v.holding.code valuationDays).1

/-- The entry of the second lookup: the provider is asked again when the first entry has become
ten minutes old in between. -/
def Visit.shownEntry (v : Visit) (app : App) : Entry :=
  if v.second.now - (v.served sim app).updated < fundCacheTtl then v.served sim app
  else loadEntry sim v.second v.holding.code historyDays (some (v.served sim app))

/-- What `build_state` will show of the entry of the second lookup is REAL. -/
def Visit.Steady (v : Visit) (app : App) : Prop :=
  app.label v.holding.code historyDays v.now (v.shownEntry sim app) = .real

instance (v : Visit) (app : App) : Decidable (v.Steady sim app) :=
  inferInstanceAs (Decidable (_ = _))

/-- Every visit is steady in the caches it meets. -/
def SteadyAll (news : List News.NewsItem) : List Visit → App → Prop
  | [], _ => True
  | v :: vs, app => v.Steady sim app ∧ SteadyAll news vs (visit N sim news v app).2

/-- The caches after the first lookup of a visit. -/
def Visit.after (v : Visit) (app : App) : App :=
  { app with funds := (ensureFund sim v.first app.funds v.holding.code valuationDays).2 }

theorem entry_visit (news : List News.NewsItem) (v : Visit) (app : App) :
    (v.build news).entry sim (v.after sim app) = v.shownEntry sim app := by
  have hstored : (v.after sim app).funds v.holding.code = some (v.served sim app) :=
    ensureFund_stored sim v.first app.funds v.holding.code valuationDays
  have hcovers : historyDays ≤ (v.served sim app).days :=
    le_trans (le_max_left _ _)
      (le_days_ensureFund sim v.first app.funds v.holding.code valuationDays)
  have hlooked : (v.build news).entry sim (v.after sim app) =
      (v.served sim app).looked sim v.second v.holding.code historyDays :=
    ensureFund_of_some hstored
  have hfresh : (v.served sim app).fresh v.second.now historyDays = true ↔
      v.second.now - (v.served sim app).updated < fundCacheTtl := by
    rw [Entry.fresh_iff]
    exact and_iff_left hcovers
  rw [hlooked, Entry.looked, Visit.shownEntry]
  simp only [hfresh]

theorem steady_iff_label (news : List News.NewsItem) (v : Visit) (app : App) :
    v.Steady sim app ↔ (v.build news).label sim (v.after sim app) = .real := by
  rw [Visit.Steady, Build.label, entry_visit]
  rfl

/-- A visit that goes through has a REAL entry, and a state of `build_state`. -/
theorem visit_ok {news : List News.NewsItem} {v : Visit} {app : App} {q : Quote}
    (h : (visit N sim news v app).1 = .ok q) :
    q.entry.source = .real ∧ (buildState N sim (v.build news) (v.after sim app)).1 = .ok q.state ∧
      (visit N sim news v app).2 = (buildState N sim (v.build news) (v.after sim app)).2 := by
  by_cases hreal : permitsResearch (v.served sim app).source = true
  · have heq : visit N sim news v app =
        ((buildState N sim (v.build news) (v.after sim app)).1.map fun st =>
          { holding := v.holding, listed := v.listed, entry := v.served sim app, state := st },
          (buildState N sim (v.build news) (v.after sim app)).2) := if_pos hreal
    rw [heq] at h ⊢
    cases hst : (buildState N sim (v.build news) (v.after sim app)).1 with
    | error e =>
      rw [hst] at h
      cases h
    | ok st =>
      rw [hst] at h
      cases h
      exact ⟨(permitsResearch_iff _).1 hreal, rfl, rfl⟩
  · have heq : visit N sim news v app = (.error (.http 409 refusal), v.after sim app) :=
      if_neg hreal
    rw [heq] at h
    cases h

/-- The numbers of a quote come from REAL series exactly when its state is REAL. -/
theorem quote_real_iff {q : Quote} (h : q.entry.source = .real) :
    q.Real ↔ q.state.source = .real := by
  constructor
  · rintro ⟨-, -, hstate⟩
    exact hstate
  · intro hstate
    refine ⟨?_, h, hstate⟩
    unfold Quote.priceSource
    split
    · exact hstate
    · exact h

/-- The state of a quote was assembled from the series whose label it has. -/
def Quote.Sound (q : Quote) : Prop := ∃ entry : Entry, Assembled N historyDays entry q.state

/-- **The quotes rest on REAL series only exactly when the request is steady at every holding.** -/
theorem quotes_real_iff (news : List News.NewsItem) (visits : List Visit) {app : App}
    {qs : List Quote} (hinv : KeyedCache.Holds (StateOk N) app.states)
    (h : (quotes N sim news visits app).1 = .ok qs) :
    ((∀ q ∈ qs, q.Real) ↔ SteadyAll N sim news visits app) ∧ ∀ q ∈ qs, q.Sound N := by
  induction visits generalizing app qs with
  | nil =>
    cases h
    simp [SteadyAll]
  | cons v vs ih =>
    rcases hv : visit N sim news v app with ⟨res, app'⟩
    simp only [quotes, hv] at h
    cases res with
    | error e => cases h
    | ok q =>
      obtain ⟨hentry, hstate, happ⟩ := visit_ok N sim (by rw [hv])
      rw [hv] at happ
      cases hrest : (quotes N sim news vs app').1 with
      | error e =>
        simp only [hrest] at h
        cases h
      | ok rest =>
        simp only [hrest] at h
        cases h
        -- the caches the other visits meet satisfy the invariant
        have hafter : KeyedCache.Holds (StateOk N) (v.after sim app).states := hinv
        have hinv' : KeyedCache.Holds (StateOk N) app'.states := by
          rw [show app' = _ from happ]
          exact holds_lookupState N sim (v.build news) hafter
        obtain ⟨hiff, hsound⟩ := ih hinv' hrest
        obtain ⟨entry, -, hassembled⟩ :=
          assembled_of_buildState N sim hafter hstate
        constructor
        · rw [List.forall_mem_cons, SteadyAll, hiff, quote_real_iff hentry,
            source_of_buildState N sim hstate, steady_iff_label sim news, hv]
        · intro q' hq'
          rcases List.mem_cons.1 hq' with rfl | hq'
          · exact ⟨entry, hassembled⟩
          · exact hsound q' hq'

/-- A suggestion is made of the quotes of all holdings. -/
theorem rebalance_ok {method : Method} {news : List News.NewsItem} {visits : List Visit}
    {app : App} {s : Suggestion} (h : (rebalance N sim method news visits app).1 = .ok s) :
    ∃ qs, (quotes N sim news visits app).1 = .ok qs ∧ ofQuotes N method qs = .ok s := by
  unfold rebalance at h
  split at h
  · cases h
  · cases hqs : (quotes N sim news visits app).1 with
    | error e =>
      simp only [hqs] at h
      cases h
    | ok qs =>
      simp only [hqs] at h
      exact ⟨qs, rfl, h⟩

/-- **A suggestion returned at a reachable content of the caches rests on REAL series only exactly
when the request is steady at every holding.** -/
theorem rebalance_real_iff (ops : List Op) (method : Method) (news : List News.NewsItem)
    (visits : List Visit) (s : Suggestion)
    (h : (rebalance N sim method news visits (run N sim ops)).1 = .ok s) :
    ∃ qs, (quotes N sim news visits (run N sim ops)).1 = .ok qs ∧ ofQuotes N method qs = .ok s ∧
      (∀ q ∈ qs, q.Sound N) ∧
      ((∀ q ∈ qs, q.Real) ↔ SteadyAll N sim news visits (run N sim ops)) := by
  obtain ⟨qs, hqs, hs⟩ := rebalance_ok N sim h
  obtain ⟨hiff, hsound⟩ := quotes_real_iff N sim news visits (stateOk_run N sim ops) hqs
  exact ⟨qs, hqs, hs, hsound, hiff⟩

/-- A holding of the fund of five days, visited when its entry is 599 seconds old. -/
def weekVisit (second : Moment) : Visit :=
  { holding := { code := "000001", shares := 100 }, listed := none, first := online 599 week,
    second := second, now := second.now,
    draws := { normal := fun _ _ _ => 0, date := fun _ => "2026-01-12" } }

/-- The entry is fetched, for 250 days, at the start. -/
def weekFetched : List Op := [.ensureFund "000001" 250 (online 0 week)]

theorem rebalance_real_iff_week :
    ∃ s qs, (rebalance .runnable false .signal [] [weekVisit (online 599 week)]
        (run .runnable false weekFetched)).1 = .ok s ∧
      (quotes .runnable false [] [weekVisit (online 599 week)]
        (run .runnable false weekFetched)).1 = .ok qs ∧ ∀ q ∈ qs, q.Real := by
  obtain ⟨s, hs, -⟩ := exists_ok_of_toOption (x := (rebalance .runnable false .signal []
    [weekVisit (online 599 week)] (run .runnable false weekFetched)).1)
    (f := Suggestion.total) (y := 140) (by decide +kernel)
  obtain ⟨qs, hqs, -, -, hiff⟩ := rebalance_real_iff _ _ weekFetched _ _ _ s hs
  have hsteady : (weekVisit (online 599 week)).Steady false (run .runnable false weekFetched) := by
    decide +kernel
  exact ⟨s, qs, hs, hqs, hiff.2 ⟨hsteady, trivial⟩⟩

/-- The check is made on the entry at 599 seconds, `build_state` finds it expired at 600 and the
provider fails, with generated data switched off: the suggestion uses the signal of a series that
is STALE. -/
theorem week_rebalance_not_real :
    ∃ s qs, (rebalance .runnable false .signal [] [weekVisit (offline 600 [])]
        (run .runnable false weekFetched)).1 = .ok s ∧
      (quotes .runnable false [] [weekVisit (offline 600 [])]
        (run .runnable false weekFetched)).1 = .ok qs ∧
      ofQuotes .runnable .signal qs = .ok s ∧ ∃ q ∈ qs, q.state.source = .stale ∧ ¬ q.Real := by
  obtain ⟨s, hs, -⟩ := exists_ok_of_toOption (x := (rebalance .runnable false .signal []
    [weekVisit (offline 600 [])] (run .runnable false weekFetched)).1)
    (f := Suggestion.total) (y := 140) (by decide +kernel)
  obtain ⟨qs, hqs, hof⟩ := rebalance_ok _ _ hs
  have hsources : (quotes .runnable false [] [weekVisit (offline 600 [])]
      (run .runnable false weekFetched)).1.toOption.map (List.map fun q => q.state.source) =
        some [.stale] := by
    decide +kernel
  rw [hqs] at hsources
  have hmap : qs.map (fun q => q.state.source) = [.stale] := Option.some.inj hsources
  obtain ⟨q, rfl, hq⟩ := List.map_eq_singleton_iff.1 hmap
  refine ⟨s, [q], hs, hqs, hof, q, List.mem_singleton_self q, hq, ?_⟩
  rintro ⟨-, -, hstate⟩
  rw [hq] at hstate
  cases hstate

end Rebalance

end QuantFlow
