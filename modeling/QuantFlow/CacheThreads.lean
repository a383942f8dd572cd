/-
**The caches under concurrent requests.**

The handlers of `backend/app/main.py` are plain functions, so the server runs each request in a
thread of its own, and the warm-up runs in one more.  All of them read and write the two
dictionaries `_fund_cache` and `_state_cache` without a lock: a lookup reads the entry, reads the
clock, asks the provider and stores what it got, and between any two of these steps other threads
run.  Only the warm-up takes a lock, so that a second one returns at once.

Here a request is a script of such steps over the caches, the clock and the lock, and a run is any
list of events: requests come in, threads take their next step, time passes.  What the provider
answers to a request, what the database answers and which news it found are inputs of the request.
Deleting a fund walks over `_state_cache` while others write it; the walk may raise, or miss keys.

Main definitions:

* `Shared` — what the threads share;
* `ensureFund`, `buildState`, `warmAll` — the handlers' parts, step by step;
* `Request`, `program` — the requests;
* `Request.Served` — what a request is promised.

Main results:

* `run_ensureFund` — a thread that runs alone does what the sequential model does;
* `served_coherently` — **in every interleaving each request is served with data of its own fund, over
  the window it asked for, not older than the lifetime of an entry, and no state mixes two entries**;
* `longest_window_unless_overlapping` — **the cache keeps the longest window as long
  as lookups do not overlap, and not longer**;
* `one_warmUp` — **at most one warm-up is under way, and the lock is held exactly as long as it is**.
-/

import QuantFlow.AppState
import QuantFlow.Interleaving
import QuantFlow.ThreadPools

namespace QuantFlow.Threads

open Scripts
open Scripts.Script (run_bind_ok run_read)
open Predictor (Draws)

/-! ### The shared state and its steps -/

/-- What the threads share: the clock, the two caches and `_warm_lock`.  The lock of the source only
knows whether it is held; `warming` lists the threads between its acquisition and its release. -/
structure Shared where
  clock : ℚ
  app : App
  warmLock : Bool
  warming : List ℕ

def Shared.initial (clock : ℚ) : Shared :=
  { clock := clock, app := App.empty, warmLock := false, warming := [] }

/-- An exception of a handler; walking over a dictionary that changes its size is one of its own. -/
inductive Fault
  | raised (e : PyError)
  | changedDuringIteration
  deriving DecidableEq

abbrev Step := Script Shared Fault

/-- `time.time()`. -/
def time : Step ℚ := Script.read Shared.clock

def setFunds (f : FundCache → FundCache) : Step Unit :=
  Script.modify fun s => { s with app := { s.app with funds := f s.app.funds } }

def setStates (f : (StateKey → Option Stored) → StateKey → Option Stored) : Step Unit :=
  Script.modify fun s => { s with app := { s.app with states := f s.app.states } }

/-! ### The handlers -/

variable (N : Numerics) (sim : Bool)

/-- `ensure_fund(code, days)`; `provider` is what the provider answers to this call. -/
def ensureFund (provider : Provider) (code : String) (days : ℤ) : Step Entry := do
  let entry ← Script.read fun s => s.app.funds code
  let now ← time
  match entry.filter (Entry.fresh now days) with
  | some e => pure e
  | none => do
    let e := loadEntry sim { now := now, provider := provider } code days entry
    setFunds fun funds => Function.update funds code (some e)
    pure e

/-- The arguments of `build_state`, and what it meets on its way. -/
structure Job where
  code : String
  name : String
  news : List News.NewsItem
  days : ℤ
  provider : Provider
  draws : Draws

/-- `build_state(code, meta, news_list, days)`. -/
def buildState (j : Job) : Step State := do
  let entry ← ensureFund sim j.provider j.code j.days
  let now ← time
  let cached ← Script.read fun s => s.app.states (stateKey j.code j.days entry)
  match cached.filter (Stored.fresh now) with
  | some s => pure s.state
  | none => do
    let state ← Script.lift
      ((assemble N j.draws j.code j.name j.news j.days entry).mapError Fault.raised)
    setStates fun states => Function.update states (stateKey j.code j.days entry)
      (some { state := state, updated := now })
    pure state

/-- The window of `_valuation_of`, `max(HISTORY_DAYS, 250)`. -/
def valuationDays : ℤ := max historyDays 250

/-- The lookups of `_summary_of`: the state of a watched fund, and its valuation. -/
def summaryOf (f : Job × Provider) : Step State := do
  let st ← buildState N sim f.1
  let _ ← ensureFund sim f.2 f.1.code valuationDays
  pure st

/-- `list_funds`. -/
def listFunds (watchlist : List (Job × Provider)) : Step (List State) :=
  Script.collect watchlist (summaryOf N sim)

/-- `fund_detail`: the state, the valuation, and the provenance of one more lookup. -/
def fundDetail (j : Job) (valuation last : Provider) : Step (State × Provenance) := do
  let st ← buildState N sim j
  let _ ← ensureFund sim valuation j.code valuationDays
  let entry ← ensureFund sim last j.code j.days
  pure (st, entry.provenance)

/-- `analysis`. -/
def analysis (j : Job) (force : Bool) : Step State := do
  if force then setFunds fun funds => Function.update funds j.code none
  buildState N sim j

/-- `delete_fund`; `watched` is the answer of the database, and `keys` are the keys of the fund that
the walk over `_state_cache` finds, unless it raises. -/
def deleteFund (code : String) (watched : Bool) (keys : Option (List StateKey)) : Step Unit :=
  if watched then do
    setFunds fun funds => Function.update funds code none
    let found ← Script.lift (keys.elim (.error .changedDuringIteration) .ok)
    Script.each (found.filter fun k => k.code = code) fun k =>
      setStates fun states => Function.update states k none
  else Script.raise (.raised (.http 404 "该基金不在自选列表中"))

/-- `reset_watchlist`, after the database has been reset. -/
def resetWatchlist : Step Unit := do
  setFunds fun _ _ => none
  setStates fun _ _ => none

/-- `refresh`. -/
def refresh (watchlist : List (String × Provider)) : Step Unit := do
  setFunds fun _ _ => none
  setStates fun _ _ => none
  Script.each watchlist fun w => do
    let _ ← ensureFund sim w.2 w.1 historyDays
    pure ()

/-- `_warm_lock.acquire(blocking=False)` by thread `me`. -/
def acquire (me : ℕ) : Step Bool :=
  Script.transaction fun s =>
    if s.warmLock then .ok (false, s)
    else .ok (true, { s with warmLock := true, warming := me :: s.warming })

/-- `_warm_lock.release()`. -/
def release (me : ℕ) : Step Unit :=
  Script.modify fun s => { s with warmLock := false, warming := s.warming.filter (· ≠ me) }

/-- The `try` block of `_warm_all`: the two loops over the watchlist.  The news and either reading of
the watchlist may raise. -/
def warmBody (watchlist : Except Fault (List (String × Provider)))
    (again : Except Fault (List Job)) : Step Unit := do
  let funds ← Script.lift watchlist
  Script.each funds fun w => Script.rescue (fun _ => true) do
    let _ ← ensureFund sim w.2 w.1 historyDays
    pure ()
  let jobs ← Script.lift again
  Script.each jobs fun j => Script.rescue (fun _ => true) do
    let _ ← buildState N sim j
    pure ()

/-- `_warm_all` in thread `me`. -/
def warmAll (me : ℕ) (watchlist : Except Fault (List (String × Provider)))
    (again : Except Fault (List Job)) : Step Unit := do
  let free ← acquire me
  if free then do
    Script.rescue (fun _ => true) (warmBody N sim watchlist again)
    release me
  else pure ()

/-! ### Requests -/

inductive Request
  | lookup (provider : Provider) (code : String) (days : ℤ)
  | listFunds (watchlist : List (Job × Provider))
  | fundDetail (j : Job) (valuation last : Provider)
  | analysis (j : Job) (force : Bool)
  | deleteFund (code : String) (watched : Bool) (keys : Option (List StateKey))
  | resetWatchlist
  | refresh (watchlist : List (String × Provider))
  | warmAll (watchlist : Except Fault (List (String × Provider))) (again : Except Fault (List Job))

inductive Reply
  | entry (e : Entry)
  | states (sts : List State)
  | detail (st : State) (shown : Provenance)
  | done

/-- The script of a request, in the thread with this number. -/
def program : Request → ℕ → Step Reply
  | .lookup provider code days, _ => do
    let e ← ensureFund sim provider code days
    pure (.entry e)
  | .listFunds watchlist, _ => do
    let sts ← listFunds N sim watchlist
    pure (.states sts)
  | .fundDetail j valuation last, _ => do
    let (st, shown) ← fundDetail N sim j valuation last
    pure (.detail st shown)
  | .analysis j force, _ => do
    let st ← analysis N sim j force
    pure (.states [st])
  | .deleteFund code watched keys, _ => do
    deleteFund code watched keys
    pure .done
  | .resetWatchlist, _ => do
    resetWatchlist
    pure .done
  | .refresh watchlist, _ => do
    refresh sim watchlist
    pure .done
  | .warmAll watchlist again, me => do
    warmAll N sim me watchlist again
    pure .done

/-- Time passes: the clock is read later, or no earlier. -/
def tick (d : ℚ) (s : Shared) : Shared := { s with clock := s.clock + max 0 d }

/-- The threads and the caches after a list of events, for a process started at `clock`. -/
def serve (events : List (Event Request ℚ)) (clock : ℚ) : Pool Request Shared Fault Reply :=
  Pool.run (program N sim) tick events (Shared.initial clock)

/-! ### A thread that runs alone -/

/-- Alone, a lookup does what the sequential one does at the reading of the clock. -/
theorem run_ensureFund (provider : Provider) (code : String) (days : ℤ) (s : Shared) :
    (ensureFund sim provider code days).run s =
      let done := QuantFlow.ensureFund sim { now := s.clock, provider := provider } s.app.funds
        code days
      (.ok done.1, { s with app := { s.app with funds := done.2 } }) := by
  rcases ensureFund_cases sim { now := s.clock, provider := provider } s.app.funds code days with
    ⟨e, he, hf, heq⟩ | ⟨hstale, heq⟩
  · have hfilter : (s.app.funds code).filter (Entry.fresh s.clock days) = some e :=
      Option.filter_eq_some_iff.2 ⟨he, hf⟩
    rw [heq, ensureFund, run_bind_ok (run_read _ s), time, run_bind_ok (run_read _ s), hfilter]
    rfl
  · have hfilter : (s.app.funds code).filter (Entry.fresh s.clock days) = none := by
      rw [Option.filter_eq_none_iff]
      intro e he
      simp [hstale e he]
    rw [heq, ensureFund, run_bind_ok (run_read _ s), time, run_bind_ok (run_read _ s), hfilter]
    rfl

/-- The build that a job is when it runs alone. -/
def Job.asBuild (j : Job) (clock : ℚ) : Build :=
  { code := j.code, name := j.name, news := j.news, days := j.days,
    moment := { now := clock, provider := j.provider }, now := clock, draws := j.draws }

/-! ### What the threads promise one another -/

/-- The entry was made of an answer for the fund `code`. -/
def FundOk (answers : String → Fetch → Prop) (code : String) (e : Entry) : Prop :=
  ∃ f want now, answers code f ∧ e = Entry.ofFetch sim f want now

/-- The state was assembled, for the window of its key, from an entry of the fund of its key that has
the date of the key. -/
def StateFrom (answers : String → Fetch → Prop) (k : StateKey) (st : State) : Prop :=
  ∃ entry, FundOk sim answers k.code entry ∧ stateKey k.code k.days entry = k ∧
    Assembled N k.days entry st

/-- The invariant of the shared state. -/
structure Coherent (answers : String → Fetch → Prop) (s : Shared) : Prop where
  funds : ∀ code e, s.app.funds code = some e → FundOk sim answers code e
  states : ∀ k st, s.app.states k = some st → StateFrom N sim answers k st.state
  lock : (s.warmLock = false ∧ s.warming = []) ∨ ∃ i, s.warmLock = true ∧ s.warming = [i]

/-- The pact of the threads: the caches are coherent, the clock does not run backwards, and nobody
enters or leaves the warm-up for another. -/
def pact (answers : String → Fetch → Prop) : Pact Shared where
  inv := Coherent N sim answers
  rely i s s' := s.clock ≤ s'.clock ∧ (i ∈ s.warming ↔ i ∈ s'.warming)
  refl _ s := ⟨le_refl s.clock, Iff.rfl⟩
  trans h₁ h₂ := ⟨le_trans h₁.1 h₂.1, h₁.2.trans h₂.2⟩

/-- The clock has reached `start`, and thread `i` is inside the warm-up or not. -/
structure Here (start : ℚ) (i : ℕ) (inside : Bool) (s : Shared) : Prop where
  clock : start ≤ s.clock
  side : i ∈ s.warming ↔ inside = true

section Pact

variable {N sim} {answers : String → Fetch → Prop} {i : ℕ} {start : ℚ} {inside : Bool}

theorem Here.stable : (pact N sim answers).Stable i (Here start i inside) :=
  fun _ _ hs h => ⟨le_trans h.clock hs.1, hs.2.symm.trans h.side⟩

/-- What `ensure_fund` is asked for: an entry of the fund, over the window, that was fetched less than
a lifetime before `start`. -/
structure EntryFor (sim : Bool) (answers : String → Fetch → Prop) (start : ℚ) (code : String)
    (days : ℤ) (e : Entry) : Prop where
  own : FundOk sim answers code e
  window : days ≤ e.days
  young : start - fundCacheTtl < e.updated

/-- What `build_state` is asked for: a state assembled from one entry of the fund, dated like an entry
that the request could have been given. -/
def StateFor (N : Numerics) (sim : Bool) (answers : String → Fetch → Prop) (start : ℚ)
    (code : String) (days : ℤ) (st : State) : Prop :=
  ∃ used found, FundOk sim answers code used ∧ Assembled N days used st ∧
    EntryFor sim answers start code days found ∧
    st.provenance.dataTimestamp = found.provenance.dataTimestamp

theorem safe_write {f : Shared → Shared} (hclock : ∀ s, (f s).clock = s.clock)
    (hwarming : ∀ s, (f s).warming = s.warming)
    (hinv : ∀ s, Coherent N sim answers s → Coherent N sim answers (f s)) {s : Shared}
    (hs : Here start i inside s) {α : Type} {g : Unit → Step α} {R : α → Prop}
    (h : ∀ t, Here start i inside t →
      (g ()).Safe (pact N sim answers) i (Script.Ends (Here start i inside) R) t) :
    (Script.modify f >>= g).Safe (pact N sim answers) i
      (Script.Ends (Here start i inside) R) s := by
  refine Script.Safe.modify (fun t _ ht => hinv t ht) ?_ ?_
  · intro t _ _ j _
    exact ⟨le_of_eq (hclock t).symm, by rw [hwarming t]⟩
  · intro t hst _
    have ht := Here.stable s t hst hs
    exact h _ ⟨by rw [hclock]; exact ht.clock, by rw [hwarming]; exact ht.side⟩

theorem safe_setFunds {f : FundCache → FundCache}
    (hf : ∀ funds, (∀ code e, funds code = some e → FundOk sim answers code e) →
      ∀ code e, f funds code = some e → FundOk sim answers code e) {s : Shared}
    (hs : Here start i inside s) {α : Type} {g : Unit → Step α} {R : α → Prop}
    (h : ∀ t, Here start i inside t →
      (g ()).Safe (pact N sim answers) i (Script.Ends (Here start i inside) R) t) :
    (setFunds f >>= g).Safe (pact N sim answers) i (Script.Ends (Here start i inside) R) s :=
  safe_write (f := fun s => { s with app := { s.app with funds := f s.app.funds } })
    (fun _ => rfl) (fun _ => rfl)
    (fun s hs => ⟨hf s.app.funds hs.funds, hs.states, hs.lock⟩) hs h

theorem safe_setStates {f : (StateKey → Option Stored) → StateKey → Option Stored}
    (hf : ∀ states, (∀ k st, states k = some st → StateFrom N sim answers k st.state) →
      ∀ k st, f states k = some st → StateFrom N sim answers k st.state) {s : Shared}
    (hs : Here start i inside s) {α : Type} {g : Unit → Step α} {R : α → Prop}
    (h : ∀ t, Here start i inside t →
      (g ()).Safe (pact N sim answers) i (Script.Ends (Here start i inside) R) t) :
    (setStates f >>= g).Safe (pact N sim answers) i (Script.Ends (Here start i inside) R) s :=
  safe_write (f := fun s => { s with app := { s.app with states := f s.app.states } })
    (fun _ => rfl) (fun _ => rfl)
    (fun s hs => ⟨hs.funds, hf s.app.states hs.states, hs.lock⟩) hs h

theorem update_ok {K V : Type} [DecidableEq K] {ok : K → V → Prop} {store : K → Option V} {k : K}
    {new : Option V} (hstore : ∀ k v, store k = some v → ok k v) (hnew : ∀ v, new = some v → ok k v)
    (k' : K) (v : V) (h : Function.update store k new k' = some v) : ok k' v := by
  rcases eq_or_ne k' k with rfl | hk
  · rw [Function.update_self] at h
    exact hnew v h
  · rw [Function.update_of_ne hk] at h
    exact hstore k' v h

/-- **`ensure_fund` answers with an entry of the fund, over the window, that is young.** -/
theorem safe_ensureFund {provider : Provider} (hp : ∀ code want, answers code (provider code want))
    (code : String) (days : ℤ) {s : Shared} (hs : Here start i inside s) :
    (ensureFund sim provider code days).Safe (pact N sim answers) i
      (Script.Ends (Here start i inside) (EntryFor sim answers start code days)) s := by
  refine Script.Safe.read fun s₁ h₁ hinv₁ => ?_
  have hs₁ := Here.stable s s₁ h₁ hs
  refine Script.Safe.read fun s₂ h₂ _ => ?_
  have hs₂ := Here.stable s₁ s₂ h₂ hs₁
  -- the entry was read in `s₁` and the clock in `s₂`
  cases hfound : (s₁.app.funds code).filter (Entry.fresh s₂.clock days) with
  | some e =>
    obtain ⟨he, hfresh⟩ := Option.filter_eq_some_iff.1 hfound
    obtain ⟨hage, hdays⟩ := Entry.fresh_iff.1 hfresh
    refine Script.Safe.pure hs₂ ⟨hinv₁.funds code e he, hdays, ?_⟩
    have := hs₂.clock
    linarith
  | none =>
    have hloaded : FundOk sim answers code (loadEntry sim { now := s₂.clock, provider := provider }
        code days (s₁.app.funds code)) := ⟨_, _, _, hp code _, rfl⟩
    refine safe_setFunds (fun funds hfunds => update_ok hfunds ?_) hs₂ fun t ht => ?_
    · rintro e ⟨⟩
      exact hloaded
    · refine Script.Safe.pure ht ⟨hloaded, le_wanted days _, ?_⟩
      show start - fundCacheTtl < s₂.clock
      have := hs₂.clock
      norm_num [fundCacheTtl]
      linarith

/-- **`build_state` answers with a state of one entry, dated like the entry it was given.** -/
theorem safe_buildState {j : Job} (hp : ∀ code want, answers code (j.provider code want))
    {s : Shared} (hs : Here start i inside s) :
    (buildState N sim j).Safe (pact N sim answers) i
      (Script.Ends (Here start i inside) (StateFor N sim answers start j.code j.days)) s := by
  refine Script.Safe.andThen (safe_ensureFund hp j.code j.days hs) fun entry s₁ hs₁ hentry => ?_
  refine Script.Safe.read fun s₂ h₂ _ => ?_
  have hs₂ := Here.stable s₁ s₂ h₂ hs₁
  refine Script.Safe.read fun s₃ h₃ hinv₃ => ?_
  have hs₃ := Here.stable s₂ s₃ h₃ hs₂
  cases hfound : (s₃.app.states (stateKey j.code j.days entry)).filter
      (Stored.fresh s₂.clock) with
  | some found =>
    obtain ⟨hst, -⟩ := Option.filter_eq_some_iff.1 hfound
    obtain ⟨used, hused, hkey, hassembled⟩ := hinv₃.states _ found hst
    refine Script.Safe.pure hs₃ ⟨used, entry, hused, hassembled, hentry, ?_⟩
    rw [hassembled.provenance]
    exact congrArg StateKey.dataTimestamp hkey
  | none =>
    refine Script.Safe.lift hs₃ fun st hst => ?_
    have hassembled : Assembled N j.days entry st := by
      cases hcomputed : assemble N j.draws j.code j.name j.news j.days entry with
      | error e =>
        rw [hcomputed] at hst
        cases hst
      | ok st' =>
        rw [hcomputed] at hst
        cases hst
        exact assembled_of_assemble N hcomputed
    refine safe_setStates (fun states hstates => update_ok hstates ?_) hs₃ fun t ht => ?_
    · rintro stored ⟨⟩
      exact ⟨entry, hentry.own, rfl, hassembled⟩
    · exact Script.Safe.pure ht
        ⟨entry, entry, hentry.own, hassembled, hentry, by rw [hassembled.provenance]⟩

theorem safe_discard {α : Type} {p : Step α} {R : α → Prop} {s : Shared}
    (h : p.Safe (pact N sim answers) i (Script.Ends (Here start i inside) R) s) :
    (p >>= fun _ => (pure () : Step Unit)).Safe (pact N sim answers) i
      (Script.Ends (Here start i inside) fun _ => True) s :=
  h.andThen fun _ _ ht _ => Script.Safe.pure ht trivial

/-- `try: p except Exception: pass` raises nothing. -/
theorem safe_try {p : Step Unit} {s : Shared}
    (h : p.Safe (pact N sim answers) i (Script.Ends (Here start i inside) fun _ => True) s) :
    (p.rescue fun _ => true).Safe (pact N sim answers) i
      (fun r t => r = .ok () ∧ Here start i inside t) s :=
  h.rescue (fun _ ht => ⟨rfl, ht.1⟩) fun _ _ ht => ⟨rfl, ht.1⟩

theorem safe_each_try {ι : Type} {xs : List ι} {body : ι → Step Unit} {s : Shared}
    (hs : Here start i inside s)
    (h : ∀ x ∈ xs, ∀ t, Here start i inside t →
      (body x).Safe (pact N sim answers) i (Script.Ends (Here start i inside) fun _ => True) t) :
    (Script.each xs fun x => (body x).rescue fun _ => true).Safe (pact N sim answers) i
      (Script.Ends (Here start i inside) fun _ => True) s :=
  Script.Safe.each hs fun x hx t ht =>
    (safe_try (h x hx t ht)).weaken fun _ _ hr => ⟨hr.2, fun _ _ => trivial⟩

/-! The lock -/

theorem safe_acquire {α : Type} {g : Bool → Step α} {post : Except Fault α → Shared → Prop}
    {s : Shared} (hs : Here start i false s)
    (htaken : ∀ t, Here start i false t → (g false).Safe (pact N sim answers) i post t)
    (hfree : ∀ t, Here start i true t → (g true).Safe (pact N sim answers) i post t) :
    (acquire i >>= g).Safe (pact N sim answers) i post s := by
  refine Script.Safe.transaction fun t hst hinv => ?_
  have ht := Here.stable s t hst hs
  cases hlock : t.warmLock with
  | true => exact ⟨false, t, by simp, hinv, fun j _ => (pact N sim answers).refl j t, htaken t ht⟩
  | false =>
    have hnone : t.warming = [] := by
      rcases hinv.lock with ⟨-, hnone⟩ | ⟨j, hheld, -⟩
      · exact hnone
      · rw [hlock] at hheld
        cases hheld
    refine ⟨true, { t with warmLock := true, warming := i :: t.warming }, by simp, ?_, ?_, ?_⟩
    · exact ⟨hinv.funds, hinv.states, .inr ⟨i, rfl, by rw [hnone]⟩⟩
    · exact fun j hj => ⟨le_refl t.clock, by simp [hj]⟩
    · exact hfree _ ⟨ht.clock, by simp⟩

theorem safe_release {s : Shared} (hs : Here start i true s) :
    (release i).Safe (pact N sim answers) i
      (Script.Ends (Here start i false) fun _ => True) s := by
  intro t hst hinv
  have ht := Here.stable s t hst hs
  -- the thread is inside, so it is the one that holds the lock
  have hmine : t.warming = [i] := by
    have hmem : i ∈ t.warming := ht.side.2 rfl
    rcases hinv.lock with ⟨-, hnone⟩ | ⟨j, -, hone⟩
    · rw [hnone] at hmem
      cases hmem
    · rw [hone] at hmem ⊢
      rw [List.mem_singleton.1 hmem]
  refine ⟨⟨hinv.funds, hinv.states, .inl ⟨rfl, ?_⟩⟩, ?_, ?_⟩
  · simp [hmine]
  · exact fun j hj => ⟨le_refl t.clock, by simp [hj]⟩
  · exact ⟨⟨ht.clock, by simp⟩, fun _ _ => trivial⟩

/-- The warm-up leaves the lock as free as it was before. -/
theorem safe_warmAll {watchlist : Except Fault (List (String × Provider))}
    {again : Except Fault (List Job)}
    (hfunds : ∀ ws, watchlist = .ok ws → ∀ w ∈ ws, ∀ code want, answers code (w.2 code want))
    (hjobs : ∀ js, again = .ok js → ∀ j ∈ js, ∀ code want, answers code (j.provider code want))
    {s : Shared} (hs : Here start i false s) :
    (warmAll N sim i watchlist again).Safe (pact N sim answers) i
      (Script.Ends (Here start i false) fun _ => True) s := by
  refine safe_acquire hs (fun t ht => Script.Safe.pure ht trivial) fun t ht => ?_
  have hbody : (warmBody N sim watchlist again).Safe (pact N sim answers) i
      (Script.Ends (Here start i true) fun _ => True) t := by
    refine Script.Safe.lift ht fun ws hws => ?_
    refine Script.Safe.andThen (safe_each_try ht fun w hw u hu => ?_) fun _ u hu _ => ?_
    · exact safe_discard (safe_ensureFund (hfunds ws hws w hw) w.1 historyDays hu)
    · refine Script.Safe.lift hu fun js hjs => safe_each_try hu fun j hj v hv => ?_
      exact safe_discard (safe_buildState (hjobs js hjs j hj) hv)
  -- the block is left with the lock held, whether it raised or not
  refine Script.Safe.bind (safe_try hbody) (fun _ u hu => safe_release hu.2) fun e u hu => ?_
  cases hu.1

theorem safe_summaryOf {f : Job × Provider}
    (hjob : ∀ code want, answers code (f.1.provider code want))
    (hvaluation : ∀ code want, answers code (f.2 code want)) {s : Shared}
    (hs : Here start i inside s) :
    (summaryOf N sim f).Safe (pact N sim answers) i
      (Script.Ends (Here start i inside) (StateFor N sim answers start f.1.code f.1.days)) s := by
  refine Script.Safe.andThen (safe_buildState hjob hs) fun st t ht hst => ?_
  refine Script.Safe.andThen (safe_ensureFund hvaluation f.1.code valuationDays ht) ?_
  exact fun _ u hu _ => Script.Safe.pure hu hst

theorem safe_fundDetail {j : Job} {valuation last : Provider}
    (hjob : ∀ code want, answers code (j.provider code want))
    (hvaluation : ∀ code want, answers code (valuation code want))
    (hlast : ∀ code want, answers code (last code want)) {s : Shared}
    (hs : Here start i inside s) :
    (fundDetail N sim j valuation last).Safe (pact N sim answers) i
      (Script.Ends (Here start i inside) fun page =>
        StateFor N sim answers start j.code j.days page.1 ∧
          ∃ e, EntryFor sim answers start j.code j.days e ∧ page.2 = e.provenance) s := by
  refine Script.Safe.andThen (safe_buildState hjob hs) fun st t ht hst => ?_
  refine Script.Safe.andThen (safe_ensureFund hvaluation j.code valuationDays ht) fun _ u hu _ => ?_
  refine Script.Safe.andThen (safe_ensureFund hlast j.code j.days hu) ?_
  exact fun e v hv he => Script.Safe.pure hv ⟨hst, e, he, rfl⟩

theorem safe_analysis {j : Job} {force : Bool}
    (hjob : ∀ code want, answers code (j.provider code want)) {s : Shared}
    (hs : Here start i inside s) :
    (analysis N sim j force).Safe (pact N sim answers) i
      (Script.Ends (Here start i inside) (StateFor N sim answers start j.code j.days)) s := by
  cases force with
  | false => exact safe_buildState hjob hs
  | true =>
    refine safe_setFunds (fun funds hfunds => update_ok hfunds ?_) hs
      fun t ht => safe_buildState hjob ht
    rintro e ⟨⟩

theorem safe_deleteFund (code : String) (watched : Bool) (keys : Option (List StateKey))
    {s : Shared} (hs : Here start i inside s) :
    (deleteFund code watched keys).Safe (pact N sim answers) i
      (Script.Ends (Here start i inside) fun _ => True) s := by
  cases watched with
  | false => exact ⟨hs, fun _ h => by cases h⟩
  | true =>
    refine safe_setFunds (fun funds hfunds => update_ok hfunds ?_) hs fun t ht => ?_
    · rintro e ⟨⟩
    · refine Script.Safe.lift ht fun found _ => Script.Safe.each ht fun k _ u hu => ?_
      refine safe_setStates (g := fun _ => pure ()) (fun states hstates => update_ok hstates ?_)
        hu fun v hv => Script.Safe.pure hv trivial
      rintro st ⟨⟩

theorem safe_clear {α : Type} {g : Step α} {R : α → Prop} {s : Shared}
    (hs : Here start i inside s)
    (h : ∀ t, Here start i inside t →
      g.Safe (pact N sim answers) i (Script.Ends (Here start i inside) R) t) :
    (setFunds (fun _ _ => none) >>= fun _ => setStates (fun _ _ => none) >>= fun _ => g).Safe
      (pact N sim answers) i (Script.Ends (Here start i inside) R) s := by
  refine safe_setFunds (fun _ _ code e he => by cases he) hs fun t ht => ?_
  exact safe_setStates (fun _ _ k st hst => by cases hst) ht h

theorem safe_refresh {watchlist : List (String × Provider)}
    (hfunds : ∀ w ∈ watchlist, ∀ code want, answers code (w.2 code want)) {s : Shared}
    (hs : Here start i inside s) :
    (refresh sim watchlist).Safe (pact N sim answers) i
      (Script.Ends (Here start i inside) fun _ => True) s :=
  safe_clear hs fun _ ht => Script.Safe.each ht fun w hw _ hu =>
    safe_discard (safe_ensureFund (hfunds w hw) w.1 historyDays hu)

end Pact

/-! ### Whole runs -/

/-- The providers whose answers a request may use. -/
def Request.providers : Request → List Provider
  | .lookup provider _ _ => [provider]
  | .listFunds watchlist => watchlist.flatMap fun f => [f.1.provider, f.2]
  | .fundDetail j valuation last => [j.provider, valuation, last]
  | .analysis j _ => [j.provider]
  | .deleteFund _ _ _ => []
  | .resetWatchlist => []
  | .refresh watchlist => watchlist.map Prod.snd
  | .warmAll watchlist again =>
    (watchlist.toOption.getD []).map Prod.snd ++ (again.toOption.getD []).map Job.provider

/-- In a run, the provider answered with `f` to a question about the fund `code`. -/
def Answered (events : List (Event Request ℚ)) (code : String) (f : Fetch) : Prop :=
  ∃ r, Event.start r ∈ events ∧ ∃ provider ∈ r.providers, ∃ want, f = provider code want

/-- What a request that came in at `start` is promised. -/
def Request.Served (answers : String → Fetch → Prop) (start : ℚ) : Request → Reply → Prop
  | .lookup _ code days, .entry e => EntryFor sim answers start code days e
  | .listFunds watchlist, .states sts =>
    List.Forall₂ (fun f st => StateFor N sim answers start f.1.code f.1.days st) watchlist sts
  | .fundDetail j _ _, .detail st shown =>
    StateFor N sim answers start j.code j.days st ∧
      ∃ e, EntryFor sim answers start j.code j.days e ∧ shown = e.provenance
  | .analysis j _, .states sts => ∃ st, sts = [st] ∧ StateFor N sim answers start j.code j.days st
  | .deleteFund _ _ _, .done => True
  | .resetWatchlist, .done => True
  | .refresh _, .done => True
  | .warmAll _ _, .done => True
  | _, _ => False

/-- Every request keeps to the pact and is served as promised. -/
theorem safe_program {answers : String → Fetch → Prop} {r : Request}
    (hr : ∀ provider ∈ r.providers, ∀ code want, answers code (provider code want)) {i : ℕ}
    {start : ℚ} {s : Shared} (hs : Here start i false s) :
    (program N sim r i).Safe (pact N sim answers) i
      (Script.Ends (Here start i false) (r.Served N sim answers start)) s := by
  cases r with
  | lookup provider code days =>
    refine Script.Safe.andThen (safe_ensureFund (hr provider List.mem_cons_self) code days hs) ?_
    exact fun e t ht he => Script.Safe.pure ht he
  | listFunds watchlist =>
    refine Script.Safe.andThen (Script.Safe.collect hs fun f hf t ht => safe_summaryOf ?_ ?_ ht) ?_
    · exact hr _ (List.mem_flatMap.2 ⟨f, hf, by simp⟩)
    · exact hr _ (List.mem_flatMap.2 ⟨f, hf, by simp⟩)
    · exact fun sts t ht hsts => Script.Safe.pure ht hsts
  | fundDetail j valuation last =>
    refine Script.Safe.andThen (safe_fundDetail (hr _ (by simp [Request.providers]))
      (hr _ (by simp [Request.providers])) (hr _ (by simp [Request.providers])) hs) ?_
    exact fun page t ht hpage => Script.Safe.pure ht hpage
  | analysis j force =>
    refine Script.Safe.andThen (safe_analysis (hr _ List.mem_cons_self) hs) ?_
    exact fun st t ht hst => Script.Safe.pure ht ⟨st, rfl, hst⟩
  | deleteFund code watched keys =>
    refine Script.Safe.andThen (safe_deleteFund code watched keys hs) ?_
    exact fun _ t ht _ => Script.Safe.pure ht trivial
  | resetWatchlist =>
    exact safe_clear hs fun t ht => Script.Safe.pure ht trivial
  | refresh watchlist =>
    refine Script.Safe.andThen (safe_refresh (fun w hw => hr _ (List.mem_map_of_mem hw)) hs) ?_
    exact fun _ t ht _ => Script.Safe.pure ht trivial
  | warmAll watchlist again =>
    refine Script.Safe.andThen (safe_warmAll ?_ ?_ hs) fun _ t ht _ => Script.Safe.pure ht trivial
    · rintro ws rfl w hw
      exact hr _ (List.mem_append_left _ (List.mem_map_of_mem hw))
    · rintro js rfl j hj
      exact hr _ (List.mem_append_right _ (List.mem_map_of_mem hj))

theorem keeps (answers : String → Fetch → Prop) :
    Keeps (pact N sim answers) (program N sim) tick
      (fun r => ∀ provider ∈ r.providers, ∀ code want, answers code (provider code want))
      (fun i s => i ∉ s.warming)
      (fun r i born => Script.Ends (Here born.clock i false)
        (r.Served N sim answers born.clock)) where
  fresh_stable _ _ _ hs h := fun hmem => h (hs.2.2 hmem)
  post_stable _ _ _ res := Script.Ends.stable Here.stable res
  nature_inv _ _ h := ⟨h.funds, h.states, h.lock⟩
  nature_rely d s _ _ := ⟨by simp [tick], Iff.rfl⟩
  safe r i s hr _ hfresh := safe_program N sim hr ⟨le_refl _, by simp [hfresh]⟩

/-- In every run the pool is proper, for the answers given in the run. -/
theorem serve_proper (events : List (Event Request ℚ)) (clock : ℚ) :
    (serve N sim events clock).Proper (pact N sim (Answered events)) (fun i s => i ∉ s.warming)
      (fun r i born => Script.Ends (Here born.clock i false)
        (r.Served N sim (Answered events) born.clock)) := by
  refine Pool.run_proper (keeps N sim (Answered events)) ?_ (fun i => List.not_mem_nil) events ?_
  · exact ⟨fun _ _ h => (by cases h), fun _ _ h => (by cases h), .inl ⟨rfl, rfl⟩⟩
  · exact fun r hr provider hp code want => ⟨r, hr, provider, hp, want, rfl⟩

/-- **In every interleaving each request is served with data of its own fund, over the window it asked
for, fetched less than a lifetime before it came in, and no state mixes two entries.** -/
theorem served_coherently (events : List (Event Request ℚ)) (clock : ℚ) (i : ℕ)
    (t : Thread Request Shared Fault Reply) (reply : Reply)
    (ht : (serve N sim events clock).threads[i]? = some t)
    (hdone : t.script = .done (.ok reply)) :
    t.request.Served N sim (Answered events) t.born.clock reply :=
  ((serve_proper N sim events clock).ended ht hdone).2 reply rfl

/-- Two lookups of one fund that take turns: the first one stores last. -/
def overlapping (provider : Provider) (code : String) (days₁ days₂ : ℤ) :
    List (Event Request ℚ) :=
  [.start (.lookup provider code days₁), .start (.lookup provider code days₂)] ++
    List.replicate 2 (.move 0) ++ List.replicate 3 (.move 1) ++ List.replicate 1 (.move 0)

def racing : List (Event Request ℚ) := overlapping (online 0 week).provider "000001" 60 250

theorem served_coherently_racing :
    ∃ t e, (serve .runnable true racing 0).threads[1]? = some t ∧
      t.script = .done (.ok (.entry e)) ∧ EntryFor true (Answered racing) 0 "000001" 250 e :=
  ⟨_, _, rfl, rfl, served_coherently .runnable true racing 0 1 _ _ rfl rfl⟩

/-- **The cache keeps the longest window as long as lookups do not overlap, and not longer**: a lookup
that runs alone never shortens the window of an entry, but of two that overlap the one for the shorter
window may store last, and then the longer history that the other one was answered with is gone. -/
theorem longest_window_unless_overlapping :
    (∀ provider code days s e, s.app.funds code = some e →
      ∃ e', ((ensureFund sim provider code days).run s).2.app.funds code = some e' ∧
        max e.days days ≤ e'.days) ∧
    ∀ provider code days₁ days₂ clock, historyDays ≤ days₁ → days₁ < days₂ →
      let pool := serve N sim (overlapping provider code days₁ days₂) clock
      (∃ t e, pool.threads[1]? = some t ∧ t.script = .done (.ok (.entry e)) ∧ e.days = days₂) ∧
        ∃ e, pool.state.app.funds code = some e ∧ e.days = days₁ := by
  constructor
  · intro provider code days s e he
    rw [run_ensureFund]
    rcases ensureFund_cases sim { now := s.clock, provider := provider } s.app.funds code days with
      ⟨e', he', hfresh, heq⟩ | ⟨-, heq⟩
    · rw [he] at he'
      cases he'
      exact ⟨e, by simp [heq, he], by simpa using (Entry.fresh_iff.1 hfresh).2⟩
    · rw [he] at heq
      refine ⟨loadEntry sim { now := s.clock, provider := provider } code days (some e),
        by simp [heq], ?_⟩
      exact max_le (le_max_right _ _) (le_wanted days (some e))
  · intro provider code days₁ days₂ clock h₁ h₂
    have hwanted : ∀ days, historyDays ≤ days → wanted (V := ℚ) days none = days := by
      intro days hdays
      simp only [wanted, Option.elim, historyDays] at hdays ⊢
      omega
    -- the first lookup has found no entry, and stores what it fetched after the second has
    rw [serve, Pool.run, overlapping, List.foldl_append, List.foldl_append, List.foldl_append,
      Pool.foldl_move _ _ 2 0 rfl, Pool.foldl_move _ _ 3 1 rfl, Pool.foldl_move _ _ 1 0 rfl]
    refine ⟨⟨_, _, rfl, rfl, hwanted days₂ (le_trans h₁ (le_of_lt h₂))⟩,
      _, Function.update_self _ _ _, hwanted days₁ h₁⟩

theorem longest_window_racing :
    (∃ e', ((ensureFund true (online 0 week).provider "000001" 250).run
        { Shared.initial 9 with app := { App.empty with funds := weekCache } }).2.app.funds "000001" =
          some e' ∧ max weekEntry.days 250 ≤ e'.days) ∧
      ∃ e, (serve .runnable true racing 0).state.app.funds "000001" = some e ∧ e.days = 60 :=
  ⟨(longest_window_unless_overlapping .runnable true).1 _ _ _ _ _ weekCache_entry,
    ((longest_window_unless_overlapping .runnable true).2 _ _ 60 250 0 (by decide)
      (by decide)).2⟩

/-- **At most one warm-up is under way, and the lock is held exactly as long as it is**: whoever holds
the lock is a thread that has not ended. -/
theorem one_warmUp (events : List (Event Request ℚ)) (clock : ℚ) :
    let pool := serve N sim events clock
    pool.state.warming.length ≤ 1 ∧
      (pool.state.warmLock = true ↔ pool.state.warming ≠ []) ∧
      ∀ i ∈ pool.state.warming, ∃ t, pool.threads[i]? = some t ∧ t.script.finished = false := by
  intro pool
  have hproper := serve_proper N sim events clock
  have hlock := hproper.inv.lock
  refine ⟨?_, ?_, ?_⟩
  · rcases hlock with ⟨-, hnone⟩ | ⟨j, -, hone⟩
    · simp [pool, hnone]
    · simp [pool, hone]
  · rcases hlock with ⟨hfree, hnone⟩ | ⟨j, hheld, hone⟩
    · simp [pool, hfree, hnone]
    · simp [pool, hheld, hone]
  · intro i hi
    -- a thread that is not there yet is not inside, and neither is one that has ended
    cases ht : pool.threads[i]? with
    | none => exact absurd hi (hproper.fresh i (List.getElem?_eq_none_iff.1 ht))
    | some t =>
      refine ⟨t, rfl, ?_⟩
      cases hscript : t.script with
      | step write next => rfl
      | done r =>
        have := (hproper.ended ht hscript).1.side
        simp [pool] at hi this
        exact absurd hi this

/-- Two warm-ups, the second of which comes while the first one holds the lock. -/
def twoWarmUps : List (Event Request ℚ) :=
  [.start (.warmAll (.ok [("000001", (online 0 week).provider)]) (.ok [])),
   .start (.warmAll (.ok []) (.ok [])), .move 0, .move 1, .move 0]

theorem one_warmUp_of_two :
    (serve .runnable true twoWarmUps 0).state.warming = [0] ∧
      ∃ t, (serve .runnable true twoWarmUps 0).threads[0]? = some t ∧
        t.script.finished = false :=
  ⟨rfl, (one_warmUp .runnable true twoWarmUps 0).2.2 0 (List.mem_singleton.2 rfl)⟩

end QuantFlow.Threads
