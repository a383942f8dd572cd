/-
**The cached news list and the sources it was made of.**

`main.py` keeps the merged news list for 300 seconds.  Adding or removing a source, a refresh and a
forced analysis drop it, so that the next request fetches again: the list that is served should always
be one of the sources that are stored.  The requests are not protected against one another.  A request
that reads the sources, fetches, and stores its list after a source has been added in between puts the
old list back, for another 300 seconds.

A request is a script over the clock, the file of the sources and the cache.  What the servers answer,
and whether a read or a write of the file fails, are inputs.

Main definitions:

* `World` — the clock, the file and the cache;
* `fetchNewsCached`, `program` — the requests, step by step;
* `Current` — the stored list was made of the sources that are stored.

Main results:

* `run_fetchNewsCached` — alone, the lookup does what that of the sequential model does;
* `news_current_unless_overlapping` — **as long as requests do not overlap, a
  served list is one of the sources stored now, fetched less than 300 seconds ago; but a lookup that
  overlaps with the addition of a source can put back a list without it**.
-/

import QuantFlow.NewsItems
import QuantFlow.NewsSources
import QuantFlow.SourceStore
import QuantFlow.ThreadPools

namespace QuantFlow.NewsRequests

open Scripts
open Scripts.Script (run_bind_ok run_read)
open Py (Str)
open News (NewsItem NewsList Fetcher SourceConfig getNews attempts allSources newsSources)
open Sources (File UserSource WriteOutcome Pending)

/-! ### The shared state and its steps -/

structure World where
  clock : ℚ
  file : File
  cache : TTLCache NewsList

def World.start (clock : ℚ) (file : File) : World :=
  { clock := clock, file := file, cache := .empty }

/-- The refusal of a request: its status and its text. -/
structure Refusal where
  status : ℕ
  detail : String

abbrev Step := Script World Refusal

def time : Step ℚ := Script.read World.clock

def setCache (f : TTLCache NewsList → TTLCache NewsList) : Step Unit :=
  Script.modify fun w => { w with cache := f w.cache }

/-- `cache.get("news")`. -/
def cacheGet : Step (Option NewsList) := do
  let item ← Script.read fun w => w.cache.store "news"
  match item with
  | none => pure none
  | some (value, expireAt) => do
    let now ← time
    if expireAt ≤ now then do
      setCache fun c => { c with store := Function.update c.store "news" none }
      pure none
    else pure value

/-- `cache.set("news", value, ttl=ttl)`. -/
def cacheSet (value : Option NewsList) (ttl : ℚ) : Step Unit := do
  let now ← time
  setCache fun c => c.set "news" value (some ttl) now

/-! ### The requests -/

/-- What one call of `get_news` meets: the built-in library at its time, the answers of the sources,
and whether its read of the file fails. -/
structure Fetching where
  sample : List NewsItem
  fetcher : Fetcher
  fails : Bool

/-- A source of the file, as `get_news` sees it.  Only text that has a UTF-8 form was written. -/
def config (s : UserSource) : SourceConfig :=
  { type := some s.type.shown, name := some s.name.shown, url := s.url.shown }

/-- `list_sources()`. -/
def readFile (fails : Bool) (file : File) : List UserSource := if fails then [] else file.load

/-- The sources, each with its answer. -/
def Fetching.attempts (q : Fetching) (file : File) : List News.Attempt :=
  News.attempts q.fetcher (allSources newsSources ((readFile q.fails file).map config))

/-- The list that a call of `get_news(limit=40)` makes of the sources of a file. -/
def Fetching.list (q : Fetching) (file : File) : NewsList := getNews q.sample (q.attempts file) 40

/-- `get_news(limit=40)`. -/
def getNewsNow (q : Fetching) : Step NewsList := do
  let file ← Script.read World.file
  pure (q.list file)

/-- `_fetch_news_cached()`. -/
def fetchNewsCached (q : Fetching) : Step NewsList := do
  let cached ← cacheGet
  match cached with
  | some nl => pure nl
  | none => do
    let nl ← getNewsNow q
    cacheSet (some nl) 300
    pure nl

/-- How a write ends: a list with text that has no UTF-8 form cannot be written. -/
def ends (outcome : WriteOutcome) (p : Pending) : WriteOutcome :=
  if outcome = .written && !p.list.all UserSource.encodable then .torn else outcome

/-- `store.save(SOURCES_FILE, …)`. -/
def save (p : Pending) (outcome : WriteOutcome) : Step Unit :=
  Script.modify fun w => { w with file := p.save w.file (ends outcome p) }

inductive Request
  | news (q : Fetching)
  | addSource (name url stype : Str) (fails : Bool) (outcome : WriteOutcome) (q : Fetching)
  | deleteSource (url : Str) (fails : Bool) (outcome : WriteOutcome)
  | forcedAnalysis (q : Fetching)
  | refresh (q : Fetching)

/-- The rest of `add_news_source`, after its read. -/
def afterAdd (outcome : WriteOutcome) (q : Fetching) : Except String Pending → Step (Option NewsList)
  | .error detail => Script.raise { status := 400, detail := detail }
  | .ok p => do
    save p outcome
    cacheSet none 0
    let nl ← fetchNewsCached q
    pure (some nl)

/-- The rest of `delete_news_source`, after its read. -/
def afterRemove (outcome : WriteOutcome) : Option Pending → Step (Option NewsList)
  | none => Script.raise { status := 404, detail := "未找到该新闻源" }
  | some p => do
    save p outcome
    cacheSet none 0
    pure none

/-- The requests; the answer is the list that was served, if one was. -/
def program : Request → ℕ → Step (Option NewsList)
  | .news q, _ => do
    let nl ← fetchNewsCached q
    pure (some nl)
  | .addSource name url stype fails outcome q, _ => do
    let file ← Script.read World.file
    afterAdd outcome q (Sources.addSource name url stype (readFile fails file))
  | .deleteSource url fails outcome, _ => do
    let file ← Script.read World.file
    afterRemove outcome (Sources.removeSource url (readFile fails file))
  | .forcedAnalysis q, _ => do
    cacheSet none 0
    let nl ← fetchNewsCached q
    pure (some nl)
  | .refresh q, _ => do
    cacheSet none 0
    let nl ← getNewsNow q
    cacheSet (some nl) 300
    pure (some nl)

def tick (d : ℚ) (w : World) : World := { w with clock := w.clock + max 0 d }

/-- The calls of `get_news` that a request may make. -/
def Request.fetchings : Request → List Fetching
  | .news q => [q]
  | .addSource _ _ _ _ _ q => [q]
  | .deleteSource _ _ _ => []
  | .forcedAnalysis q => [q]
  | .refresh q => [q]

theorem tick_zero : tick 0 = id := by
  funext w
  simp [tick]

/-- A call of `get_news` by a request that came in and ended at these times. -/
structure Attempt where
  began : ℚ
  ended : ℚ
  fetching : Fetching

/-- What requests leave that run one after the other, while time passes between them and between their
steps, with the calls of `get_news` that they may have made. -/
inductive InTurn : World → List Attempt → Prop
  | start (clock : ℚ) (file : File) : InTurn (.start clock file) []
  | call {w w' : World} {tries : List Attempt} {answer : Except Refusal (Option NewsList)}
      (before : InTurn w tries) (r : Request) (runs : (program r 0).Paced tick w answer w') :
      InTurn w' (tries ++ r.fetchings.map fun q => ⟨w.clock, w'.clock, q⟩)

/-! ### A request that runs alone -/

theorem run_cacheGet (w : World) :
    cacheGet.run w = (.ok (w.cache.get "news" w.clock).1,
      { w with cache := (w.cache.get "news" w.clock).2 }) := by
  rw [cacheGet, run_bind_ok (run_read _ _), TTLCache.get]
  cases w.cache.store "news" with
  | none => rfl
  | some item =>
    obtain ⟨value, expireAt⟩ := item
    simp only []
    rw [time, run_bind_ok (run_read _ _)]
    split
    · rfl
    · rfl

/-- Alone, the lookup does what that of the sequential model does. -/
theorem run_fetchNewsCached (q : Fetching) (w : World) :
    (fetchNewsCached q).run w =
      let done := News.fetchNewsCached q.sample w.cache w.clock w.clock (q.attempts w.file)
      (.ok done.1, { w with cache := done.2 }) := by
  rw [fetchNewsCached, run_bind_ok (run_cacheGet w), News.fetchNewsCached]
  cases w.cache.get "news" w.clock with
  | mk found cache =>
    cases found with
    | some nl => rfl
    | none => rfl

/-! ### Requests in turn -/

/-- Time has passed. -/
structure Later (w w' : World) : Prop where
  clock : w.clock ≤ w'.clock
  file : w'.file = w.file
  cache : w'.cache = w.cache

theorem later_tick (d : ℚ) (w : World) : Later w (tick d w) :=
  ⟨le_add_of_nonneg_right (le_max_left 0 d), rfl, rfl⟩

theorem Later.trans {w w' w'' : World} (h : Later w w') (h' : Later w' w'') : Later w w'' :=
  ⟨h.clock.trans h'.clock, h'.file.trans h.file, h'.cache.trans h.cache⟩

section Paced

variable {w w' : World}

theorem paced_read {α : Type} {f : World → α} {r : Except Refusal α}
    (h : (Script.read f : Step α).Paced tick w r w') : Later w w' ∧ r = .ok (f w') := by
  obtain ⟨d, rfl, hr⟩ := h.of_read
  exact ⟨later_tick d w, hr⟩

theorem paced_setCache {f : TTLCache NewsList → TTLCache NewsList} {r : Except Refusal Unit}
    (h : (setCache f).Paced tick w r w') :
    w.clock ≤ w'.clock ∧ w'.file = w.file ∧ w'.cache = f w.cache ∧ r = .ok () := by
  obtain ⟨d, rfl, hr⟩ := h.of_modify
  exact ⟨(later_tick d w).clock, rfl, rfl, hr⟩

theorem paced_save {p : Pending} {outcome : WriteOutcome} {r : Except Refusal Unit}
    (h : (save p outcome).Paced tick w r w') : w.clock ≤ w'.clock ∧ r = .ok () := by
  obtain ⟨d, rfl, hr⟩ := h.of_modify
  exact ⟨(later_tick d w).clock, hr⟩

/-- The lookup reads the clock at some time; if it finds a list this is its last step. -/
theorem paced_cacheGet {r : Except Refusal (Option NewsList)} (h : cacheGet.Paced tick w r w') :
    ∃ t, w.clock ≤ t ∧ t ≤ w'.clock ∧ w'.file = w.file ∧ r = .ok (w.cache.get "news" t).1 ∧
      w'.cache = (w.cache.get "news" t).2 ∧ ((w.cache.get "news" t).1 ≠ none → t = w'.clock) := by
  obtain ⟨item, m, hread, hrest⟩ := h.of_bind_ok fun e m hbad => by cases (paced_read hbad).2
  obtain ⟨hlater, hitem⟩ := paced_read hread
  cases hitem
  rw [hlater.cache] at hrest
  cases hstore : w.cache.store "news" with
  | none =>
    have hget : w.cache.get "news" m.clock = (none, w.cache) := by simp [TTLCache.get, hstore]
    rw [hstore] at hrest
    obtain ⟨rfl, rfl⟩ := hrest.of_done
    refine ⟨m.clock, hlater.clock, le_rfl, hlater.file, ?_⟩
    rw [hget]
    exact ⟨rfl, hlater.cache, fun h => absurd rfl h⟩
  | some entry =>
    obtain ⟨value, expireAt⟩ := entry
    rw [hstore] at hrest
    obtain ⟨now, m', htime, hrest⟩ := hrest.of_bind_ok fun e m hbad => by cases (paced_read hbad).2
    obtain ⟨hlater', hnow⟩ := paced_read htime
    cases hnow
    have hboth := hlater.trans hlater'
    by_cases hold : expireAt ≤ m'.clock
    · have hget : w.cache.get "news" m'.clock =
          (none, { w.cache with store := Function.update w.cache.store "news" none }) := by
        simp [TTLCache.get, hstore, hold]
      rw [if_pos hold] at hrest
      obtain ⟨u, m'', hset, hrest⟩ := hrest.of_bind_ok fun e m hbad => by
        cases (paced_setCache hbad).2.2.2
      obtain ⟨hclock, hfile, hcache, -⟩ := paced_setCache hset
      obtain ⟨rfl, rfl⟩ := hrest.of_done
      refine ⟨m'.clock, hboth.clock, hclock, hfile.trans hboth.file, ?_⟩
      rw [hget, hcache, hboth.cache]
      exact ⟨rfl, rfl, fun h => absurd rfl h⟩
    · have hget : w.cache.get "news" m'.clock = (value, w.cache) := by
        simp [TTLCache.get, hstore, hold]
      rw [if_neg hold] at hrest
      obtain ⟨rfl, rfl⟩ := hrest.of_done
      refine ⟨m'.clock, hboth.clock, le_rfl, hboth.file, ?_⟩
      rw [hget]
      exact ⟨rfl, hboth.cache, fun _ => rfl⟩

theorem paced_cacheSet {value : Option NewsList} {ttl : ℚ} {r : Except Refusal Unit}
    (h : (cacheSet value ttl).Paced tick w r w') :
    ∃ t, w.clock ≤ t ∧ t ≤ w'.clock ∧ w'.file = w.file ∧
      w'.cache = w.cache.set "news" value (some ttl) t ∧ r = .ok () := by
  obtain ⟨now, m, htime, hrest⟩ := h.of_bind_ok fun e m hbad => by cases (paced_read hbad).2
  obtain ⟨hlater, hnow⟩ := paced_read htime
  cases hnow
  obtain ⟨hclock, hfile, hcache, hr⟩ := paced_setCache hrest
  exact ⟨m.clock, hlater.clock, hclock, hfile.trans hlater.file, by rw [hcache, hlater.cache], hr⟩

theorem paced_getNewsNow {q : Fetching} {r : Except Refusal NewsList}
    (h : (getNewsNow q).Paced tick w r w') : Later w w' ∧ r = .ok (q.list w.file) := by
  obtain ⟨file, m, hread, hrest⟩ := h.of_bind_ok fun e m hbad => by cases (paced_read hbad).2
  obtain ⟨hlater, hfile⟩ := paced_read hread
  cases hfile
  obtain ⟨rfl, rfl⟩ := hrest.of_done
  exact ⟨hlater, by rw [hlater.file]⟩

theorem paced_stored {β : Type} {q : Fetching} {ttl : ℚ} {f : NewsList → β} {r : Except Refusal β}
    (h : (do let nl ← getNewsNow q; cacheSet (some nl) ttl; pure (f nl) : Step β).Paced tick w r w') :
    ∃ t, w.clock ≤ t ∧ t ≤ w'.clock ∧ w'.file = w.file ∧
      w'.cache = w.cache.set "news" (some (q.list w.file)) (some ttl) t ∧
      r = .ok (f (q.list w.file)) := by
  obtain ⟨nl, m, hfetch, hrest⟩ := h.of_bind_ok fun e m hbad => by cases (paced_getNewsNow hbad).2
  obtain ⟨hlater, hnl⟩ := paced_getNewsNow hfetch
  cases hnl
  obtain ⟨u, m', hset, hrest⟩ := hrest.of_bind_ok fun e m hbad => by
    obtain ⟨t, -, -, -, -, hbad⟩ := paced_cacheSet hbad
    cases hbad
  obtain ⟨t, hfrom, hto, hfile, hcache, -⟩ := paced_cacheSet hset
  obtain ⟨rfl, rfl⟩ := hrest.of_done
  exact ⟨t, hlater.clock.trans hfrom, hto, hfile.trans hlater.file, by rw [hcache, hlater.cache], rfl⟩

end Paced

/-! ### The list and the sources -/

/-- The stored list is one that an attempt made of the sources stored now, and it will be served for
300 seconds from the time at which the attempt stored it. -/
def Current (tries : List Attempt) (w : World) : Prop :=
  ∀ nl expireAt, w.cache.store "news" = some (some nl, expireAt) →
    ∃ a ∈ tries, ∃ t, a.began ≤ t ∧ t ≤ a.ended ∧ nl = a.fetching.list w.file ∧ expireAt = t + 300

section Current

variable {tries : List Attempt} {w w' : World}

theorem Current.mono (h : Current tries w) {more : List Attempt}
    (hmore : ∀ a ∈ tries, ∃ b ∈ more, b.began ≤ a.began ∧ a.ended ≤ b.ended ∧
      b.fetching = a.fetching) : Current more w := by
  intro nl expireAt hs
  obtain ⟨a, ha, t, hfrom, hto, hnl, ht⟩ := h nl expireAt hs
  obtain ⟨b, hb, hbegan, hended, hsame⟩ := hmore a ha
  exact ⟨b, hb, t, hbegan.trans hfrom, hto.trans hended, hsame ▸ hnl, ht⟩

theorem Current.append (h : Current tries w) (more : List Attempt) : Current (tries ++ more) w :=
  h.mono fun a ha => ⟨a, List.mem_append_left _ ha, le_rfl, le_rfl, rfl⟩

theorem Current.widen {began began' ended ended' : ℚ} {q : Fetching}
    (h : Current (tries ++ [⟨began, ended, q⟩]) w) (hbegan : began' ≤ began) (hended : ended ≤ ended') :
    Current (tries ++ [⟨began', ended', q⟩]) w := by
  refine h.mono fun a ha => ?_
  rcases List.mem_append.1 ha with ha | ha
  · exact ⟨a, List.mem_append_left _ ha, le_rfl, le_rfl, rfl⟩
  · obtain rfl := List.mem_singleton.1 ha
    exact ⟨_, List.mem_append_right _ (List.mem_singleton_self _), hbegan, hended, rfl⟩

theorem Current.later (h : Current tries w) (hfile : w'.file = w.file) (hcache : w'.cache = w.cache) :
    Current tries w' := by
  intro nl expireAt hs
  rw [hcache] at hs
  rw [hfile]
  exact h nl expireAt hs

theorem current_set {cache : TTLCache NewsList} {a : Attempt} (ha : a ∈ tries) {t : ℚ}
    (hcache : w'.cache = cache.set "news" (some (a.fetching.list w'.file)) (some 300) t)
    (hfrom : a.began ≤ t) (hto : t ≤ a.ended) : Current tries w' := by
  intro nl expireAt hs
  simp only [hcache, TTLCache.set, Function.update_self, Option.some.injEq, Prod.mk.injEq] at hs
  obtain ⟨rfl, rfl⟩ := hs
  exact ⟨a, ha, t, hfrom, hto, rfl, by norm_num⟩

/-- Without a list, whatever happened to the file. -/
theorem current_drop {cache : TTLCache NewsList} {t : ℚ}
    (hcache : w'.cache = cache.set "news" none (some 0) t) : Current tries w' := by
  intro nl expireAt hs
  simp [hcache, TTLCache.set] at hs

theorem Current.fetch (h : Current tries w) {q : Fetching} {r : Except Refusal NewsList}
    (hruns : (fetchNewsCached q).Paced tick w r w') :
    w.clock ≤ w'.clock ∧ w'.file = w.file ∧ Current (tries ++ [⟨w.clock, w'.clock, q⟩]) w' ∧
      ∃ nl, r = .ok nl ∧ (nl = q.list w.file ∨ ∃ a ∈ tries, ∃ t, a.began ≤ t ∧ t ≤ a.ended ∧
        w'.clock < t + 300 ∧ nl = a.fetching.list w.file) := by
  obtain ⟨found, m, hget, hrest⟩ := hruns.of_bind_ok fun e m hbad => by
    obtain ⟨t, -, -, -, hbad, -⟩ := paced_cacheGet hbad
    cases hbad
  obtain ⟨t, hfrom, hto, hfile, hfound, hcache, hlast⟩ := paced_cacheGet hget
  cases hfound
  cases hnl : (w.cache.get "news" t).1 with
  | none =>
    rw [hnl] at hrest
    obtain ⟨t', hfrom', hto', hfile', hcache', hr⟩ := paced_stored hrest
    rw [hfile] at hcache' hr
    refine ⟨(hfrom.trans hto).trans (hfrom'.trans hto'), hfile'.trans hfile, ?_, _, hr, .inl rfl⟩
    rw [← hfile, ← hfile'] at hcache'
    exact current_set (List.mem_append_right _ (List.mem_singleton_self _)) hcache'
      ((hfrom.trans hto).trans hfrom') hto'
  | some nl =>
    rw [hnl] at hrest
    obtain ⟨rfl, rfl⟩ := hrest.of_done
    have htime : t = m.clock := hlast (by rw [hnl]; exact Option.some_ne_none nl)
    -- a list was found, so the entry is there and has not expired
    have hstored : ∃ expireAt, w.cache.store "news" = some (some nl, expireAt) ∧ t < expireAt ∧
        (w.cache.get "news" t).2 = w.cache := by
      unfold TTLCache.get at hnl ⊢
      cases hitem : w.cache.store "news" with
      | none => simp [hitem] at hnl
      | some item =>
        obtain ⟨value, expireAt⟩ := item
        by_cases hold : expireAt ≤ t
        · simp [hitem, hold] at hnl
        · simp only [hitem, if_neg hold] at hnl ⊢
          exact ⟨expireAt, by rw [hnl], not_le.1 hold, trivial⟩
    obtain ⟨expireAt, hitem, hyoung, hsame⟩ := hstored
    rw [hsame] at hcache
    obtain ⟨a, ha, t', hfrom', hto', hmade, rfl⟩ := h nl expireAt hitem
    refine ⟨hfrom.trans hto, hfile, (h.later hfile hcache).append _, nl, rfl, .inr ?_⟩
    exact ⟨a, ha, t', hfrom', hto', htime ▸ hyoung, hmade⟩

theorem Current.fetched (h : Current tries w) {q : Fetching}
    {r : Except Refusal (Option NewsList)} (hruns : (do let nl ← fetchNewsCached q; pure (some nl) :
      Step (Option NewsList)).Paced tick w r w') : Current (tries ++ [⟨w.clock, w'.clock, q⟩]) w' := by
  obtain ⟨nl, m, hfetch, hrest⟩ := hruns.of_bind_ok fun e m hbad => by
    obtain ⟨-, -, -, nl, hbad, -⟩ := h.fetch hbad
    cases hbad
  obtain ⟨rfl, rfl⟩ := hrest.of_done
  exact (h.fetch hfetch).2.2.1

theorem paced_drop {r : Except Refusal Unit} (h : (cacheSet none 0).Paced tick w r w') :
    w.clock ≤ w'.clock ∧ Current tries w' ∧ r = .ok () := by
  obtain ⟨t, hfrom, hto, -, hcache, hr⟩ := paced_cacheSet h
  exact ⟨hfrom.trans hto, current_drop hcache, hr⟩

/-- A request that runs alone keeps the list and the sources together. -/
theorem Current.run (h : Current tries w) (r : Request) {answer : Except Refusal (Option NewsList)}
    (hruns : (program r 0).Paced tick w answer w') :
    Current (tries ++ r.fetchings.map fun q => ⟨w.clock, w'.clock, q⟩) w' := by
  have hset : ∀ {u : World} e m, ¬ (cacheSet none 0).Paced tick u (.error e) m := fun e m hbad => by
    obtain ⟨-, -, -, -, -, hbad⟩ := paced_cacheSet hbad
    cases hbad
  cases r with
  | news q => exact h.fetched hruns
  | addSource name url stype fails outcome q =>
    obtain ⟨file, m, hread, hrest⟩ := hruns.of_bind_ok fun e m hbad => by cases (paced_read hbad).2
    obtain ⟨hlater, hfile⟩ := paced_read hread
    cases hadd : Sources.addSource name url stype (readFile fails file) with
    | error detail =>
      rw [hadd] at hrest
      obtain ⟨rfl, rfl⟩ := hrest.of_done
      exact (h.later hlater.file hlater.cache).append _
    | ok p =>
      rw [hadd] at hrest
      obtain ⟨u, m₂, hsave, hrest⟩ := hrest.of_bind_ok fun e m hbad => by cases (paced_save hbad).2
      obtain ⟨u, m₃, hdrop, hrest⟩ := hrest.of_bind_ok hset
      obtain ⟨hclock, hnone, -⟩ := paced_drop hdrop
      have hbegan : w.clock ≤ m₃.clock := (hlater.clock.trans (paced_save hsave).1).trans hclock
      exact (hnone.fetched hrest).widen hbegan le_rfl
  | deleteSource url fails outcome =>
    obtain ⟨file, m, hread, hrest⟩ := hruns.of_bind_ok fun e m hbad => by cases (paced_read hbad).2
    obtain ⟨hlater, hfile⟩ := paced_read hread
    cases hremove : Sources.removeSource url (readFile fails file) with
    | none =>
      rw [hremove] at hrest
      obtain ⟨rfl, rfl⟩ := hrest.of_done
      exact (h.later hlater.file hlater.cache).append _
    | some p =>
      rw [hremove] at hrest
      obtain ⟨u, m₂, hsave, hrest⟩ := hrest.of_bind_ok fun e m hbad => by cases (paced_save hbad).2
      obtain ⟨u, m₃, hdrop, hrest⟩ := hrest.of_bind_ok hset
      obtain ⟨rfl, rfl⟩ := hrest.of_done
      exact (paced_drop hdrop).2.1
  | forcedAnalysis q =>
    obtain ⟨u, m, hdrop, hrest⟩ := hruns.of_bind_ok hset
    obtain ⟨hclock, hnone, -⟩ := paced_drop hdrop
    exact (hnone.fetched hrest).widen hclock le_rfl
  | refresh q =>
    obtain ⟨u, m, hdrop, hrest⟩ := hruns.of_bind_ok hset
    obtain ⟨t, hfrom, hto, -⟩ := paced_cacheSet hdrop
    have hclock := hfrom.trans hto
    obtain ⟨t, hfrom, hto, hfile, hcache, -⟩ := paced_stored hrest
    rw [← hfile] at hcache
    exact current_set (List.mem_append_right _ (List.mem_singleton_self _)) hcache
      (hclock.trans hfrom) hto

theorem InTurn.current (h : InTurn w tries) : Current tries w := by
  induction h with
  | start clock file =>
    intro nl expireAt hs
    cases hs
  | call _ r hruns ih => exact ih.run r hruns

end Current

/-! ### Requests that overlap -/

/-- The addition of a source while a lookup is under way: the lookup has read the sources, and stores
its list after the addition has ended. -/
def overlapping (q₁ q₂ : Fetching) (name url stype : Str) : List (Event Request ℚ) :=
  [.start (.news q₁), .start (.addSource name url stype false .written q₂)] ++
    List.replicate 3 (.move 0) ++ List.replicate 10 (.move 1) ++ List.replicate 1 (.move 0)

/-- The lookup stores the list that it made before. -/
theorem state_overlapping (q₁ q₂ : Fetching) (name url stype : Str) (clock : ℚ) (file : File) :
    (Pool.run program tick (overlapping q₁ q₂ name url stype) (.start clock file)).state =
      let w := ((program (.addSource name url stype false .written q₂) 1).ahead 10
        (.start clock file)).2
      { w with cache := w.cache.set "news" (some (q₁.list file)) (some 300) clock } := by
  rw [Pool.run, overlapping, List.foldl_append, List.foldl_append, List.foldl_append,
    Pool.foldl_move _ _ 3 0 rfl, Pool.foldl_move _ _ 10 1 rfl, Pool.foldl_move _ _ 1 0 rfl]
  rfl

/-- An addition that runs alone ends with its source in the file. -/
theorem added_overlapping {name url stype : Str} {old : List UserSource} {p : Pending}
    (hadd : Sources.addSource name url stype old = .ok p)
    (hencodable : p.list.all UserSource.encodable = true) (q : Fetching) (clock : ℚ) :
    let w := ((program (.addSource name url stype false .written q) 1).ahead 10
      (.start clock (.stored old))).2
    w.file = .stored p.list ∧ w.clock = clock := by
  have hread : (program (.addSource name url stype false .written q) 1).ahead 10
      (.start clock (.stored old)) =
      (afterAdd .written q (Sources.addSource name url stype old)).ahead 9
        (.start clock (.stored old)) := rfl
  have hwritten : ends .written p = .written := by simp [ends, hencodable]
  rw [hread, hadd]
  simp [afterAdd, save, cacheSet, fetchNewsCached, cacheGet, getNewsNow, time, setCache, Script.read,
    Script.transaction, Script.committed, Script.modify, Script.ahead, Script.bind, Bind.bind,
    Pure.pure, Except.map, TTLCache.set, World.start, hwritten, Pending.save]

/-- **As long as requests do not overlap, a served list is one of the sources stored now, fetched by the
lookup itself or stored less than 300 seconds ago; but a lookup that overlaps with the addition of a
source can put back a list without it**, and this is then served until it expires. -/
theorem news_current_unless_overlapping :
    (∀ w tries, InTurn w tries → ∀ q r w', (fetchNewsCached q).Paced tick w r w' →
      w'.file = w.file ∧ ∃ nl, r = .ok nl ∧ (nl = q.list w.file ∨
        ∃ a ∈ tries, ∃ t, a.began ≤ t ∧ t ≤ a.ended ∧ w'.clock < t + 300 ∧
          nl = a.fetching.list w.file)) ∧
    ∀ clock old name url stype p q₁ q₂ d q,
      Sources.addSource name url stype old = .ok p → p.list.all UserSource.encodable = true → d < 300 →
      let pool := Pool.run program tick (overlapping q₁ q₂ name url stype)
        (.start clock (.stored old))
      pool.state.file = .stored p.list ∧
        ((fetchNewsCached q).run (tick d pool.state)).1 = .ok (q₁.list (.stored old)) := by
  constructor
  · intro w tries hturn q r w' hruns
    obtain ⟨-, hfile, -, hserved⟩ := hturn.current.fetch hruns
    exact ⟨hfile, hserved⟩
  · intro clock old name url stype p q₁ q₂ d q hadd hencodable hd pool
    have hstate := state_overlapping q₁ q₂ name url stype clock (.stored old)
    obtain ⟨hfile, hclock⟩ := added_overlapping hadd hencodable q₂ clock
    generalize ((program (.addSource name url stype false .written q₂) 1).ahead 10
      (.start clock (.stored old))).2 = w at hstate hfile hclock
    have hyoung : ¬ clock + 300 ≤ clock + max 0 d := by
      have : max 0 d < 300 := max_lt (by norm_num) hd
      linarith
    simp only [pool, hstate]
    refine ⟨hfile, ?_⟩
    rw [run_fetchNewsCached]
    simp [News.fetchNewsCached, TTLCache.get, TTLCache.set, tick, hclock, hyoung]

/-- No source answers, and the built-in library is the given one. -/
def unanswered (sample : List NewsItem) : Fetching :=
  { sample := sample, fails := false
    fetcher := { api := fun _ _ _ _ _ => none, rss := fun _ _ _ _ => none } }

/-- A source that is added while a lookup is under way. -/
def newcomer : UserSource :=
  { name := Str.ofString "甲", url := Str.ofString "a.xml", type := Str.ofString "rss" }

/-- A refresh and, five seconds later, a lookup that finds its list; and a lookup that overlaps with an
addition. -/
theorem news_current_newcomer :
    let w := ((program (.refresh (unanswered [])) 0).run (.start 0 .missing)).2
    ((fetchNewsCached (unanswered [])).Paced tick w (.ok ((unanswered []).list .missing)) (tick 5 w) ∧
      ∃ nl, (.ok ((unanswered []).list .missing) : Except Refusal NewsList) = .ok nl ∧
        (nl = (unanswered []).list .missing ∨ ∃ a ∈ [Attempt.mk 0 0 (unanswered [])], ∃ t,
          a.began ≤ t ∧ t ≤ a.ended ∧ (tick 5 w).clock < t + 300 ∧
            nl = a.fetching.list .missing)) ∧
      ((fetchNewsCached (unanswered [])).run (tick 1 (Pool.run program tick
        (overlapping (unanswered []) (unanswered []) newcomer.name newcomer.url newcomer.type)
        (.start 0 (.stored []))).state)).1 = .ok ((unanswered []).list (.stored [])) := by
  intro w
  have hturn : InTurn w [⟨0, 0, unanswered []⟩] :=
    .call (.start 0 .missing) (.refresh (unanswered []))
      (Script.paced_run tick_zero _ (World.start 0 .missing))
  have hserved : (fetchNewsCached (unanswered [])).Paced tick w (.ok ((unanswered []).list .missing))
      (tick 5 w) := by
    have hstore : (tick 5 w).cache.store "news" =
        some (some ((unanswered []).list .missing), 0 + 300) := rfl
    have hyoung : ¬ (0 : ℚ) + 300 ≤ (tick 0 (tick 5 w)).clock := by
      show ¬ (0 : ℚ) + 300 ≤ 0 + max 0 5 + max 0 0
      norm_num
    have hsame : tick 0 (tick 5 w) = tick 5 w := congrFun tick_zero _
    have hget : (cacheGet).Paced tick w (.ok (some ((unanswered []).list .missing))) (tick 5 w) := by
      refine Script.Paced.bind (.read _ 5 w) ?_
      simp only [hstore]
      refine Script.Paced.bind (.read World.clock 0 (tick 5 w)) ?_
      rw [if_neg hyoung, hsame]
      exact .done _ _
    exact Script.Paced.bind hget (.done _ _)
  exact ⟨⟨hserved, (news_current_unless_overlapping.1 w _ hturn _ _ _ hserved).2⟩,
    (news_current_unless_overlapping.2 0 [] newcomer.name newcomer.url newcomer.type
      { change := .add newcomer, data := [] } (unanswered []) (unanswered []) 1 (unanswered []) rfl
      (by decide) (by norm_num)).2⟩

end QuantFlow.NewsRequests
