/-
**The short-lived cache and the news list.**

`backend/app/cache.py` is a map whose keys carry an expiry time, and `backend/app/news.py` merges
the items of up to six sources into one list that `main.py` keeps in that cache.  What a source
returns, and the built-in library used when no source returned anything, are parameters; the rest
(merging, first occurrence of a title, order, note, filters) is the code's.

Main definitions:

* `TTLCache` — the cache, with `get` and `set`;
* `getNews`, `filterNews` — the merged list and its filters;
* `fetchNewsCached` — the list through the cache;
* `NewsOp`, `runNews` — the operations on the cached list, and a run.

Main results:

* `mem_items_getNews` — every item of the list was fetched, or nothing was fetched
  and it is from the built-in library;
* `isSample_getNews_iff` — **the note marks the built-in library exactly when nothing was fetched**;
* `merged_run` — the list stored in a run was merged from an attempt of the run.
-/

import Mathlib.Algebra.Order.Field.Rat
import Mathlib.Data.List.Infix
import Mathlib.Data.List.Dedup
import QuantFlow.KeyedCache
import QuantFlow.PyValues

namespace QuantFlow

/-! ### The cache -/

/-- The store of a cache: under a key a value (possibly `None`) and its expiry time. -/
structure TTLCache (V : Type) where
  defaultTtl : ℚ := 60
  store : String → Option (Option V × ℚ)

namespace TTLCache

variable {V : Type}

def empty : TTLCache V := { store := fun _ => none }

/-- `get(key)` at time `now`; an expired item is dropped. -/
def get (c : TTLCache V) (key : String) (now : ℚ) : Option V × TTLCache V :=
  match c.store key with
  | none => (none, c)
  | some (value, expireAt) =>
    if expireAt ≤ now then (none, { c with store := Function.update c.store key none })
    else (value, c)

/-- `set(key, value, ttl)` at time `now`. -/
def set (c : TTLCache V) (key : String) (value : Option V) (ttl : Option ℚ) (now : ℚ) :
    TTLCache V :=
  let lifetime := match ttl with
    | none => c.defaultTtl
    | some ttl => max 0 ttl
  { c with store := Function.update c.store key (some (value, now + lifetime)) }

theorem stored_of_get {c : TTLCache V} {key : String} {now : ℚ} {v : V}
    (h : (c.get key now).1 = some v) : ∃ expireAt, c.store key = some (some v, expireAt) := by
  unfold get at h
  cases hs : c.store key with
  | none => simp [hs] at h
  | some item =>
    obtain ⟨value, expireAt⟩ := item
    simp only [hs] at h
    split at h
    · cases h
    · exact ⟨expireAt, by rw [← h]⟩

theorem store_get {c : TTLCache V} {key k : String} {now : ℚ} {item : Option V × ℚ}
    (h : (c.get key now).2.store k = some item) : c.store k = some item := by
  unfold get at h
  cases hs : c.store key with
  | none => simpa [hs] using h
  | some old =>
    simp only [hs] at h
    split at h
    · by_cases hk : k = key
      · simp [hk] at h
      · simpa [hk] using h
    · exact h

end TTLCache

namespace News

open Py (Str)

/-! ### Items and lists -/

structure NewsItem where
  title : Str
  link : Str
  source : String
  published : Option Str := none
  summary : Str := []
  relevance : ℚ := 0
  sentiment : ℚ := 0
  tags : List String := []
  deriving DecidableEq

structure NewsList where
  items : List NewsItem
  total : ℕ
  sourceNote : String
  tags : List String := []
  deriving DecidableEq

/-- A configured source. -/
structure Source where
  name : Option String
  url : String
  deriving DecidableEq

/-- `src.get("name", src["url"])`. -/
def Source.label (src : Source) : String := src.name.getD src.url

/-- One configured source and what fetching it gives: items, nothing, or (`none`) an exception. -/
structure Attempt where
  source : Source
  got : Option (List NewsItem)
  deriving DecidableEq

/-- The items an attempt contributes. -/
def Attempt.items (a : Attempt) : List NewsItem := a.got.getD []

/-- The loop over titles: the first item of each title is kept. -/
def uniqueTitles : List NewsItem → List Str → List NewsItem
  | [], _ => []
  | it :: items, seen =>
    if it.title ∈ seen then uniqueTitles items seen
    else it :: uniqueTitles items (it.title :: seen)

/-- Descending order of `(relevance, sentiment)`; the sort is stable. -/
def byRelevance (a b : NewsItem) : Bool :=
  b.relevance < a.relevance ∨ (b.relevance = a.relevance ∧ b.sentiment ≤ a.sentiment)

/-- `_all_sources()[:6]`, each with its outcome. -/
def tried (attempts : List Attempt) : List Attempt := attempts.take 6

/-- The items of all tried sources. -/
def fetched (attempts : List Attempt) : List NewsItem := (tried attempts).flatMap Attempt.items

/-- The note of a fetched list. -/
def liveNote (attempts : List Attempt) : String :=
  let ok := (tried attempts).filter fun a => a.items ≠ []
  let failed := (tried attempts).filter fun a => a.items = []
  "实时抓取：" ++ "、".intercalate (ok.map fun a => a.source.label) ++
    if failed = [] then "" else "（" ++ toString failed.length ++ " 个源失败）"

/-- The first words of the note of the built-in library, by which consumers recognise it. -/
def sampleMark : String := "内置示例资讯"

/-- The note of the built-in library. -/
def sampleNote : String :=
  sampleMark ++ "（尚未接入可用新闻源，可在「新闻中心」右上角添加 RSS 源）"

/-- `get_news(limit)`, with `sample` for `_sample_news()`. -/
def getNews (sample : List NewsItem) (attempts : List Attempt) (limit : ℕ := 30) : NewsList :=
  let live := fetched attempts
  let items := if live = [] then sample else live
  let unique := (uniqueTitles items []).mergeSort byRelevance
  { items := unique.take limit
    total := unique.length
    sourceNote := if live = [] then sampleNote else liveNote attempts
    tags := (unique.flatMap NewsItem.tags).dedup.mergeSort fun a b => a ≤ b }

/-! ### Filters -/

inductive Mood
  | pos
  | neg
  | neu
  deriving DecidableEq

inductive SortKey
  | relevance
  | sentiment
  | risk
  | time
  deriving DecidableEq

def Mood.admits (m : Mood) (it : NewsItem) : Bool :=
  match m with
  | .pos => 1 / 10 < it.sentiment
  | .neg => it.sentiment < -1 / 10
  | .neu => -1 / 10 ≤ it.sentiment ∧ it.sentiment ≤ 1 / 10

def SortKey.le (key : SortKey) (a b : NewsItem) : Bool :=
  match key with
  | .relevance => byRelevance a b
  | .sentiment => b.sentiment ≤ a.sentiment
  | .risk => a.sentiment ≤ b.sentiment
  | .time => (b.published.getD []).le (a.published.getD [])

/-- `filter_news`.  `lower` is `str.lower`; an empty `q` or `tag` filters nothing. -/
def filterNews (lower : Str → Str) (nl : NewsList) (q : String := "")
    (mood : Option Mood := none) (tag : String := "") (sort : SortKey := .relevance)
    (limit : ℕ := 30) : NewsList :=
  let ql := lower (Str.ofString q)
  let items := nl.items.filter fun it =>
    (q = "" || ql <:+: lower it.title || ql <:+: lower it.summary) &&
      (tag = "" || tag ∈ it.tags) && mood.all fun m => m.admits it
  { items := (items.mergeSort sort.le).take limit, total := items.length,
    sourceNote := nl.sourceNote, tags := nl.tags }

/-! ### The list through the cache -/

/-- `_fetch_news_cached`: the lookup reads the clock at `t₁`, the store at `t₂`. -/
def fetchNewsCached (sample : List NewsItem) (cache : TTLCache NewsList) (t₁ t₂ : ℚ)
    (attempts : List Attempt) : NewsList × TTLCache NewsList :=
  match cache.get "news" t₁ with
  | (some nl, cache) => (nl, cache)
  | (none, cache) =>
    let nl := getNews sample attempts 40
    (nl, cache.set "news" (some nl) (some 300) t₂)

/-- `cache.set("news", None, ttl=0)`. -/
def dropNews (cache : TTLCache NewsList) (now : ℚ) : TTLCache NewsList :=
  cache.set "news" none (some 0) now

/-! ### Where the items come from -/

theorem mem_of_mem_uniqueTitles {it : NewsItem} {items : List NewsItem} {seen : List Str}
    (h : it ∈ uniqueTitles items seen) : it ∈ items := by
  induction items generalizing seen with
  | nil => cases h
  | cons a items ih =>
    rw [uniqueTitles] at h
    split at h
    · exact List.mem_cons_of_mem a (ih h)
    · rcases List.mem_cons.1 h with rfl | h
      · exact List.mem_cons_self
      · exact List.mem_cons_of_mem a (ih h)

/-- Every item of the list was fetched, or nothing was fetched and it is from the built-in
library. -/
theorem mem_items_getNews {sample : List NewsItem} {attempts : List Attempt} {limit : ℕ}
    {it : NewsItem} (h : it ∈ (getNews sample attempts limit).items) :
    it ∈ fetched attempts ∨ (fetched attempts = [] ∧ it ∈ sample) := by
  have hu := mem_of_mem_uniqueTitles (List.mem_mergeSort.1 (List.mem_of_mem_take h))
  by_cases hl : fetched attempts = []
  · rw [if_pos hl] at hu
    exact .inr ⟨hl, hu⟩
  · rw [if_neg hl] at hu
    exact .inl hu

/-- `source_note.startswith("内置示例资讯")`. -/
def isSample (nl : NewsList) : Bool := sampleMark.toList <+: nl.sourceNote.toList

theorem not_sampleMark_liveNote (attempts : List Attempt) :
    ¬ sampleMark.toList <+: (liveNote attempts).toList := by
  intro h
  obtain ⟨rest, hr⟩ := h
  have hm : sampleMark.toList = ['内', '置', '示', '例', '资', '讯'] := by simp [sampleMark]
  have hl : "实时抓取：".toList = ['实', '时', '抓', '取', '：'] := by simp
  obtain ⟨tail, ht⟩ : ∃ tail, liveNote attempts = "实时抓取：" ++ tail :=
    ⟨_, String.append_assoc⟩
  -- the two notes differ in their first character
  rw [ht, String.toList_append, hm, hl] at hr
  simp at hr

/-- **The note marks the built-in library exactly when nothing was fetched.** -/
theorem isSample_getNews_iff (sample : List NewsItem) (attempts : List Attempt) (limit : ℕ) :
    isSample (getNews sample attempts limit) = true ↔ fetched attempts = [] := by
  by_cases hl : fetched attempts = []
  · simp only [isSample, getNews, hl, if_true, decide_eq_true_eq, iff_true, sampleNote,
      String.toList_append]
    exact List.prefix_append _ _
  · simp only [isSample, getNews, hl, if_false, decide_eq_true_eq, iff_false]
    exact not_sampleMark_liveNote attempts

theorem mem_of_mem_filterNews {lower : Str → Str} {nl : NewsList} {q tag : String}
    {mood : Option Mood} {sort : SortKey} {limit : ℕ} {it : NewsItem}
    (h : it ∈ (filterNews lower nl q mood tag sort limit).items) : it ∈ nl.items :=
  List.mem_of_mem_filter (List.mem_mergeSort.1 (List.mem_of_mem_take h))

/-! ### The cache along a run -/

/-- The operations on the cached list: a request that needs news, a change of the sources or a
forced analysis, and a refresh. -/
inductive NewsOp
  | fetch (sample : List NewsItem) (t₁ t₂ : ℚ) (attempts : List Attempt)
  | drop (now : ℚ)
  | refresh (sample : List NewsItem) (t₁ t₂ : ℚ) (attempts : List Attempt)

def stepNews (cache : TTLCache NewsList) : NewsOp → TTLCache NewsList
  | .fetch sample t₁ t₂ attempts => (fetchNewsCached sample cache t₁ t₂ attempts).2
  | .drop now => dropNews cache now
  | .refresh sample t₁ t₂ attempts =>
    (dropNews cache t₁).set "news" (some (getNews sample attempts 40)) (some 300) t₂

/-- The cache after a run. -/
def runNews (ops : List NewsOp) : TTLCache NewsList := KeyedCache.exec stepNews .empty ops

/-- The attempts a run made, whether or not their outcome was stored. -/
def attemptsOf (ops : List NewsOp) : List (List Attempt) :=
  ops.filterMap fun op =>
    match op with
    | .fetch _ _ _ attempts => some attempts
    | .drop _ => none
    | .refresh _ _ _ attempts => some attempts

/-- The stored list was merged from one of these attempts. -/
def Merged (tries : List (List Attempt)) (cache : TTLCache NewsList) : Prop :=
  ∀ nl expireAt, cache.store "news" = some (some nl, expireAt) →
    ∃ sample, ∃ attempts ∈ tries, nl = getNews sample attempts 40

theorem merged_set {tries : List (List Attempt)} {cache : TTLCache NewsList}
    {sample : List NewsItem} {attempts : List Attempt} {ttl : Option ℚ} {now : ℚ}
    (h : attempts ∈ tries) :
    Merged tries (cache.set "news" (some (getNews sample attempts 40)) ttl now) := by
  intro nl expireAt hs
  simp only [TTLCache.set, Function.update_self, Option.some.injEq, Prod.mk.injEq] at hs
  exact ⟨sample, attempts, h, hs.1.symm⟩

theorem merged_get {tries : List (List Attempt)} {cache : TTLCache NewsList} {now : ℚ}
    (h : Merged tries cache) : Merged tries (cache.get "news" now).2 :=
  fun nl expireAt hs => h nl expireAt (TTLCache.store_get hs)

/-- The list a request gets was merged from an attempt of the run or from its own. -/
theorem fetchNewsCached_merged {tries : List (List Attempt)} {cache : TTLCache NewsList}
    (sample : List NewsItem) (t₁ t₂ : ℚ) (attempts : List Attempt) (h : Merged tries cache) :
    (∃ sample', ∃ a ∈ tries ++ [attempts],
        (fetchNewsCached sample cache t₁ t₂ attempts).1 = getNews sample' a 40) ∧
      Merged (tries ++ [attempts]) (fetchNewsCached sample cache t₁ t₂ attempts).2 := by
  have hlast : attempts ∈ tries ++ [attempts] := List.mem_append_right _ (List.mem_singleton_self _)
  have hmono : Merged (tries ++ [attempts]) (cache.get "news" t₁).2 := by
    intro nl expireAt hs
    obtain ⟨sample', a, ha, hnl⟩ := merged_get h nl expireAt hs
    exact ⟨sample', a, List.mem_append_left _ ha, hnl⟩
  rcases hg : cache.get "news" t₁ with ⟨found, cache'⟩
  rw [hg] at hmono
  cases found with
  | none =>
    simp only [fetchNewsCached, hg]
    exact ⟨⟨sample, attempts, hlast, rfl⟩, merged_set hlast⟩
  | some nl =>
    simp only [fetchNewsCached, hg]
    obtain ⟨expireAt, hs⟩ := TTLCache.stored_of_get (c := cache) (by rw [hg])
    obtain ⟨sample', a, ha, hnl⟩ := h nl expireAt hs
    exact ⟨⟨sample', a, List.mem_append_left _ ha, hnl⟩, hmono⟩

theorem merged_step {tries : List (List Attempt)} {cache : TTLCache NewsList} (op : NewsOp)
    (h : Merged tries cache) : Merged (tries ++ attemptsOf [op]) (stepNews cache op) := by
  cases op with
  | fetch sample t₁ t₂ attempts => exact (fetchNewsCached_merged sample t₁ t₂ attempts h).2
  | drop now =>
    intro nl expireAt hs
    simp [stepNews, dropNews, TTLCache.set] at hs
  | refresh sample t₁ t₂ attempts =>
    have hlast : attempts ∈ tries ++ [attempts] :=
      List.mem_append_right _ (List.mem_singleton_self _)
    show Merged (tries ++ [attempts]) ((dropNews cache t₁).set "news"
      (some (getNews sample attempts 40)) (some 300) t₂)
    exact merged_set hlast

/-- **The list stored in a run was merged from an attempt of the run.** -/
theorem merged_run (ops : List NewsOp) : Merged (attemptsOf ops) (runNews ops) := by
  have hrun : ∀ (ops : List NewsOp) (tries : List (List Attempt)) (cache : TTLCache NewsList),
      Merged tries cache → Merged (tries ++ attemptsOf ops) (KeyedCache.exec stepNews cache ops) := by
    intro ops
    induction ops with
    | nil =>
      intro tries cache h
      rw [attemptsOf, List.filterMap_nil, List.append_nil]
      exact h
    | cons op ops ih =>
      intro tries cache h
      have := ih _ _ (merged_step op h)
      rw [List.append_assoc] at this
      have hsplit : attemptsOf (op :: ops) = attemptsOf [op] ++ attemptsOf ops := by
        rw [attemptsOf, attemptsOf, attemptsOf, ← List.filterMap_append]
        rfl
      rw [hsplit]
      exact this
  have hempty : Merged [] (TTLCache.empty : TTLCache NewsList) := by
    intro nl expireAt hs
    cases hs
  have := hrun ops [] .empty hempty
  rwa [List.nil_append] at this

end News

end QuantFlow
