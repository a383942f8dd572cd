/-
**Every configured source is accounted for, if there are at most six.**

`news.get_news` goes through the built-in sources of `config.NEWS_SOURCES` and those the user has
added, but only through the first six of them.  With the five built-in ones the second source a user
adds is never asked: it is neither named in the note nor counted as failed, and the built-in library
is shown even if that source has news.  The rest of what is asked of the list holds for any number of
sources, of those that were asked.

Main definitions:

* `newsSources`, `allSources` — the configured sources;
* `attempts` — the sources, each with what fetching it gives;
* `MergedFrom`, `Accounts` — what is asked of the list.

Main results:

* `mergedFrom_unique` — the first item of each title, in order of relevance;
* `accounts_iff` — **every source is accounted for exactly when there are at most six**.
-/

import QuantFlow.News
import QuantFlow.Paging

namespace QuantFlow.News

/-! ### The configured sources -/

/-- An entry of `config.NEWS_SOURCES` or of the file of user sources. -/
structure SourceConfig where
  type : Option String
  name : Option String
  url : String
  keywords : Option (List String) := none
  jsonMap : Option (List (String × String)) := none

def builtin (name url : String) (keywords : List String) : SourceConfig :=
  { type := some "rss", name := some name, url := url, keywords := some keywords }

/-- `config.NEWS_SOURCES`. -/
def newsSources : List SourceConfig :=
  [builtin "量子位(AI)" "https://www.qbitai.com/feed"
      ["人工智能", "AI", "大模型", "算力", "芯片", "机器人", "半导体", "自动驾驶"],
    builtin "钛媒体" "https://www.tmtpost.com/rss.xml"
      ["科技", "AI", "半导体", "新能源", "数字经济", "算力", "互联网"],
    builtin "少数派" "https://sspai.com/feed" ["科技", "数码", "AI", "软件", "效率", "智能"],
    builtin "英为财情(市场)" "https://cn.investing.com/rss/news.rss"
      ["股市", "基金", "A股", "港股", "美股", "美联储", "黄金", "汇率", "央行", "通胀"],
    builtin "雷锋网" "https://www.leiphone.com/feed"
      ["人工智能", "AI", "机器人", "芯片", "半导体", "自动驾驶", "智能硬件", "算力", "新能源"]]

/-- `_all_sources()`. -/
def allSources (configured user : List SourceConfig) : List SourceConfig := configured ++ user

/-- `_fetch_api` and `_fetch_rss`: what the `n`-th call gives, or (`none`) that it raises. -/
structure Fetcher where
  api : ℕ → String → String → List (String × String) → Option (List String) → Option (List NewsItem)
  rss : ℕ → String → String → Option (List String) → Option (List NewsItem)

/-- One turn of the loop over the sources. -/
def fetchSource (f : Fetcher) (n : ℕ) (src : SourceConfig) : Option (List NewsItem) :=
  if src.type = some "api" then
    f.api n src.url (src.name.getD "API") (src.jsonMap.getD []) src.keywords
  else f.rss n src.url (src.name.getD "RSS") src.keywords

/-- The sources, each with what fetching it gives. -/
def attempts (f : Fetcher) (sources : List SourceConfig) : List Attempt :=
  sources.mapIdx fun n src =>
    { source := { name := src.name, url := src.url }, got := fetchSource f n src }

@[simp] theorem length_attempts (f : Fetcher) (sources : List SourceConfig) :
    (attempts f sources).length = sources.length := List.length_mapIdx

/-! ### One item of each title -/

theorem uniqueTitles_eq_keepFirst (items out : List NewsItem) (seen : List Py.Str)
    (hseen : ∀ title, title ∈ seen ↔ title ∈ out.map NewsItem.title) :
    out ++ uniqueTitles items seen = Paging.keepFirst NewsItem.title out items := by
  induction items generalizing out seen with
  | nil => simp [uniqueTitles, Paging.keepFirst]
  | cons it items ih =>
    rw [uniqueTitles, Paging.keepFirst]
    by_cases hit : it.title ∈ seen
    · rw [if_pos hit, if_pos ((hseen _).1 hit)]
      exact ih out seen hseen
    · rw [if_neg hit, if_neg fun h => hit ((hseen _).2 h), List.append_cons]
      refine ih (out ++ [it]) (it.title :: seen) fun title => ?_
      rw [List.mem_cons, hseen, List.map_append, List.map_singleton, List.mem_append,
        List.mem_singleton, or_comm]

theorem uniqueTitles_nil_eq (items : List NewsItem) :
    uniqueTitles items [] = Paging.keepFirst NewsItem.title [] items :=
  uniqueTitles_eq_keepFirst items [] [] fun _ => Iff.rfl

/-- The first item of each title, by relevance and sentiment, the highest first. -/
structure MergedFrom (pool merged : List NewsItem) : Prop where
  titles : (merged.map NewsItem.title).Nodup
  firsts : ∀ it, it ∈ merged ↔ Paging.IsFirst NewsItem.title pool it
  sorted : merged.Pairwise fun a b => byRelevance a b = true
  length : merged.length = (pool.map NewsItem.title).dedup.length

theorem byRelevance_trans (a b c : NewsItem) (hab : byRelevance a b = true)
    (hbc : byRelevance b c = true) : byRelevance a c = true := by
  simp only [byRelevance, decide_eq_true_eq] at hab hbc ⊢
  grind

theorem byRelevance_total (a b : NewsItem) : (byRelevance a b || byRelevance b a) = true := by
  simp only [byRelevance, Bool.or_eq_true, decide_eq_true_eq]
  grind

theorem mergedFrom_unique (pool : List NewsItem) :
    MergedFrom pool ((uniqueTitles pool []).mergeSort byRelevance) := by
  have hperm := List.mergeSort_perm (uniqueTitles pool []) byRelevance
  constructor
  · refine (hperm.map NewsItem.title).nodup_iff.2 ?_
    rw [uniqueTitles_nil_eq]
    exact Paging.nodup_keepFirst _ (by simp)
  · intro it
    rw [hperm.mem_iff, uniqueTitles_nil_eq, Paging.mem_keepFirst_iff]
    simp
  · exact List.pairwise_mergeSort byRelevance_trans byRelevance_total _
  · rw [hperm.length_eq, uniqueTitles_nil_eq, Paging.length_keepFirst]

/-! ### Every source accounted for -/

/-- The note of fetched news: the sources that gave some, and how many gave none. -/
def noteText (ok : List String) (failed : ℕ) : String :=
  "实时抓取：" ++ "、".intercalate ok ++
    if failed = 0 then "" else "（" ++ toString failed ++ " 个源失败）"

/-- What is asked of a list: each source was asked once; if one gave items, each is named in the note
or counted as failed there; the list has the first item of each title; and the built-in library is
used exactly if no source gave an item. -/
structure Accounts (sample : List NewsItem) (limit : ℕ) (all made : List Attempt) (nl : NewsList) :
    Prop where
  once : made.map Attempt.source = all.map Attempt.source
  counted : (∃ a ∈ all, a.items ≠ []) → ∃ ok failed : List Attempt, (ok ++ failed).Perm all ∧
    (∀ a ∈ ok, a.items ≠ []) ∧ (∀ a ∈ failed, a.items = []) ∧
    nl.sourceNote = noteText (ok.map fun a => a.source.label) failed.length
  merged : ∃ merged,
    MergedFrom (if ∀ a ∈ all, a.items = [] then sample else all.flatMap Attempt.items) merged ∧
      nl.items = merged.take limit ∧ nl.total = merged.length
  sampled : isSample nl = true ↔ ∀ a ∈ all, a.items = []

theorem fetched_eq_nil_iff (all : List Attempt) :
    fetched all = [] ↔ ∀ a ∈ tried all, a.items = [] := List.flatMap_eq_nil_iff

theorem liveNote_eq_noteText (all : List Attempt) :
    liveNote all = noteText (((tried all).filter fun a => a.items ≠ []).map fun a => a.source.label)
      ((tried all).filter fun a => a.items = []).length := by
  dsimp only [liveNote, noteText]
  by_cases hnone : ((tried all).filter fun a => a.items = []) = []
  · rw [if_pos hnone, if_pos (List.length_eq_zero_iff.2 hnone)]
  · rw [if_neg hnone, if_neg fun h => hnone (List.length_eq_zero_iff.1 h)]

/-- Of the sources that are asked everything holds that is asked of all. -/
theorem accounts_tried (sample : List NewsItem) (limit : ℕ) (all : List Attempt) :
    Accounts sample limit (tried all) (tried all) (getNews sample all limit) := by
  refine ⟨rfl, ?_, ?_, ?_⟩
  · rintro ⟨a, ha, hitems⟩
    have hlive : fetched all ≠ [] := fun h => hitems ((fetched_eq_nil_iff all).1 h a ha)
    refine ⟨_, _, ?_, ?_, ?_, (if_neg hlive).trans (liveNote_eq_noteText all)⟩
    · have hparts := List.filter_append_perm (fun a : Attempt => a.items ≠ []) (tried all)
      simpa using hparts
    · intro b hb
      exact of_decide_eq_true (List.mem_filter.1 hb).2
    · intro b hb
      exact of_decide_eq_true (List.mem_filter.1 hb).2
  · refine ⟨_, ?_, rfl, rfl⟩
    by_cases hlive : fetched all = []
    · rw [if_pos hlive, if_pos ((fetched_eq_nil_iff all).1 hlive)]
      exact mergedFrom_unique sample
    · rw [if_neg hlive, if_neg fun h => hlive ((fetched_eq_nil_iff all).2 h)]
      exact mergedFrom_unique _
  · rw [isSample_getNews_iff, fetched_eq_nil_iff]

/-- **Every source is accounted for exactly when there are at most six.** -/
theorem accounts_iff (f : Fetcher) (sample : List NewsItem) (configured user : List SourceConfig)
    (limit : ℕ) :
    Accounts sample limit (attempts f (allSources configured user))
        (tried (attempts f (allSources configured user)))
        (getNews sample (attempts f (allSources configured user)) limit) ↔
      (allSources configured user).length ≤ 6 := by
  constructor
  · intro h
    have hlength := congrArg List.length h.once
    rw [List.length_map, List.length_map, tried, List.length_take, length_attempts] at hlength
    omega
  · intro hfew
    have htried : tried (attempts f (allSources configured user)) =
        attempts f (allSources configured user) := by
      refine List.take_of_length_le ?_
      rwa [length_attempts]
    have haccounts := accounts_tried sample limit (attempts f (allSources configured user))
    rwa [htried] at haccounts ⊢

/-! Two sources added to the built-in ones, of which the second has news. -/

def added (name url : String) : SourceConfig :=
  { type := some "rss", name := some name, url := url }

def userSources : List SourceConfig := [added "甲" "a.xml", added "乙" "b.xml"]

def headline : NewsItem :=
  { title := .ofString "光模块订单大增", link := .ofString "b.xml", source := "乙" }

/-- Only the last source answers. -/
def lastAnswers : Fetcher :=
  { api := fun _ _ _ _ _ => none
    rss := fun _ url _ _ => if url = "b.xml" then some [headline] else none }

/-- The seventh source is not asked, and the built-in library is shown although it has news. -/
theorem seventh_source_unasked :
    let all := attempts lastAnswers (allSources newsSources userSources)
    (∃ a ∈ all, a.items = [headline]) ∧ (tried all).length = 6 ∧
      isSample (getNews [] all) = true ∧ ¬ Accounts [] 30 all (tried all) (getNews [] all) := by
  have hitem : { source := { name := some "乙", url := "b.xml" }, got := some [headline] } ∈
      attempts lastAnswers (allSources newsSources userSources) :=
    List.mem_of_getElem? (i := 6) rfl
  have hsample : isSample (getNews [] (attempts lastAnswers (allSources newsSources userSources))) =
      true := by
    rw [isSample_getNews_iff]
    decide
  refine ⟨⟨_, hitem, rfl⟩, by decide, hsample, fun h => ?_⟩
  exact absurd (h.sampled.1 hsample _ hitem) (by decide)

end QuantFlow.News
