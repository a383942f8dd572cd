/-
**What an item of news is scored by.**

`backend/app/news.py` makes an item of a title, a link, a date and a summary.  The relevance counts the
keywords that occur in the text, some of them twice, up to ten; the sentiment is the balance of the
words of two lists, from -1 to 1; the tags are the first five keywords that occur.  All three look at
the text as it was fetched, while the title and the summary that are shown have had their character
references resolved.  The schema takes any text, and for the date text or nothing.

Lower case, the resolution of character references and the encoding of a query are functions of the
host.

Main definitions:

* `relevance`, `sentiment`, `tagsOf` — the scores;
* `mk` — an item, or the schema's refusal;
* `sampleNews` — the built-in library.

Main results:

* `scored_mk`, `scored_sampleNews` — **every item is scored within the bounds**.
-/

import Mathlib.Tactic.FieldSimp
import QuantFlow.Indicators
import QuantFlow.News
import QuantFlow.Patterns

namespace QuantFlow.News

open Patterns
open Py (Str Json)

/-- Functions of the host on texts: `str.lower`, `html.unescape` and `urllib.parse.quote`. -/
structure Texts where
  lower : Str → Str
  unescape : Str → Str
  quote : Str → Str

variable (N : Numerics) (X : Texts)

/-! ### Scores -/

/-- `config.NEWS_KEYWORDS`. -/
def newsKeywords : List String :=
  ["CPO", "光模块", "算力", "人工智能", "AI", "半导体", "芯片", "5G",
   "通信", "数字经济", "数据中心", "英伟达", "液冷", "服务器", "机器人"]

/-- `keywords or config.NEWS_KEYWORDS`. -/
def keywordsOr (keywords : Option (List String)) : List String :=
  match keywords with
  | none => newsKeywords
  | some [] => newsKeywords
  | some (kw :: kws) => kw :: kws

/-- `kw.lower() in text.lower()`. -/
def hits (text : Str) (kw : String) : Bool := X.lower (Str.ofString kw) <:+: X.lower text

/-- The weight of a keyword in `_relevance`. -/
def weight (kw : String) : ℚ :=
  if X.lower (Str.ofString kw) ∈ [Str.ofString "cpo", Str.ofString "光模块", Str.ofString "算力"]
  then 2 else 1

/-- `_relevance(text, keywords)`. -/
def relevance (text : Str) (keywords : Option (List String)) : ℚ :=
  min ((keywordsOr keywords).foldl
    (fun score kw => if hits X text kw then score + weight X kw else score) 0) 10

/-- `POSITIVE`. -/
def positiveWords : List String :=
  ["涨", "利好", "增长", "突破", "超预期", "上调", "看好", "受益",
   "订单", "扩产", "创新高", "大增", "回暖", "签约", "中标", "放量"]

/-- `NEGATIVE`. -/
def negativeWords : List String :=
  ["跌", "利空", "下滑", "亏损", "下调", "风险", "制裁", "减持",
   "跌破", "暴雷", "收紧", "承压", "回调", "终止", "诉讼", "库存"]

/-- `text.count(w)`: occurrences that do not overlap. -/
def occurrences (text w : Str) : ℕ :=
  ((scan (fun t => if begins (· == ·) w t then some ((), w.length) else none) 0 text).filter
    Sum.isRight).length

/-- `sum(text.count(w) for w in words)`. -/
def tally (text : Str) (words : List String) : ℕ :=
  (words.map fun w => occurrences text (Str.ofString w)).sum

/-- `_sentiment(text)`. -/
def sentiment (text : Str) : ℚ :=
  let pos := tally text positiveWords
  let neg := tally text negativeWords
  if pos + neg = 0 then 0 else N.round 2 (((pos : ℚ) - neg) / (pos + neg : ℕ))

/-- `_tags(text, keywords)`. -/
def tagsOf (text : Str) (keywords : Option (List String)) : List String :=
  ((keywordsOr keywords).filter (hits X text)).take 5

/-! ### Items -/

/-- The schema's check of `published`: text, or nothing. -/
def dateField : Json → Option (Option Str)
  | .null => some none
  | .str s => some (some s)
  | _ => none

/-- `_mk(title, link, source, published, summary, keywords)`; `none` if the schema refuses it. -/
def mk (title link : Str) (source : String) (published : Json) (summary : Str)
    (keywords : Option (List String)) : Option NewsItem := do
  let text := title ++ Str.ofString " " ++ summary
  let date ← dateField published
  some
    { title := X.unescape title, link := if link = [] then Str.ofString "#" else link,
      source := source, published := date, summary := (X.unescape summary).take 200,
      relevance := relevance X text keywords, sentiment := sentiment N text,
      tags := tagsOf X text keywords }

/-! ### The built-in library -/

/-- The titles and summaries of `_sample_news`. -/
def samples : List (String × String) :=
  [("算力需求爆发，CPO光模块龙头订单饱满排产至明年", "多家云厂商上调资本开支，1.6T光模块渗透率加速，产业链景气度持续上行。"),
   ("英伟达新一代AI芯片量产，带动光模块配套需求", "新一代GPU对高速互联要求提升，CPO（共封装光学）成为主流技术路线。"),
   ("半导体板块异动，设备材料国产化提速", "wafer厂扩产叠加国产替代，半导体设备订单同比高增。"),
   ("工信部：加快算力网络与数据中心绿色化建设", "政策加码智算中心，液冷、服务器、光模块迎来增量市场。"),
   ("某5G通信ETF获资金净流入，机构看好通信估值修复", "通信板块估值处于历史低位，光模块业绩兑现驱动修复行情。"),
   ("AI应用端活跃，机器人板块受关注", "人形机器人量产预期升温，相关TMT基金净值弹性增强。"),
   ("风险提示：海外制裁升级或扰动半导体供应链", "部分标的出口受限，短期波动加大，建议控制仓位。"),
   ("基金二季报披露：多只科技基金加仓算力产业链", "主动权益基金集中配置CPO、半导体，抱团趋势延续。"),
   ("数据中心液冷渗透率提升，相关概念股走强", "高功耗AI服务器推动液冷方案普及，产业链公司订单可见度提升。"),
   ("机构观点：科技成长仍是中期主线，但需警惕估值分化", "建议均衡配置，逢回调分批布局具备业绩支撑的标的。"),
   ("北向资金今日净买入科技板块超20亿元", "外资回流成长股，半导体、通信设备获重点加仓。"),
   ("某芯片公司发布超预期业绩，毛利率创历史新高", "AI相关收入占比提升，盈利能力显著改善。")]

/-- `_search_link(title, tags)`. -/
def searchLink (title : Str) (tags : List String) : Str :=
  Str.ofString "https://so.eastmoney.com/news/s?keyword=" ++
    X.quote (match tags with
      | [] => title.take 8
      | tag :: _ => Str.ofString tag)

/-- The item of one sample; `published` is the formatted time. -/
def sampleItem (published : String) (title summary : String) : NewsItem :=
  let text := Str.ofString title ++ Str.ofString summary
  let tags := tagsOf X text none
  { title := Str.ofString title
    link := searchLink X (Str.ofString title) tags
    source := "示例数据(内置)"
    published := some (Str.ofString published)
    summary := Str.ofString summary
    relevance := relevance X text none
    sentiment := sentiment N text
    tags := tags }

/-- `_sample_news()`; `published i` is the formatted time of `i` times two hours ago. -/
def sampleNews (published : ℕ → String) : List NewsItem :=
  (samples.mapIdx fun i s => sampleItem N X (published i) s.1 s.2).mergeSort
    fun a b => b.relevance ≤ a.relevance

/-! ### Bounds -/

/-- The scores of an item are within their bounds. -/
structure NewsItem.Scored (it : NewsItem) : Prop where
  relevance_nonneg : 0 ≤ it.relevance
  relevance_le : it.relevance ≤ 10
  sentiment_ge : -1 ≤ it.sentiment
  sentiment_le : it.sentiment ≤ 1
  few_tags : it.tags.length ≤ 5

/-- Rounding to two places keeps what lies between -1 and 1 there. -/
structure UnitRounding : Prop where
  mono : Monotone (N.round 2)
  one : N.round 2 1 = 1
  neg_one : N.round 2 (-1) = -1

theorem UnitRounding.mem {N : Numerics} (hN : UnitRounding N) {x : ℚ} (hlo : -1 ≤ x) (hhi : x ≤ 1) :
    -1 ≤ N.round 2 x ∧ N.round 2 x ≤ 1 := by
  constructor
  · rw [← hN.neg_one]
    exact hN.mono hlo
  · rw [← hN.one]
    exact hN.mono hhi

theorem unitRounding_python (pow : ℚ → ℚ → ℚ) (sqrt : ℚ → ℚ) :
    UnitRounding (.python pow sqrt) := by
  refine ⟨Decimal.roundTo_mono 2, ?_, ?_⟩
  · exact_mod_cast Decimal.roundTo_intCast 2 1
  · exact_mod_cast Decimal.roundTo_intCast 2 (-1)

theorem weight_pos (kw : String) : 0 < weight X kw := by
  unfold weight
  split <;> norm_num

theorem relevance_mem (text : Str) (keywords : Option (List String)) :
    0 ≤ relevance X text keywords ∧ relevance X text keywords ≤ 10 := by
  refine ⟨le_min ?_ (by norm_num), min_le_right _ _⟩
  -- the score never falls along the keywords
  suffices hgen : ∀ (kws : List String) (score : ℚ), 0 ≤ score → 0 ≤ kws.foldl
      (fun score kw => if hits X text kw then score + weight X kw else score) score from
    hgen _ 0 le_rfl
  intro kws
  induction kws with
  | nil => exact fun score h => h
  | cons kw kws ih =>
    intro score h
    refine ih _ ?_
    dsimp only
    split
    · exact add_nonneg h (weight_pos X kw).le
    · exact h

variable {N}

theorem sentiment_mem (hN : UnitRounding N) (text : Str) :
    -1 ≤ sentiment N text ∧ sentiment N text ≤ 1 := by
  simp only [sentiment]
  generalize tally text positiveWords = pos
  generalize tally text negativeWords = neg
  split
  · norm_num
  · rename_i htotal
    have hpos : (0 : ℚ) < (pos + neg : ℕ) := by exact_mod_cast Nat.pos_of_ne_zero htotal
    have hcast : ((pos + neg : ℕ) : ℚ) = pos + neg := by push_cast; rfl
    have hp : (0 : ℚ) ≤ pos := Nat.cast_nonneg pos
    have hn : (0 : ℚ) ≤ neg := Nat.cast_nonneg neg
    refine hN.mem ?_ ?_
    · rw [le_div_iff₀ hpos, hcast]
      linarith
    · rw [div_le_one hpos, hcast]
      linarith

/-- The scores of an item are those of a text. -/
def ScoredBy (N : Numerics) (it : NewsItem) (text : Str) (keywords : Option (List String)) : Prop :=
  it.relevance = relevance X text keywords ∧ it.sentiment = sentiment N text ∧
    it.tags = tagsOf X text keywords

theorem ScoredBy.scored {it : NewsItem} {text : Str} {keywords : Option (List String)}
    (h : ScoredBy X N it text keywords) (hN : UnitRounding N) : it.Scored := by
  obtain ⟨hrelevance, hsentiment, htags⟩ := h
  have hr := relevance_mem X text keywords
  have hs := sentiment_mem hN text
  rw [← hrelevance] at hr
  rw [← hsentiment] at hs
  refine ⟨hr.1, hr.2, hs.1, hs.2, ?_⟩
  rw [htags]
  exact List.length_take_le 5 _

theorem scoredBy_mk {title link : Str} {source : String} {published : Json} {summary : Str}
    {keywords : Option (List String)} {it : NewsItem}
    (h : mk N X title link source published summary keywords = some it) :
    ScoredBy X N it (title ++ Str.ofString " " ++ summary) keywords := by
  simp only [mk, Option.bind_eq_bind, Option.bind_eq_some_iff, Option.some.injEq] at h
  obtain ⟨date, -, rfl⟩ := h
  simp only [ScoredBy, and_self]

/-- **Every item that the schema takes is scored within the bounds.** -/
theorem scored_mk (hN : UnitRounding N) {title link : Str} {source : String} {published : Json}
    {summary : Str} {keywords : Option (List String)} {it : NewsItem}
    (h : mk N X title link source published summary keywords = some it) : it.Scored :=
  (scoredBy_mk X h).scored X hN

/-- **Every item of the built-in library is scored within the bounds.** -/
theorem scored_sampleNews (hN : UnitRounding N) {published : ℕ → String} {it : NewsItem}
    (h : it ∈ sampleNews N X published) : it.Scored := by
  rw [sampleNews, List.mem_mergeSort, List.mem_mapIdx] at h
  obtain ⟨i, hi, rfl⟩ := h
  generalize samples[i] = s
  have hby : ScoredBy X N (sampleItem N X (published i) s.1 s.2)
      (Str.ofString s.1 ++ Str.ofString s.2) none := by
    simp only [ScoredBy, sampleItem, and_self]
  exact hby.scored X hN

end QuantFlow.News
