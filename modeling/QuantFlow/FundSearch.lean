/-
**The search in the fund universe.**

`fund_universe.search` in `backend/app/fund_universe.py` puts each fund into the first of four
classes that fits: the query is its code, begins its code, occurs in its name, or occurs in its
abbreviation or pinyin.  The classes are listed in this order and the first `limit` funds are shown.
The loop over the universe stops as soon as the four classes together hold more than `6 * limit`
funds.

The funds read by then are known: the loop has seen the first `6 * limit + 1` hits and nothing of
the others.  A later hit is missed exactly when its class has not filled the shown places yet, as
`RankedHits.take_merged_eq_iff` says; what is shown of two funds of different classes differs,
since the classes but the last are decided by code and name.

The host's `str.lower` and `str.upper` are parameters.  The universe is the list `load_universe`
returns.

Main definitions:

* `classify` — the class of a fund;
* `searchLoop`, `search` — the loop with its early exit, and the search;
* `exhaustive` — the search without the early exit.

Main results:

* `merged_searchLoop` — the loop holds the classes of the first hits;
* `search_eq_exhaustive_iff` — **when the early exit does not change the answer**.
-/

import Mathlib.Data.Fintype.Defs
import QuantFlow.RankedHits
import QuantFlow.Watchlist

namespace QuantFlow.FundSearch

open Py (Str)
open Watchlist (strip orText)

/-! ### Funds and classes -/

/-- A fund of the universe. -/
structure Fund where
  code : Str
  name : Str
  type : Option Str := none
  abbr : Option Str := none
  pinyin : Option Str := none
  deriving DecidableEq

/-- `str.lower` and `str.upper`. -/
structure Letters where
  lower : Str → Str
  upper : Str → Str

/-- `part in text`. -/
def isIn (part text : Str) : Bool := text.tails.any fun rest => part.isPrefixOf rest

/-- The four lists of `search`, in the order in which they are shown. -/
inductive Hit
  | exact
  | codePre
  | nameHit
  | pyHit
  deriving DecidableEq

/-- The place of a class in that order. -/
def Hit.rank : Hit → ℕ
  | .exact => 0
  | .codePre => 1
  | .nameHit => 2
  | .pyHit => 3

def Hit.all : List Hit := [.exact, .codePre, .nameHit, .pyHit]

theorem Hit.mem_all (c : Hit) : c ∈ Hit.all := by
  cases c <;> decide

instance : Fintype Hit where
  elems := ⟨Hit.all, by decide⟩
  complete := Hit.mem_all

/-- The list a fund is appended to, if any. -/
def classify (host : Letters) (q : Str) (it : Fund) : Option Hit :=
  let ql := host.lower q
  let qu := host.upper q
  if it.code = q then some .exact
  else if q.isPrefixOf it.code then some .codePre
  else if isIn ql (host.lower it.name) then some .nameHit
  else if qu ≠ [] ∧ (isIn qu (orText it.abbr []) ∨ isIn qu (orText it.pinyin [])) then some .pyHit
  else none

/-! ### The loop -/

structure Buckets where
  exact : List Fund := []
  codePre : List Fund := []
  nameHit : List Fund := []
  pyHit : List Fund := []

def Buckets.append (b : Buckets) (it : Fund) : Hit → Buckets
  | .exact => { b with exact := b.exact ++ [it] }
  | .codePre => { b with codePre := b.codePre ++ [it] }
  | .nameHit => { b with nameHit := b.nameHit ++ [it] }
  | .pyHit => { b with pyHit := b.pyHit ++ [it] }

def Buckets.count (b : Buckets) : ℕ :=
  b.exact.length + b.codePre.length + b.nameHit.length + b.pyHit.length

/-- The loop of `search`: one fund is classified, then the count is compared with the bound. -/
def searchLoop (cls : Fund → Option Hit) (limit : ℤ) : List Fund → Buckets → Buckets
  | [], b => b
  | it :: items, b =>
    let b := ((cls it).map (b.append it)).getD b
    if limit * 6 < b.count then b else searchLoop cls limit items b

def Buckets.merged (b : Buckets) : List Fund := b.exact ++ b.codePre ++ b.nameHit ++ b.pyHit

/-- `xs[:limit]`. -/
def sliceTo {α : Type} (limit : ℤ) (xs : List α) : List α :=
  if 0 ≤ limit then xs.take limit.toNat else xs.take (xs.length - (-limit).toNat)

/-- An entry of the answer. -/
structure Found where
  code : Str
  name : Str
  type : Str
  deriving DecidableEq

def Fund.found (it : Fund) : Found :=
  { code := it.code, name := it.name, type := it.type.getD [] }

/-- `search(q, limit)` in a universe. -/
def search (host : Letters) (items : List Fund) (q : Str) (limit : ℤ) : List Found :=
  let q := strip q
  if q = [] then []
  else (sliceTo limit (searchLoop (classify host q) limit items {}).merged).map Fund.found

/-- The search that reads the whole universe. -/
def exhaustive (host : Letters) (items : List Fund) (q : Str) (limit : ℤ) : List Found :=
  (sliceTo limit (RankedHits.merged (classify host (strip q)) Hit.all items)).map Fund.found

/-! ### What the loop has read -/

section Loop

variable (cls : Fund → Option Hit)

/-- The funds that belong to a class. -/
def hits (items : List Fund) : List Fund := items.filter fun it => (cls it).isSome

def Buckets.get (b : Buckets) : Hit → List Fund
  | .exact => b.exact
  | .codePre => b.codePre
  | .nameHit => b.nameHit
  | .pyHit => b.pyHit

theorem Buckets.get_append (b : Buckets) (it : Fund) (c d : Hit) :
    (b.append it c).get d = b.get d ++ if c = d then [it] else [] := by
  cases c <;> cases d <;> simp [Buckets.append, Buckets.get]

theorem Buckets.count_append (b : Buckets) (it : Fund) (c : Hit) :
    (b.append it c).count = b.count + 1 := by
  cases c <;> simp [Buckets.append, Buckets.count] <;> omega

/-- **What the loop has read**: the classes of the hits up to the first that exceeds the bound. -/
theorem get_searchLoop {limit : ℤ} {n : ℕ} (hn : limit * 6 = n) (items : List Fund) (b : Buckets)
    (hb : b.count ≤ n) (d : Hit) :
    (searchLoop cls limit items b).get d =
      b.get d ++ RankedHits.bucket cls d ((hits cls items).take (n + 1 - b.count)) := by
  induction items generalizing b with
  | nil => simp [searchLoop, hits]
  | cons it items ih =>
    cases hcls : cls it with
    | none =>
      have hgo : ¬ limit * 6 < (b.count : ℤ) := by omega
      have hskip : hits cls (it :: items) = hits cls items := by simp [hits, hcls]
      simp only [searchLoop, hcls, Option.map_none, Option.getD_none, if_neg hgo, hskip]
      exact ih b hb
    | some c =>
      have htake : hits cls (it :: items) = it :: hits cls items := by simp [hits, hcls]
      have hfirst : RankedHits.bucket cls d [it] = if c = d then [it] else [] := by
        simp [RankedHits.bucket, hcls, List.filter_cons]
      simp only [searchLoop, hcls, Option.map_some, Option.getD_some, Buckets.count_append]
      rw [htake, show n + 1 - b.count = (n - b.count) + 1 by omega, List.take_succ_cons,
        ← List.singleton_append, RankedHits.bucket_append, hfirst, ← List.append_assoc,
        ← Buckets.get_append]
      split
      case isTrue hstop =>
        have hzero : n - b.count = 0 := by omega
        simp [hzero]
      case isFalse hgo =>
        have hcount : (b.append it c).count ≤ n := by
          rw [Buckets.count_append]
          omega
        rw [ih (b.append it c) hcount, Buckets.count_append,
          show n + 1 - (b.count + 1) = n - b.count by omega]

/-- The loop holds the classes of the first `6 * limit + 1` hits. -/
theorem merged_searchLoop {limit : ℤ} {n : ℕ} (hn : limit * 6 = n) (items : List Fund) :
    (searchLoop cls limit items {}).merged =
      RankedHits.merged cls Hit.all ((hits cls items).take (n + 1)) := by
  have hget := get_searchLoop cls hn items {} (Nat.zero_le n)
  have hmerged : ∀ b : Buckets, b.merged = Hit.all.flatMap b.get := by
    intro b
    simp [Buckets.merged, Hit.all, Buckets.get]
  rw [hmerged, RankedHits.merged]
  congr 1
  funext d
  rw [hget d]
  cases d <;> rfl

theorem merged_hits (cs : List Hit) (items : List Fund) :
    RankedHits.merged cls cs (hits cls items) = RankedHits.merged cls cs items := by
  rw [RankedHits.merged, RankedHits.merged]
  congr 1
  funext c
  rw [RankedHits.bucket, hits, List.filter_filter, RankedHits.bucket]
  apply List.filter_congr
  intro it _
  cases hcls : cls it with
  | none => simp
  | some d => simp

/-! ### The funds of a class or a better one -/

/-- The class of the fund comes no later than `c`. -/
def within (c : Hit) (it : Fund) : Bool := (cls it).any fun d => d.rank ≤ c.rank

theorem split_all {before after : List Hit} {c : Hit} (h : Hit.all = before ++ c :: after) :
    before ++ [c] = Hit.all.filter fun d => d.rank ≤ c.rank := by
  rw [Hit.all] at h
  rcases before with _ | ⟨_, _ | ⟨_, _ | ⟨_, _ | ⟨_, before⟩⟩⟩⟩
  · simp only [List.nil_append, List.cons.injEq] at h
    obtain ⟨rfl, -⟩ := h
    rfl
  · simp only [List.cons_append, List.nil_append, List.cons.injEq] at h
    obtain ⟨rfl, rfl, -⟩ := h
    rfl
  · simp only [List.cons_append, List.nil_append, List.cons.injEq] at h
    obtain ⟨rfl, rfl, rfl, -⟩ := h
    rfl
  · simp only [List.cons_append, List.nil_append, List.cons.injEq] at h
    obtain ⟨rfl, rfl, rfl, rfl, -⟩ := h
    rfl
  · simp at h

theorem exists_split_all (c : Hit) : ∃ before after, Hit.all = before ++ c :: after := by
  cases c with
  | exact => exact ⟨[], _, rfl⟩
  | codePre => exact ⟨[.exact], _, rfl⟩
  | nameHit => exact ⟨[.exact, .codePre], _, rfl⟩
  | pyHit => exact ⟨[.exact, .codePre, .nameHit], _, rfl⟩

/-- The classes up to `c`, one after the other, hold the funds of these classes. -/
theorem length_merged_within (c : Hit) (items : List Fund) :
    (RankedHits.merged cls (Hit.all.filter fun d => d.rank ≤ c.rank) items).length =
      items.countP (within cls c) := by
  rw [RankedHits.length_merged cls ((by decide : Hit.all.Nodup).filter _)]
  congr 1
  funext it
  simp [within, Hit.mem_all]

/-- When nothing of the rest belongs among the first places. -/
theorem settled_all_iff (read rest : List Fund) (n : ℕ) :
    RankedHits.Settled cls read rest Hit.all n ↔
      ∀ it ∈ rest, ∀ c, cls it = some c → n ≤ read.countP (within cls c) := by
  rw [RankedHits.settled_iff]
  constructor
  · intro hsettled it hit c hc
    obtain ⟨before, after, hsplit⟩ := exists_split_all c
    rw [← length_merged_within, ← split_all hsplit]
    refine hsettled before c after hsplit (List.ne_nil_of_mem (a := it) ?_)
    exact List.mem_filter.2 ⟨hit, by simpa using hc⟩
  · intro hrest before c after hsplit hleft
    obtain ⟨it, hit⟩ := List.exists_mem_of_ne_nil _ hleft
    rw [split_all hsplit, length_merged_within]
    exact hrest it (List.mem_filter.1 hit).1 c (RankedHits.cls_of_mem_bucket cls hit)

end Loop

/-! ### When the early exit shows -/

/-- The test of a class. -/
def applies (host : Letters) (q : Str) (it : Fund) : Hit → Bool
  | .exact => it.code = q
  | .codePre => q.isPrefixOf it.code
  | .nameHit => isIn (host.lower q) (host.lower it.name)
  | .pyHit => host.upper q ≠ [] ∧
      (isIn (host.upper q) (orText it.abbr []) ∨ isIn (host.upper q) (orText it.pinyin []))

/-- The class of a fund is the first whose test applies. -/
theorem classify_eq_find (host : Letters) (q : Str) (it : Fund) :
    classify host q it = Hit.all.find? (applies host q it) := by
  have hstep : ∀ c rest, (c :: rest).find? (applies host q it) =
      if applies host q it c then some c else rest.find? (applies host q it) := by
    intro c rest
    rw [List.find?_cons]
    split <;> simp_all
  rw [Hit.all, hstep, hstep, hstep, hstep, List.find?_nil]
  simp only [applies, decide_eq_true_eq]
  rfl

theorem applies_of_classify {host : Letters} {q : Str} {it : Fund} {c : Hit}
    (h : classify host q it = some c) :
    applies host q it c = true ∧
      ∀ b : Hit, b.rank < c.rank → applies host q it b = false := by
  rw [classify_eq_find, List.find?_eq_some_iff_append] at h
  obtain ⟨hc, before, after, hsplit, hbefore⟩ := h
  refine ⟨hc, fun b hb => ?_⟩
  have hmem : b ∈ before ++ [c] := by
    rw [split_all hsplit]
    exact List.mem_filter.2 ⟨Hit.mem_all b, decide_eq_true (Nat.le_of_lt hb)⟩
  rcases List.mem_append.1 hmem with hearlier | hsame
  · simpa using hbefore b hearlier
  · obtain rfl := List.mem_singleton.1 hsame
    exact absurd hb (Nat.lt_irrefl _)

/-- The tests but the last are decided by what is shown of a fund. -/
theorem applies_congr {host : Letters} {q : Str} {x y : Fund} (h : x.found = y.found) {c : Hit}
    (hc : c ≠ .pyHit) : applies host q x c = applies host q y c := by
  have hcode : x.code = y.code := congrArg Found.code h
  have hname : x.name = y.name := congrArg Found.name h
  cases c with
  | exact => simp only [applies, hcode]
  | codePre => simp only [applies, hcode]
  | nameHit => simp only [applies, hname]
  | pyHit => exact absurd rfl hc

/-- What is shown of funds of different classes differs. -/
theorem found_ne (host : Letters) (q : Str) :
    Hit.all.Pairwise fun c d => ∀ x y, classify host q x = some c → classify host q y = some d →
      x.found ≠ y.found := by
  have hranks : Hit.all.Pairwise fun c d => c ≠ .pyHit ∧ c.rank < d.rank := by decide
  refine hranks.imp fun {c d} hrank x y hx hy heq => ?_
  have happlies := (applies_of_classify hx).1
  rw [applies_congr heq hrank.1, (applies_of_classify hy).2 c hrank.2] at happlies
  exact Bool.false_ne_true happlies

theorem classify_nil_isSome (host : Letters) (it : Fund) : (classify host [] it).isSome := by
  by_cases hcode : it.code = []
  · simp [classify, hcode]
  · simp [classify, hcode]

theorem merged_all_ne_nil {host : Letters} {items : List Fund} (hne : items ≠ []) :
    RankedHits.merged (classify host []) Hit.all items ≠ [] := by
  obtain ⟨it, hit⟩ := List.exists_mem_of_ne_nil items hne
  obtain ⟨c, hc⟩ := Option.isSome_iff_exists.1 (classify_nil_isSome host it)
  refine List.ne_nil_of_mem (a := it) (List.mem_flatMap.2 ⟨c, Hit.mem_all c, ?_⟩)
  exact List.mem_filter.2 ⟨hit, by simpa using hc⟩

/-- **When the early exit does not change the answer.**  A blank query is answered before any fund
is read.  For any other, the answer is that of the exhaustive search exactly when each hit after the
first `6 * limit + 1` is of a class that, with the better ones, has filled the shown places within
these. -/
theorem search_eq_exhaustive_iff (host : Letters) (items : List Fund) (q : Str) {limit : ℤ}
    (hlimit : 1 ≤ limit) :
    let cls := classify host (strip q)
    let read := (hits cls items).take (limit * 6 + 1).toNat
    let unread := (hits cls items).drop (limit * 6 + 1).toNat
    (strip q = [] → search host items q limit = [] ∧
      (search host items q limit = exhaustive host items q limit ↔ items = [])) ∧
    (strip q ≠ [] → (search host items q limit = exhaustive host items q limit ↔
      ∀ it ∈ unread, ∀ c, cls it = some c → limit ≤ read.countP (within cls c))) := by
  intro cls read unread
  have hslice : ∀ xs : List Fund, sliceTo limit xs = xs.take limit.toNat := fun xs =>
    if_pos (by omega)
  constructor
  · intro hblank
    have hsearch : search host items q limit = [] := if_pos hblank
    refine ⟨hsearch, ?_⟩
    rw [hsearch, exhaustive, hslice, hblank, eq_comm, List.map_eq_nil_iff, List.take_eq_nil_iff,
      or_iff_right (by omega)]
    constructor
    · intro hnone
      by_contra hne
      exact merged_all_ne_nil hne hnone
    · rintro rfl
      rfl
  · intro hquery
    obtain ⟨n, hn⟩ : ∃ n : ℕ, limit * 6 = n := ⟨(limit * 6).toNat, by omega⟩
    have hreads : (limit * 6 + 1).toNat = n + 1 := by omega
    have hfull : RankedHits.merged cls Hit.all items =
        RankedHits.merged cls Hit.all (read ++ unread) := by
      rw [List.take_append_drop, merged_hits]
    have hshort : (searchLoop cls limit items {}).merged = RankedHits.merged cls Hit.all read := by
      rw [merged_searchLoop cls hn, ← hreads]
    have hsearch : search host items q limit = (sliceTo limit
        (searchLoop cls limit items {}).merged).map Fund.found := if_neg hquery
    rw [hsearch, hshort, exhaustive, hfull, hslice, hslice, List.map_take, List.map_take,
      RankedHits.take_merged_eq_iff cls Fund.found (found_ne host (strip q)), settled_all_iff]
    apply forall₂_congr
    intro it _
    apply forall₂_congr
    intro c _
    omega

/-- Texts whose letters have no case. -/
def caseless : Letters := { lower := id, upper := id }

def listed (code name : String) : Fund := { code := Str.ofString code, name := Str.ofString name }

/-- Seven funds that follow an index, and one whose code begins with its number. -/
def indexFunds : List Fund :=
  [listed "000051" "沪深300", listed "000176" "沪深300", listed "000311" "沪深300",
    listed "000312" "沪深300", listed "000613" "沪深300", listed "000656" "沪深300",
    listed "000961" "沪深300", listed "300001" "成长"]

/-- An eighth fund of the index comes too late, but behind a place that is filled. -/
theorem search_eq_exhaustive_iff_index :
    (hits (classify caseless (Str.ofString "沪")) (listed "001015" "沪深" :: indexFunds)).length = 8 ∧
      search caseless (listed "001015" "沪深" :: indexFunds) (Str.ofString "沪") 1 =
        exhaustive caseless (listed "001015" "沪深" :: indexFunds) (Str.ofString "沪") 1 := by
  have hanswer := (search_eq_exhaustive_iff caseless (listed "001015" "沪深" :: indexFunds)
    (Str.ofString "沪") (show (1 : ℤ) ≤ 1 by decide)).2 (by decide +kernel)
  exact ⟨by decide +kernel, hanswer.2 (by decide +kernel)⟩

/-- With one place to fill, the search stops at the seventh name and misses the code. -/
theorem code_missed :
    search caseless indexFunds (Str.ofString "300") 1 =
        [{ code := Str.ofString "000051", name := Str.ofString "沪深300", type := [] }] ∧
      exhaustive caseless indexFunds (Str.ofString "300") 1 =
        [{ code := Str.ofString "300001", name := Str.ofString "成长", type := [] }] := by
  decide +kernel

end QuantFlow.FundSearch
