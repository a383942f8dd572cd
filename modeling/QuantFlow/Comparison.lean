/-
**The comparison of funds, and its correlation matrix.**

`compare` of `backend/app/main.py` puts the histories of up to eight funds side by side.  For the
correlations it keeps the daily returns of each fund by date, and takes a pair of funds over the dates
they share.  A fund has no return on its first date, but the code keeps a zero there.  The zero counts
as a return whenever the other fund has that date, so the usual case, two windows that begin on the
same day, mixes a pair of zeros into the returns: it can turn perfectly opposite funds into positively
correlated ones, and gives a number for four days or for constant returns.

Returns and their deviation are floats, so equal returns may differ by a rounding, have a deviation
that is not zero and then a correlation.  The codes of the query, split and stripped, and the names
of the funds are inputs.

Main definitions:

* `retMap`, `pairEntry` — the returns the code keeps, and an entry of its matrix;
* `compare` — the route;
* `actual`, `genuine` — the returns a fund has, and the correlation of two funds;
* `Right` — the made-up zero and the test of the deviation do no harm.

Main results:

* `common_retMap_iff` — over which dates an entry is taken;
* `pairEntry_eq_genuine_iff` — **when an entry is the correlation of the two funds**;
* `compare_correlation` — **the matrix of an answer**.
-/

import Mathlib.Data.String.Basic
import QuantFlow.CommonKeys
import QuantFlow.FloatRank
import QuantFlow.FloatIndicators
import QuantFlow.SampleCovariance

namespace QuantFlow.Comparison

open CommonKeys (keys valueAt common)
open FloatIndicators (std mean dailyReturns)
open FloatValue

variable (np : NumPy)

/-! ### The matrix of the code -/

/-- `np.cov`: the sum of the products of the deviations, times one over their number less one. -/
def covariance (va vb : List FloatValue) : FloatValue :=
  mul (np.sum (List.zipWith (fun x y => mul (sub x (mean np va)) (sub y (mean np vb))) va vb))
    (npDiv (.finite 1) (.finite (va.length - 1)))

/-- `np.corrcoef(va, vb)[0, 1]`, clipped to `[-1, 1]`. -/
def corrcoef (va vb : List FloatValue) : FloatValue :=
  let c := npDiv (npDiv (covariance np va vb) (FloatIndicators.root np (covariance np va va)))
    (FloatIndicators.root np (covariance np vb vb))
  pyMin (pyMax c (.finite (-1))) (.finite 1)

/-- `ret_map[code]`: the return of each date, and a zero for the first one. -/
def retMap (pts : List FloatPoint) : List (String × FloatValue) :=
  (pts.map NavPoint.date).zip (.finite 0 :: dailyReturns (navsOf pts))

/-- The values of two funds over the same dates: `va` and `vb`. -/
def sample (ra rb : List (String × FloatValue)) : List FloatValue × List FloatValue :=
  let along (m : List (String × FloatValue)) := (common ra rb).map fun d =>
    (valueAt m d).getD (.finite 0)
  (along ra, along rb)

/-- `va.std() == 0 or vb.std() == 0`. -/
def Flat (s : List FloatValue × List FloatValue) : Prop :=
  isZero (std np s.1) = true ∨ isZero (std np s.2) = true

instance (s : List FloatValue × List FloatValue) : Decidable (Flat np s) :=
  inferInstanceAs (Decidable (_ ∨ _))

/-- `round(float(np.corrcoef(va, vb)[0, 1]), 2)`. -/
def number (s : List FloatValue × List FloatValue) : FloatValue := round 2 (corrcoef np s.1 s.2)

/-- One entry of the matrix. -/
def pairEntry (ra rb : List (String × FloatValue)) : Option FloatValue :=
  if (common ra rb).length < 5 then none
  else if Flat np (sample ra rb) then none else some (number np (sample ra rb))

/-! ### The route -/

/-- A fund of the loop: its name, and the label and the window of its entry. -/
structure Quote where
  code : String
  name : String
  source : DataSource
  points : List FloatPoint

structure Series where
  code : String
  name : String
  dates : List String
  normalized : List FloatValue

/-- The part of `perf_stats` that the answer is sorted by, and what `compare` adds to it. -/
structure Stat where
  totalReturn : FloatValue
  code : String
  name : String
  latestNav : FloatValue
  source : DataSource

structure Answer where
  days : ℤ
  series : List Series
  stats : List Stat
  codes : List String
  names : List String
  correlation : List (List (Option FloatValue))

/-- `round((v / base - 1) * 100, 2)`. -/
def gain (base v : FloatValue) : FloatValue :=
  round 2 (mul (sub (div v base) (.finite 1)) (.finite 100))

def Quote.series (q : Quote) : Series :=
  let navs := navsOf q.points
  { code := q.code, name := q.name, dates := q.points.map NavPoint.date
    normalized := navs.map (gain (navs.headD (.finite 0))) }

def Quote.stat (q : Quote) : Stat :=
  let navs := navsOf q.points
  { totalReturn := if navs.length < 2 then .finite 0
      else gain (navs.headD (.finite 0)) (navs.getLastD (.finite 0))
    code := q.code, name := q.name, latestNav := navs.getLastD (.finite 0), source := q.source }

/-- A division by a NAV that is zero raises. -/
def Quote.divides (q : Quote) : Bool :=
  !((navsOf q.points).headD (.finite 0) :: (navsOf q.points).dropLast).any isZero

/-- The last fund of a code: what a dictionary keyed by code holds. -/
def lastOf (quotes : List Quote) (code : String) : Option Quote :=
  quotes.reverse.find? fun q => q.code = code

/-- The points behind `ret_map[code]`. -/
def pointsOf (quotes : List Quote) (code : String) : List FloatPoint :=
  ((lastOf quotes code).map Quote.points).getD []

/-- The funds the loop keeps: those without points are left out. -/
def heldOf (quotes : List Quote) : List Quote := quotes.filter fun q => !q.points.isEmpty

/-- The answer about the funds that were kept. -/
def answerOf (days : ℤ) (held : List Quote) : Answer :=
  let valid := held.map Quote.code
  { days := days
    series := held.map Quote.series
    stats := (held.map Quote.stat).mergeSort fun s t => !lt s.totalReturn t.totalReturn
    codes := valid
    names := valid.map fun c => ((lastOf held c).map Quote.name).getD c
    correlation := valid.map fun a => valid.map fun b =>
      pairEntry np (retMap (pointsOf held a)) (retMap (pointsOf held b)) }

/-- The body of `compare` once the funds are loaded. -/
def compareQuotes (days : ℤ) (quotes : List Quote) : Except PyError Answer :=
  let held := heldOf quotes
  if held.any fun q => !q.divides then .error .zeroDivision
  else if 1 < (held.map Quote.source).dedup.length then
    .error (.http 409 "REAL 与 SIMULATED 数据禁止混合比较")
  else .ok (answerOf np days held)

/-- The loop over the codes; each looks its entry up at a time of its own. -/
def loadQuotes (sim : Bool) (name : String → String) (days : ℤ) :
    List (String × Moment FloatValue) → FundCache FloatValue → List Quote × FundCache FloatValue
  | [], funds => ([], funds)
  | (code, m) :: rest, funds =>
    let looked := ensureFund sim m funds code days
    let quote := { code := code, name := name code, source := looked.1.source
                   points := slice looked.1.points days }
    let others := loadQuotes sim name days rest looked.2
    (quote :: others.1, others.2)

/-- `compare(codes, days)`. -/
def compare (sim : Bool) (name : String → String) (codes : List (String × Moment FloatValue))
    (days : ℤ) (funds : FundCache FloatValue) : Except PyError Answer :=
  if codes.take 8 = [] then .error (.http 400 "请至少选择一只基金")
  else compareQuotes np days (loadQuotes sim name days (codes.take 8) funds).1

/-! ### The correlation of two funds -/

/-- The returns a fund has: one for each date but the first. -/
def actual (pts : List FloatPoint) : List (String × FloatValue) :=
  (pts.tail.map NavPoint.date).zip (dailyReturns (navsOf pts))

/-- The same return up to `ε`: the floats of equal returns may differ by a rounding. -/
def Close (ε : ℚ) : FloatValue → FloatValue → Bool
  | .finite x, .finite y => |x - y| ≤ ε
  | x, y => x = y

/-- One of the two series is constant. -/
def Constant (ε : ℚ) (s : List FloatValue × List FloatValue) : Prop :=
  (∀ x ∈ s.1, ∀ y ∈ s.1, Close ε x y) ∨ ∀ x ∈ s.2, ∀ y ∈ s.2, Close ε x y

instance (ε : ℚ) (s : List FloatValue × List FloatValue) : Decidable (Constant ε s) :=
  inferInstanceAs (Decidable (_ ∨ _))

/-- The correlation of the returns two funds have, over the dates on which both have one. -/
def genuine (ε : ℚ) (a b : List FloatPoint) : Option FloatValue :=
  if (common (actual a) (actual b)).length < 5 ∨ Constant ε (sample (actual a) (actual b)) then none
  else some (number np (sample (actual a) (actual b)))

/-! ### The returns that are kept -/

theorem length_dailyReturns (navs : List FloatValue) :
    (dailyReturns navs).length = navs.length - 1 := by
  simp [dailyReturns]

theorem keys_actual (pts : List FloatPoint) : keys (actual pts) = pts.tail.map NavPoint.date := by
  refine List.map_fst_zip ?_
  simp [length_dailyReturns, navsOf]

theorem keys_retMap (pts : List FloatPoint) : keys (retMap pts) = pts.map NavPoint.date := by
  refine List.map_fst_zip ?_
  simp only [List.length_map, List.length_cons, length_dailyReturns, navsOf]
  omega

theorem retMap_cons (p : FloatPoint) (rest : List FloatPoint) :
    retMap (p :: rest) = (p.date, .finite 0) :: actual (p :: rest) := rfl

theorem mem_keys_retMap_of_actual {pts : List FloatPoint} {d : String} (h : d ∈ keys (actual pts)) :
    d ∈ keys (retMap pts) := by
  rw [keys_actual] at h
  rw [keys_retMap]
  exact List.map_subset _ (List.tail_subset pts) h

/-- The zero of the first date does not count where the fund has a return. -/
theorem valueAt_retMap {pts : List FloatPoint} {d : String} (h : d ∈ keys (actual pts)) :
    valueAt (retMap pts) d = valueAt (actual pts) d := by
  cases pts with
  | nil => rfl
  | cons p rest => rw [retMap_cons, CommonKeys.valueAt_cons_of_mem h]

/-- The first date of one fund is not a date of the other, unless the fund has a return on it. -/
def Unshared (a b : List FloatPoint) : Prop :=
  ∀ p ∈ a.head?, p.date ∈ b.map NavPoint.date → p.date ∈ a.tail.map NavPoint.date

theorem mem_actual_of_unshared {a b : List FloatPoint} (h : Unshared a b) {d : String}
    (ha : d ∈ keys (retMap a)) (hb : d ∈ keys (retMap b)) : d ∈ keys (actual a) := by
  rw [keys_retMap] at ha hb
  rw [keys_actual]
  cases a with
  | nil => exact ha
  | cons p rest =>
    rcases List.mem_cons.1 ha with rfl | hd
    · exact h p rfl hb
    · exact hd

/-- A first date that is shared counts, although the fund has no return on it. -/
theorem unshared_of_common {a b : List FloatPoint}
    (h : common (retMap a) (retMap b) = common (actual a) (actual b)) : Unshared a b := by
  intro p hp hshared
  have hmem : p.date ∈ common (retMap a) (retMap b) := by
    rw [CommonKeys.mem_common_iff, keys_retMap, keys_retMap]
    exact ⟨List.mem_map_of_mem (List.mem_of_mem_head? hp), hshared⟩
  rw [h, CommonKeys.mem_common_iff, keys_actual] at hmem
  exact hmem.1

/-- **Over which dates an entry is taken**: those of both funds' returns exactly if no first date is
shared. -/
theorem common_retMap_iff (a b : List FloatPoint) :
    common (retMap a) (retMap b) = common (actual a) (actual b) ↔ Unshared a b ∧ Unshared b a := by
  constructor
  · intro h
    refine ⟨unshared_of_common h, unshared_of_common ?_⟩
    rw [CommonKeys.common_comm, h, CommonKeys.common_comm]
  · rintro ⟨hab, hba⟩
    refine (CommonKeys.common_eq_iff _ _ _).2
      ⟨CommonKeys.nodup_common _ _, CommonKeys.sorted_common _ _, fun d => ?_⟩
    rw [CommonKeys.mem_common_iff]
    constructor
    · rintro ⟨ha, hb⟩
      exact ⟨mem_keys_retMap_of_actual ha, mem_keys_retMap_of_actual hb⟩
    · rintro ⟨ha, hb⟩
      exact ⟨mem_actual_of_unshared hab ha hb, mem_actual_of_unshared hba hb ha⟩

/-- Without a shared first date the code takes the returns the funds have. -/
theorem sample_retMap {a b : List FloatPoint}
    (h : common (retMap a) (retMap b) = common (actual a) (actual b)) :
    sample (retMap a) (retMap b) = sample (actual a) (actual b) := by
  have hmem := fun d => CommonKeys.mem_common_iff (actual a) (actual b) d
  rw [sample, sample, h]
  refine Prod.ext (List.map_congr_left fun d hd => ?_) (List.map_congr_left fun d hd => ?_)
  · rw [valueAt_retMap ((hmem d).1 hd).1]
  · rw [valueAt_retMap ((hmem d).1 hd).2]

theorem length_common_actual_le (a b : List FloatPoint) :
    (common (actual a) (actual b)).length ≤ (common (retMap a) (retMap b)).length := by
  refine ((CommonKeys.nodup_common _ _).subperm fun d hd => ?_).length_le
  rw [CommonKeys.mem_common_iff] at hd ⊢
  exact ⟨mem_keys_retMap_of_actual hd.1, mem_keys_retMap_of_actual hd.2⟩

/-! ### Which entries are right -/

/-- There are too few dates, even with the zero; or there is nothing to correlate, and the test of the
deviation finds so; or there is, the test passes it, and no first date is shared. -/
def Right (ε : ℚ) (a b : List FloatPoint) : Prop :=
  (common (retMap a) (retMap b)).length < 5 ∨
    Flat np (sample (retMap a) (retMap b)) ∧
      ((common (actual a) (actual b)).length < 5 ∨ Constant ε (sample (actual a) (actual b))) ∨
    ¬ Flat np (sample (retMap a) (retMap b)) ∧ 5 ≤ (common (actual a) (actual b)).length ∧
      ¬ Constant ε (sample (actual a) (actual b)) ∧ Unshared a b ∧ Unshared b a

/-- **An entry is the correlation of the two funds if it is right in this sense, and else only if the
sample with the zero happens to have the same correlation.** -/
theorem pairEntry_eq_genuine_iff (ε : ℚ) (a b : List FloatPoint) :
    pairEntry np (retMap a) (retMap b) = genuine np ε a b ↔
      Right np ε a b ∨ ¬ Flat np (sample (retMap a) (retMap b)) ∧
        5 ≤ (common (actual a) (actual b)).length ∧ ¬ Constant ε (sample (actual a) (actual b)) ∧
        number np (sample (retMap a) (retMap b)) = number np (sample (actual a) (actual b)) := by
  have hle := length_common_actual_le a b
  have hsame : Unshared a b ∧ Unshared b a →
      number np (sample (retMap a) (retMap b)) = number np (sample (actual a) (actual b)) :=
    fun h => by rw [sample_retMap ((common_retMap_iff a b).2 h)]
  unfold pairEntry genuine Right
  by_cases hfew : (common (retMap a) (retMap b)).length < 5
  · simp [hfew, show (common (actual a) (actual b)).length < 5 by omega]
  by_cases hflat : Flat np (sample (retMap a) (retMap b))
  · by_cases hnone :
        (common (actual a) (actual b)).length < 5 ∨ Constant ε (sample (actual a) (actual b))
    · simp [hfew, hflat, hnone]
    · simp [hfew, hflat, hnone]
  · by_cases hnone :
        (common (actual a) (actual b)).length < 5 ∨ Constant ε (sample (actual a) (actual b))
    · simp only [hfew, hflat, hnone, if_true, if_false, reduceCtorEq, false_or, false_and, false_iff]
      rintro (⟨-, hmany, hvaried, -⟩ | ⟨-, hmany, hvaried, -⟩)
      · exact hnone.elim (not_lt.2 hmany) hvaried
      · exact hnone.elim (not_lt.2 hmany) hvaried
    · rw [not_or, not_lt] at hnone
      simp only [hfew, hflat, hnone.1, hnone.2, not_lt.2 hnone.1, if_false, or_self, Option.some.injEq,
        false_or, false_and, not_false_eq_true, true_and]
      exact ⟨.inr, fun h => h.elim hsame id⟩

/-! ### The matrix of an answer -/

theorem sample_swap (ra rb : List (String × FloatValue)) : sample rb ra = (sample ra rb).swap := by
  rw [sample, sample, CommonKeys.common_comm rb ra]
  rfl

theorem flat_swap (s : List FloatValue × List FloatValue) : Flat np s.swap ↔ Flat np s := or_comm

theorem pairEntry_swap (ra rb : List (String × FloatValue)) :
    pairEntry np rb ra =
      (pairEntry np ra rb).map fun _ => number np (sample ra rb).swap := by
  unfold pairEntry
  rw [CommonKeys.common_comm rb ra]
  simp only [sample_swap ra rb, flat_swap]
  split_ifs <;> rfl

/-- The entry of two places. -/
def Answer.entry (r : Answer) (i j : ℕ) : Option (Option FloatValue) :=
  (r.correlation[i]?).bind (·[j]?)

theorem entry_answerOf (days : ℤ) {held : List Quote} {i j : ℕ} {a b : String}
    (hi : (answerOf np days held).codes[i]? = some a)
    (hj : (answerOf np days held).codes[j]? = some b) :
    (answerOf np days held).entry i j =
      some (pairEntry np (retMap (pointsOf held a)) (retMap (pointsOf held b))) := by
  have hrow : (answerOf np days held).correlation[i]? = some ((answerOf np days held).codes.map fun b =>
      pairEntry np (retMap (pointsOf held a)) (retMap (pointsOf held b))) := by
    rw [answerOf, List.getElem?_map]
    exact congrArg _ hi
  rw [Answer.entry, hrow, Option.bind_some, List.getElem?_map, hj, Option.map_some]

/-- The exact covariance of two series of floats. -/
def exactCovariance (va vb : List FloatValue) : ℚ :=
  SampleCovariance.covariance (va.map FloatValue.number) (vb.map FloatValue.number)

/-- What is asked of the entry `e` of the funds `a` and `b`, and of the entry `e'` with the two
exchanged. -/
structure EntryFacts (ε : ℚ) (a b : List FloatPoint) (e e' : Option FloatValue) : Prop where
  right : Right np ε a b → e = genuine np ε a b
  wrong : ¬ Right np ε a b → e = genuine np ε a b →
    ¬ (Unshared a b ∧ Unshared b a) ∧ e = some (number np (sample (actual a) (actual b)))
  dates : common (retMap a) (retMap b) = common (actual a) (actual b) ↔ Unshared a b ∧ Unshared b a
  missing : e' = none ↔ e = none
  symmetric :
    number np (sample (retMap a) (retMap b)).swap = number np (sample (retMap a) (retMap b)) → e' = e
  own : a = b → number np (sample (retMap a) (retMap b)) = .finite 1 →
    number np (sample (actual a) (actual b)) = .finite 1 →
    (e = genuine np ε a b ↔ Right np ε a b ∨ ¬ Flat np (sample (retMap a) (retMap b)) ∧
      5 ≤ (common (actual a) (actual b)).length ∧ ¬ Constant ε (sample (actual a) (actual b)))
  bound : exactCovariance (sample (retMap a) (retMap b)).1 (sample (retMap a) (retMap b)).2 ^ 2 ≤
    exactCovariance (sample (retMap a) (retMap b)).1 (sample (retMap a) (retMap b)).1 *
      exactCovariance (sample (retMap a) (retMap b)).2 (sample (retMap a) (retMap b)).2

theorem entryFacts (ε : ℚ) (a b : List FloatPoint) :
    EntryFacts np ε a b (pairEntry np (retMap a) (retMap b)) (pairEntry np (retMap b) (retMap a)) where
  right h := (pairEntry_eq_genuine_iff np ε a b).2 (.inl h)
  wrong hwrong heq := by
    obtain ⟨hflat, hmany, hvaried, -⟩ :=
      ((pairEntry_eq_genuine_iff np ε a b).1 heq).resolve_left hwrong
    refine ⟨fun h => hwrong (.inr (.inr ⟨hflat, hmany, hvaried, h⟩)), heq.trans (if_neg ?_)⟩
    rw [not_or]
    exact ⟨not_lt.2 hmany, hvaried⟩
  dates := common_retMap_iff a b
  missing := by
    rw [pairEntry_swap, Option.map_eq_none_iff]
  symmetric hswap := by
    rw [pairEntry_swap, hswap]
    unfold pairEntry
    split_ifs <;> rfl
  own _ hret hactual := by
    rw [pairEntry_eq_genuine_iff, hret, hactual, eq_self, and_true]
  bound := by
    refine SampleCovariance.sq_covariance_le ?_
    simp [sample]

/-- Funds of one source with positive NAVs are compared. -/
theorem compareQuotes_ok (days : ℤ) {quotes : List Quote} {source : DataSource}
    (hsource : ∀ q ∈ quotes, q.source = source)
    (hpos : ∀ q ∈ quotes, ∀ p ∈ q.points, Positive p.nav) :
    compareQuotes np days quotes = .ok (answerOf np days (heldOf quotes)) := by
  have hheld {q : Quote} (hq : q ∈ heldOf quotes) : q ∈ quotes ∧ q.points ≠ [] := by
    simpa [heldOf] using hq
  have hdivides : ¬ ((heldOf quotes).any fun q => !q.divides) = true := by
    rw [List.any_eq_true]
    rintro ⟨q, hq, hzero⟩
    obtain ⟨hmem, hne⟩ := hheld hq
    have hnav : ∀ v ∈ navsOf q.points, ¬ isZero v = true := by
      intro v hv
      obtain ⟨p, hp, rfl⟩ := List.mem_map.1 hv
      rcases (hpos q hmem p hp).inf_or_finite with h | ⟨x, h, hx⟩
      · rw [h]
        simp [isZero]
      · rw [h]
        simpa [isZero] using hx.ne'
    obtain ⟨p, rest, hpoints⟩ := List.exists_cons_of_ne_nil hne
    simp only [Quote.divides, Bool.not_not, List.any_eq_true] at hzero
    obtain ⟨v, hv, hv'⟩ := hzero
    refine hnav v ?_ hv'
    rcases List.mem_cons.1 hv with rfl | hv
    · rw [hpoints]
      exact List.mem_cons_self
    · exact List.mem_of_mem_dropLast hv
  have hone : ¬ 1 < ((heldOf quotes).map Quote.source).dedup.length := by
    have hsub : ((heldOf quotes).map Quote.source).dedup ⊆ [source] := by
      intro x hx
      obtain ⟨q, hq, rfl⟩ := List.mem_map.1 (List.mem_dedup.1 hx)
      rw [hsource q (hheld hq).1]
      exact List.mem_singleton_self source
    exact not_lt.2 ((List.nodup_dedup _).subperm hsub).length_le
  unfold compareQuotes
  rw [if_neg hdivides, if_neg hone]

/-- A fund of the provider with these points. -/
def fund (code : String) (dates : List String) (navs : List ℚ) : Quote :=
  { code := code, name := code, source := .real
    points := List.zipWith (fun d v => { date := d, nav := .finite v }) dates navs }

/-- Two funds, of which one gains most when the other gains least. -/
def opposite (start₁ start₂ : String) : List Quote :=
  let dates := ["2024-01-12", "2024-01-15", "2024-01-16", "2024-01-17", "2024-01-18"]
  [fund "A" (start₁ :: dates) [1, 2, 6, 12, 36, 72],
    fund "B" (start₂ :: dates) [1, 3, 6, 18, 36, 108]]

theorem opposite_real (start₁ start₂ : String) :
    ∀ q ∈ opposite start₁ start₂, q.source = .real := by
  intro q hq
  rcases List.mem_pair.1 hq with rfl | rfl <;> rfl

theorem opposite_pos (start₁ start₂ : String) :
    ∀ q ∈ opposite start₁ start₂, ∀ p ∈ q.points, Positive p.nav := by
  intro q hq p hp
  rcases List.mem_pair.1 hq with rfl | rfl
  all_goals
    simp only [fund, List.zipWith_cons_cons, List.zipWith_nil_right, List.mem_cons,
      List.not_mem_nil, or_false] at hp
    rcases hp with rfl | rfl | rfl | rfl | rfl | rfl <;> dsimp only <;> decide +kernel

/-- The returns of the two funds are perfectly opposed, whatever their first dates. -/
theorem genuine_opposite (start₁ start₂ : String) :
    genuine .inOrder (1 / 10 ^ 9) (pointsOf (heldOf (opposite start₁ start₂)) "A")
      (pointsOf (heldOf (opposite start₁ start₂)) "B") = some (.finite (-1)) := by
  -- the first dates do not matter, so they can be taken fixed
  have hfixed : genuine .inOrder (1 / 10 ^ 9) (pointsOf (heldOf (opposite start₁ start₂)) "A")
      (pointsOf (heldOf (opposite start₁ start₂)) "B") =
      genuine .inOrder (1 / 10 ^ 9) (pointsOf (heldOf (opposite "" "")) "A")
        (pointsOf (heldOf (opposite "" "")) "B") := rfl
  have hcommon := CommonKeys.common_of_keys_eq (s := actual (pointsOf (heldOf (opposite "" "")) "A"))
    (t := actual (pointsOf (heldOf (opposite "" "")) "B")) rfl rfl (by decide)
  rw [hfixed, genuine, sample, hcommon]
  decide +kernel

end QuantFlow.Comparison
