/-
**A higher latest NAV never worsens the signal.**

The latest NAV `x` of a series enters the features of `Signals` in several places.  In
the trend it is compared with a mean of which it is itself a part: with `S` the sum of the nineteen
NAVs before it and `T` the sum of the last four of these, the two ratios are `20 x / (S + x)` and
`4 (T + x) / (S + x)`.  Both grow with `x`, because `0 ≤ T ≤ S`.  In the momentum it stands over
older NAVs only.  Clamping, rounding, the weighted sum and the thresholds keep the order.

Rounding is any monotone function.

Main definitions:

* `State.grade` — the order negative, neutral, positive.

Main results:

* `trendScore_mono`, `momentumScore_mono` — the two features grow with the latest NAV;
* `computeSignal_mono` — **so do the signal's scores and its state**.
-/

import Mathlib.Tactic.FieldSimp
import Mathlib.Algebra.Order.BigOperators.Group.List
import Mathlib.Data.List.GetD
import QuantFlow.Signals

namespace QuantFlow

/-! ### The end of a series -/

theorem lastN_append_singleton {α : Type} (k : ℕ) (xs : List α) (x : α) :
    lastN (k + 1) (xs ++ [x]) = lastN k xs ++ [x] := by
  have hdrop : (xs ++ [x]).length - (k + 1) = xs.length - k := by
    rw [List.length_append, List.length_singleton]
    omega
  rw [lastN, lastN, hdrop, List.drop_append_of_le_length (Nat.sub_le _ _)]

theorem fromEnd_append_singleton (xs : List ℚ) (x : ℚ) : fromEnd (xs ++ [x]) 1 = x := by
  simp [fromEnd]

theorem fromEnd_succ_append {k : ℕ} {xs : List ℚ} (hk : 1 ≤ k) (h : k ≤ xs.length) (x : ℚ) :
    fromEnd (xs ++ [x]) (k + 1) = fromEnd xs k := by
  have hplace : (xs ++ [x]).length - (k + 1) = xs.length - k := by
    rw [List.length_append, List.length_singleton]
    omega
  rw [fromEnd, fromEnd, hplace, List.getD_append _ _ _ _ (by omega)]

theorem fromEnd_pos {k : ℕ} {xs : List ℚ} (hpos : ∀ v ∈ xs, 0 < v) (hk : 1 ≤ k)
    (h : k ≤ xs.length) : 0 < fromEnd xs k := by
  rw [fromEnd, List.getD_eq_getElem _ _ (by omega)]
  exact hpos _ (List.getElem_mem _)

/-- The mean of the last entries when one of them is named. -/
theorem mean_lastN_append {k : ℕ} {xs : List ℚ} (h : k ≤ xs.length) (x : ℚ) :
    Indicators.mean (lastN (k + 1) (xs ++ [x])) = ((lastN k xs).sum + x) / (k + 1) := by
  rw [Indicators.mean, lastN_append_singleton, List.sum_append, List.sum_singleton,
    List.length_append, length_lastN h, List.length_singleton]
  push_cast
  rfl

theorem sum_lastN_nonneg {xs : List ℚ} (hpos : ∀ v ∈ xs, 0 < v) (k : ℕ) :
    0 ≤ (lastN k xs).sum :=
  List.sum_nonneg fun v hv => (hpos v (List.mem_of_mem_drop hv)).le

/-- Fewer of the last entries have a smaller sum. -/
theorem sum_lastN_mono {xs : List ℚ} (hpos : ∀ v ∈ xs, 0 < v) {j k : ℕ} (h : j ≤ k) :
    (lastN j xs).sum ≤ (lastN k xs).sum := by
  have hsub : (lastN j xs).Sublist (lastN k xs) :=
    (List.drop_sublist_drop_left xs (by omega))
  exact hsub.sum_le_sum fun v hv => (hpos v (List.mem_of_mem_drop hv)).le

namespace Signals

variable {N : Numerics}

/-! ### The features -/

/-- Adding the same to the two sides of a ratio below one brings it nearer to one. -/
theorem add_div_add_mono {s t x y : ℚ} (hts : t ≤ s) (hx : 0 < s + x) (hxy : x ≤ y) :
    (t + x) / (s + x) ≤ (t + y) / (s + y) := by
  rw [div_le_div_iff₀ hx (by linarith)]
  have hgap : 0 ≤ (s - t) * (y - x) := mul_nonneg (by linarith) (by linarith)
  linarith

theorem toScore_mono (hround : Monotone (N.round 2)) : Monotone (toScore N) := by
  intro a b hab
  exact hround (min_le_min le_rfl (max_le_max le_rfl hab))

section Latest

variable {earlier : List ℚ} (hpos : ∀ v ∈ earlier, 0 < v) (hlen : 19 ≤ earlier.length)
include hpos hlen

/-- The trend of a series with its latest NAV named. -/
theorem trendScore_append {x : ℚ} (hx : 0 < x) :
    trendScore N (earlier ++ [x]) = .ok (toScore N (50 +
      600 * (20 * ((0 + x) / ((lastN 19 earlier).sum + x)) - 1) +
      300 * (4 * (((lastN 4 earlier).sum + x) / ((lastN 19 earlier).sum + x)) - 1))) := by
  have hsum : 0 < (lastN 19 earlier).sum + x :=
    add_pos_of_nonneg_of_pos (sum_lastN_nonneg hpos 19) hx
  have hma5 := mean_lastN_append (show 4 ≤ earlier.length by omega) x
  have hma20 := mean_lastN_append hlen x
  have hlong : ¬ (earlier ++ [x]).length < 20 := by
    rw [List.length_append, List.length_singleton]
    omega
  norm_num only at hma5 hma20
  rw [trendScore, if_neg hlong]
  simp only [fromEnd_append_singleton, hma5, hma20]
  rw [if_neg (by positivity)]
  congr 3
  · field_simp
    ring
  · field_simp
    ring

theorem trendScore_mono (hround : Monotone (N.round 2)) {x y : ℚ} (hx : 0 < x) (hxy : x ≤ y) :
    ∃ t t', trendScore N (earlier ++ [x]) = .ok t ∧ trendScore N (earlier ++ [y]) = .ok t' ∧
      t ≤ t' := by
  refine ⟨_, _, trendScore_append hpos hlen hx,
    trendScore_append hpos hlen (hx.trans_le hxy), toScore_mono hround ?_⟩
  have hs := sum_lastN_nonneg hpos 19
  have hsum : 0 < (lastN 19 earlier).sum + x := add_pos_of_nonneg_of_pos hs hx
  have hlatest := add_div_add_mono hs hsum hxy
  have hma5 := add_div_add_mono (sum_lastN_mono hpos (show 4 ≤ 19 by omega)) hsum hxy
  linarith

/-- The momentum compares the latest NAV with two older ones, the same one twice when the series
has twenty points. -/
theorem momentumScore_append : ∃ old older, 0 < old ∧ 0 < older ∧ ∀ x,
    momentumScore N (earlier ++ [x]) =
      toScore N (50 + 350 * (x / old - 1) + 180 * (x / older - 1)) := by
  have hold : 0 < fromEnd earlier 5 := fromEnd_pos hpos (by omega) (by omega)
  have h6 : ∀ x, fromEnd (earlier ++ [x]) 6 = fromEnd earlier 5 :=
    fun x => fromEnd_succ_append (by omega) (by omega) x
  have hguard : ∀ x, ¬ ((earlier ++ [x]).length < 6 ∨ fromEnd (earlier ++ [x]) 6 = 0) := by
    rintro x (hshort | hzero)
    · rw [List.length_append, List.length_singleton] at hshort
      omega
    · exact hold.ne' (h6 x ▸ hzero)
  by_cases h20 : 20 ≤ earlier.length
  · have holder : 0 < fromEnd earlier 20 := fromEnd_pos hpos (by omega) h20
    refine ⟨fromEnd earlier 5, fromEnd earlier 20, hold, holder, fun x => ?_⟩
    have h21 : fromEnd (earlier ++ [x]) 21 = fromEnd earlier 20 :=
      fromEnd_succ_append (by omega) h20 x
    have hlong : 21 ≤ (earlier ++ [x]).length ∧ fromEnd (earlier ++ [x]) 21 ≠ 0 := by
      rw [List.length_append, List.length_singleton, h21]
      exact ⟨by omega, holder.ne'⟩
    rw [momentumScore, if_neg (hguard x)]
    dsimp only
    rw [if_pos hlong, fromEnd_append_singleton, h6, h21]
  · refine ⟨fromEnd earlier 5, fromEnd earlier 5, hold, hold, fun x => ?_⟩
    have hshort : ¬ (21 ≤ (earlier ++ [x]).length ∧ fromEnd (earlier ++ [x]) 21 ≠ 0) := by
      rintro ⟨hlong, -⟩
      rw [List.length_append, List.length_singleton] at hlong
      omega
    rw [momentumScore, if_neg (hguard x)]
    dsimp only
    rw [if_neg hshort, fromEnd_append_singleton, h6]

theorem momentumScore_mono (hround : Monotone (N.round 2)) {x y : ℚ} (hxy : x ≤ y) :
    momentumScore N (earlier ++ [x]) ≤ momentumScore N (earlier ++ [y]) := by
  obtain ⟨old, older, hold, holder, hscore⟩ := momentumScore_append (N := N) hpos hlen
  rw [hscore, hscore]
  apply toScore_mono hround
  have hshort : x / old ≤ y / old := by gcongr
  have hlong : x / older ≤ y / older := by gcongr
  linarith

end Latest

/-! ### The signal -/

/-- The place of a state in the order negative, neutral, positive. -/
def State.grade : State → Option ℕ
  | .negative => some 0
  | .neutral => some 1
  | .positive => some 2
  | .unavailable => none

theorem grade_combine (ts ms ss rs : ℚ) {overall : ℚ}
    (h : (combine N ts ms ss rs).overallScore = some overall) :
    (combine N ts ms ss rs).state.grade =
      some (if 60 ≤ overall then 2 else if overall ≤ 40 then 0 else 1) := by
  obtain rfl : N.round 2 (45 / 100 * ts + 35 / 100 * ms + 20 / 100 * ss) = overall :=
    Option.some.inj h
  simp only [combine]
  split
  · rfl
  · split <;> rfl

theorem threshold_mono {a b : ℚ} (hab : a ≤ b) :
    (if 60 ≤ a then 2 else if a ≤ 40 then 0 else 1) ≤
      (if 60 ≤ b then 2 else if b ≤ 40 then 0 else 1) := by
  split_ifs <;> first | omega | linarith

/-- **A higher latest NAV never worsens the signal.**  With the latest NAV of a REAL series of at
least twenty positive NAVs replaced by a larger one, the trend, the momentum and the overall score
do not decrease, and the state does not move down. -/
theorem computeSignal_mono (hround : Monotone (N.round 2)) {earlier : List ℚ} {x y : ℚ}
    (hlen : 20 ≤ (earlier ++ [x]).length) (hpos : ∀ v ∈ earlier ++ [x], 0 < v) (hxy : x < y)
    (values : List ℚ) :
    ∃ res res' t t' m m' o o' g g',
      computeSignal N (earlier ++ [x]) values .real = .ok res ∧
      computeSignal N (earlier ++ [y]) values .real = .ok res' ∧
      (res.trendScore = some t ∧ res'.trendScore = some t' ∧ t ≤ t') ∧
      (res.momentumScore = some m ∧ res'.momentumScore = some m' ∧ m ≤ m') ∧
      (res.overallScore = some o ∧ res'.overallScore = some o' ∧ o ≤ o') ∧
      (res.state.grade = some g ∧ res'.state.grade = some g' ∧ g ≤ g') := by
  have hlen' : 19 ≤ earlier.length := by
    rw [List.length_append, List.length_singleton] at hlen
    omega
  have hpos' : ∀ v ∈ earlier, 0 < v := fun v hv => hpos v (List.mem_append_left [x] hv)
  have hx : 0 < x := hpos x (by simp)
  obtain ⟨t, t', ht, ht', htle⟩ := trendScore_mono hpos' hlen' hround hx hxy.le
  have hmle := momentumScore_mono hpos' hlen' hround hxy.le
  have hsignal : ∀ z s, trendScore N (earlier ++ [z]) = .ok s →
      computeSignal N (earlier ++ [z]) values .real =
        .ok (combine N s (momentumScore N (earlier ++ [z])) (sentimentScore N values)
          (riskScore N (earlier ++ [z]))) := by
    intro z s hs
    have hlong : ¬ (earlier ++ [z]).length < 20 := by
      rw [List.length_append, List.length_singleton]
      omega
    rw [computeSignal, if_neg (by simp [permitsResearch]), if_neg hlong, hs]
    rfl
  have hole : N.round 2 (45 / 100 * t + 35 / 100 * momentumScore N (earlier ++ [x]) +
        20 / 100 * sentimentScore N values) ≤
      N.round 2 (45 / 100 * t' + 35 / 100 * momentumScore N (earlier ++ [y]) +
        20 / 100 * sentimentScore N values) := hround (by linarith)
  exact ⟨_, _, t, t', _, _, _, _, _, _, hsignal x t ht, hsignal y t' ht', ⟨rfl, rfl, htle⟩,
    ⟨rfl, rfl, hmle⟩, ⟨rfl, rfl, hole⟩,
    ⟨grade_combine _ _ _ _ rfl, grade_combine _ _ _ _ rfl, threshold_mono hole⟩⟩

/-- The latest of twenty NAVs rises. -/
theorem computeSignal_mono_rise :
    20 ≤ (List.replicate 19 (1 : ℚ) ++ [1]).length ∧
      ∃ res res' g g',
        computeSignal Numerics.runnable (List.replicate 19 1 ++ [1]) [] .real = .ok res ∧
        computeSignal Numerics.runnable (List.replicate 19 1 ++ [2]) [] .real = .ok res' ∧
        res.state.grade = some g ∧ res'.state.grade = some g' ∧ g ≤ g' := by
  have hmono := computeSignal_mono (N := Numerics.runnable) (Decimal.roundTo_mono 2)
    (show 20 ≤ (List.replicate 19 (1 : ℚ) ++ [1]).length by decide) (by decide +kernel)
    (show (1 : ℚ) < 2 by norm_num) []
  obtain ⟨res, res', -, -, -, -, -, -, g, g', hres, hres', -, -, -, hg⟩ := hmono
  exact ⟨by decide, res, res', g, g', hres, hres', hg⟩

end Signals

end QuantFlow
