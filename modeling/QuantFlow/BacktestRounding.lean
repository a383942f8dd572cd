/-
**What a day of the loop does to the equity.**

The loop of `run` multiplies the equity by the growth of the NAV while the fund is held, by the daily
management fee and by the charge of an order, rounds the product to six decimal places and goes on
from the rounded value.  Two things follow that the exact product would not show.

* The management fee is a factor of every day, also of a day that begins and ends without a
  position.  The fee leaves the equity alone only if it is so small that one less it is one.
* A product of at most half a millionth is rounded to zero, a return next to -1 is a total loss, and
  from zero the equity never returns.  How many millionths a day must begin with so that the rest of
  the run is survived can be told from the NAVs, the fees and the signals, from the last day back to
  the first; the run begins with a million.

Main definitions:

* `dayMaps` — what each day makes of an equity;
* `needed` — the millionths that the days need at the beginning;
* `IdleDay` — a day that begins and ends without a position.

Main results:

* `equity_eq_scanl` — the equity is what the days make of one;
* `equity_pos_iff` — **when the equity stays positive**;
* `idle_equity_iff` — **when it stands still out of the market**.
-/

import QuantFlow.FloatBacktest
import QuantFlow.Thresholds

namespace QuantFlow

namespace Backtest

/-- The bounds of the GET route on the fees. -/
structure Fees.InBounds (fees : Fees) : Prop where
  feeBps : 0 ≤ fees.feeBps ∧ fees.feeBps ≤ 200
  subscriptionFee : 0 ≤ fees.subscriptionFee ∧ fees.subscriptionFee ≤ 1 / 10
  redemptionFee : 0 ≤ fees.redemptionFee ∧ fees.redemptionFee ≤ 1 / 10
  managementFee : 0 ≤ fees.managementFee ∧ fees.managementFee ≤ 1 / 10
  transactionCost : 0 ≤ fees.transactionCost ∧ fees.transactionCost ≤ 1 / 10

end Backtest

namespace FloatBacktest

open FloatValue
open Binary64 (nearest)
open Backtest (Strategy Fees Day days clampShort clampLong)

/-! ### The factors of a day -/

section Factors

variable {fees : Fees} {prev nav : FloatValue}

theorem one_lt_range : (1 : ℚ) < 2 ^ 1024 := one_lt_pow₀ one_lt_two (by norm_num)

theorem fl_one : fl 1 = .finite 1 :=
  fl_of_nearest_eq Binary64.nearest_one (by rw [abs_one]; exact one_lt_range)

theorem fl_zero : fl 0 = .finite 0 := by decide +kernel

theorem nonnegOrNan_mul {a b : FloatValue} (ha : NonnegOrNan a) (hb : NonnegOrNan b) :
    NonnegOrNan (mul a b) := by
  rcases ha with rfl | ha
  · exact .inl rfl
  rcases hb with rfl | hb
  · exact .inl (by cases a <;> rfl)
  rcases ha.inf_or_finite with rfl | ⟨p, rfl, hp⟩
  · rcases hb.inf_or_finite with rfl | ⟨q, rfl, hq⟩
    · exact .inr rfl
    · by_cases hzero : q = 0
      · exact .inl (by simp [mul, hzero])
      · exact .inr (by simp [mul, hzero, Nonneg, not_lt.2 hq])
  · rcases hb.inf_or_finite with rfl | ⟨q, rfl, hq⟩
    · by_cases hzero : p = 0
      · exact .inl (by simp [mul, hzero])
      · exact .inr (by simp [mul, hzero, Nonneg, not_lt.2 hp])
    · exact .inr (nonneg_fl (mul_nonneg hp hq))

theorem nonneg_one_sub {d : ℚ} (h : d ≤ 1) : Nonneg (sub (.finite 1) (.finite d)) :=
  nonneg_fl (by linarith)

/-- A return, of which nothing is less than a total loss. -/
theorem return_cases (hprev : Positive prev) (hnav : Positive nav) :
    sub (div nav prev) (.finite 1) = .nan ∨ sub (div nav prev) (.finite 1) = .inf false ∨
      ∃ y, sub (div nav prev) (.finite 1) = .finite y ∧ -1 ≤ y ∧ nearest y = y := by
  have hnonneg : ∀ {v : FloatValue}, Positive v → NonnegOrNan v := by
    intro v hv
    rcases hv.inf_or_finite with rfl | ⟨q, rfl, hq⟩
    · exact .inr rfl
    · exact .inr hq.le
  rcases nonnegOrNan_div (hnonneg hnav) (hnonneg hprev) with h | h
  · exact .inl (by rw [h]; rfl)
  rcases h.inf_or_finite with h | ⟨x, h, hx⟩
  · exact .inr (.inl (by rw [h]; rfl))
  rw [h, sub, neg, add, fl]
  have hloss : -1 ≤ nearest (x + -1) := by
    have hmono := Binary64.nearest_mono (show -1 ≤ x + -1 by linarith)
    rwa [Binary64.nearest_neg, Binary64.nearest_one] at hmono
  split_ifs with hlarge
  · refine .inr (.inl ?_)
    rw [decide_eq_false]
    intro hneg
    have hsmall : |nearest (x + -1)| ≤ 1 := abs_le.2 ⟨hloss, by
      linarith [Binary64.nearest_nonpos hneg.le]⟩
    exact absurd (hlarge.trans hsmall) (not_le.2 one_lt_range)
  · exact .inr (.inr ⟨_, rfl, hloss, Binary64.nearest_nearest _⟩)

theorem nonnegOrNan_growth (hprev : Positive prev) (hnav : Positive nav) {holding : ℤ}
    (hholding : holding = 0 ∨ holding = 1) : NonnegOrNan (growth holding prev nav) := by
  unfold growth
  rcases return_cases hprev hnav with h | h | ⟨y, h, hy, hfloat⟩
  · exact .inl (by rw [h]; rfl)
  · rw [h]
    rcases hholding with rfl | rfl
    · exact .inl rfl
    · exact .inr rfl
  · rw [h]
    rcases hholding with rfl | rfl
    · rw [mul, Int.cast_zero, mul_zero, fl_zero]
      exact .inr (nonneg_fl (by norm_num))
    · rw [mul, Int.cast_one, mul_one, fl]
      split_ifs with hlarge
      · rw [decide_eq_false]
        · exact .inr rfl
        · intro hneg
          rw [hfloat, abs_of_neg hneg] at hlarge
          exact absurd (hlarge.trans (neg_le.1 hy)) (not_le.2 one_lt_range)
      · rw [hfloat]
        exact .inr (nonneg_fl (by linarith))

/-- A finite value from zero to `b`. -/
def UpTo (b : ℚ) (v : FloatValue) : Prop := ∃ y, v = .finite y ∧ 0 ≤ y ∧ y ≤ b

theorem upTo_fl {x b : ℚ} (hb : nearest b = b) (hone : b ≤ 1) (hx : 0 ≤ x) (h : x ≤ b) :
    UpTo b (fl x) := by
  obtain ⟨y, hy, hbound⟩ := fl_bounded hb (hone.trans_lt one_lt_range) (by rwa [abs_of_nonneg hx])
  have hnonneg := nonneg_fl hx
  rw [hy] at hnonneg
  exact ⟨y, hy, hnonneg, (le_abs_self y).trans hbound⟩

theorem pyMax_zero {x : ℚ} (h : 0 ≤ x) : pyMax (.finite 0) (.finite x) = .finite x := by
  rw [pyMax]
  split_ifs with hlt
  · rfl
  · rw [le_antisymm (not_lt.1 fun hpos => hlt (decide_eq_true hpos)) h]

theorem daily_upTo (hfees : fees.InBounds) : UpTo (1 / 2048) (daily fees) := by
  obtain ⟨hlow, hhigh⟩ := hfees.managementFee
  rw [daily, pyMax_zero hlow]
  exact upTo_fl (by decide +kernel) (by norm_num) (by positivity) (by linarith)

theorem nonneg_one_sub_daily (hfees : fees.InBounds) : Nonneg (sub (.finite 1) (daily fees)) := by
  obtain ⟨d, hd, -, hle⟩ := daily_upTo hfees
  rw [hd]
  exact nonneg_one_sub (hle.trans (by norm_num))

theorem nonnegOrNan_one_sub_oneTime (fees : Fees) (target : ℤ) :
    NonnegOrNan (sub (.finite 1) (oneTime fees target)) := by
  obtain ⟨c, hc, habs⟩ := fl_bounded Binary64.nearest_one one_lt_range
    (show |(99 / 100 : ℚ)| ≤ 1 by rw [abs_of_pos] <;> norm_num)
  have hle : c ≤ 1 := (le_abs_self c).trans habs
  simp only [oneTime, hc]
  rcases nonnegOrNan_pyMax_zero (add (transaction fees)
    (.finite (if target = 1 then fees.subscriptionFee else fees.redemptionFee))) with h | h
  · exact .inl (by rw [h]; rfl)
  rcases h.inf_or_finite with h | ⟨x, h, hx⟩
  · rw [h]
    exact .inr (nonneg_one_sub hle)
  · rw [h, pyMin]
    split_ifs with hlt
    · exact .inr (nonneg_one_sub hle)
    · exact .inr (nonneg_one_sub ((not_lt.1 fun h => hlt (decide_eq_true h)).trans hle))

end Factors

/-! ### The days as maps -/

/-- What a day that begins with the position `holding` makes of the equity. -/
def dayMap (fees : Fees) (holding : ℤ) (day : Day FloatValue) (e : FloatValue) : FloatValue :=
  (dayStep fees ⟨e, holding⟩ day).equity

/-- The days of a history under the given signals. -/
def dayMaps (fees : Fees) (raw : List ℤ) (points : List FloatPoint) :
    List (FloatValue → FloatValue) :=
  List.zipWith (dayMap fees) (0 :: (days raw points).map Prod.fst) (days raw points)

/-- The float next to a number of millionths. -/
def millionths (k : ℕ) : FloatValue := fl (k / 10 ^ 6)

/-- The least number of millionths with which the days can begin so that something is left. -/
noncomputable def needed (fees : Fees) (raw : List ℤ) (points : List FloatPoint) : ℕ∞ :=
  Thresholds.need rank Positive millionths (dayMaps fees raw points)

/-- **The equity is what the days make of one.**  The induction is on the days. -/
theorem equity_eq_scanl (fees : Fees) {raw : List ℤ} (hraw : ∀ x ∈ raw, x = 0 ∨ x = 1)
    (points : List FloatPoint) :
    (states fees raw points).map LoopState.equity =
      (dayMaps fees raw points).scanl (fun e f => f e) (.finite 1) := by
  have hdays : ∀ d ∈ days raw points, d.1 = 0 ∨ d.1 = 1 := fun d hd =>
    hraw d.1 (List.of_mem_zip hd).1
  have hscan : ∀ (ds : List (Day FloatValue)), (∀ d ∈ ds, d.1 = 0 ∨ d.1 = 1) → ∀ s : LoopState,
      (ds.scanl (dayStep fees) s).map LoopState.equity =
        (List.zipWith (dayMap fees) (s.holding :: ds.map Prod.fst) ds).scanl (fun e f => f e)
          s.equity := by
    intro ds
    induction ds with
    | nil => simp
    | cons d ds ih =>
      intro hds s
      rw [List.scanl_cons, List.map_cons, ih fun e he => hds e (List.mem_cons_of_mem d he),
        dayStep_holding fees s (hds d (List.mem_cons_self ..)), List.map_cons,
        List.zipWith_cons_cons, List.scanl_cons]
      rfl
  exact hscan (days raw points) hdays LoopState.init

section Maps

variable {fees : Fees} {raw : List ℤ} {points : List FloatPoint}

/-- A day multiplies the equity by its factors and rounds. -/
theorem dayMap_cases (fees : Fees) (holding : ℤ) (day : Day FloatValue) :
    (∀ e, dayMap fees holding day e =
      round 6 (accrued fees ⟨e, holding⟩ day.2.1.nav day.2.2.nav)) ∨
    ∀ e, dayMap fees holding day e = round 6 (mul
      (accrued fees ⟨e, holding⟩ day.2.1.nav day.2.2.nav) (sub (.finite 1) (oneTime fees day.1))) := by
  by_cases h : day.1 = holding
  · exact .inl fun e => by simp [dayMap, dayStep, h]
  · exact .inr fun e => by simp [dayMap, dayStep, h]

/-- A day of the loop has two points of the history, and begins with a position that is 0 or 1. -/
theorem mem_dayMaps (hraw : ∀ x ∈ raw, x = 0 ∨ x = 1) {f : FloatValue → FloatValue}
    (hf : f ∈ dayMaps fees raw points) :
    ∃ holding day, f = dayMap fees holding day ∧ (holding = 0 ∨ holding = 1) ∧
      day.2 ∈ points.zip points.tail := by
  rw [dayMaps, ← List.map_uncurry_zip_eq_zipWith, List.mem_map] at hf
  obtain ⟨⟨holding, day⟩, hmem, rfl⟩ := hf
  obtain ⟨hholding, hday⟩ := List.of_mem_zip hmem
  refine ⟨holding, day, rfl, ?_, (List.of_mem_zip hday).2⟩
  rcases List.mem_cons.1 hholding with rfl | hholding
  · exact .inl rfl
  · obtain ⟨d, hd, rfl⟩ := List.mem_map.1 hholding
    exact hraw d.1 (List.of_mem_zip hd).1

theorem positive_of_mem_zip (hpos : ∀ p ∈ points, Positive p.nav) {pq : FloatPoint × FloatPoint}
    (h : pq ∈ points.zip points.tail) : Positive pq.1.nav ∧ Positive pq.2.nav :=
  ⟨hpos _ (List.of_mem_zip h).1, hpos _ (List.mem_of_mem_tail (List.of_mem_zip h).2)⟩

theorem monotone_millionths : Monotone fun k => rank (millionths k) := fun i j hij =>
  rank_fl_mono (div_le_div_of_nonneg_right (by exact_mod_cast hij) (by positivity))

/-- A positive value of six decimal places is the float next to a number of millionths. -/
theorem rank_round_eq {v : FloatValue} (h : Positive (round 6 v)) :
    ∃ j, rank (round 6 v) = rank (millionths j) := by
  cases v with
  | finite q =>
    have hunits : Decimal.roundTo 6 q = (Decimal.halfEven (q * 10 ^ 6) : ℚ) / 10 ^ 6 := rfl
    have hpos : 0 < Decimal.halfEven (q * 10 ^ 6) := by
      by_contra hnot
      have hzero : rank (round 6 (.finite q)) = 0 := by
        refine rank_fl_of_nonpos ?_
        rw [hunits]
        exact div_nonpos_of_nonpos_of_nonneg (by exact_mod_cast not_lt.1 hnot) (by positivity)
      rw [positive_iff, hzero] at h
      exact lt_irrefl _ h
    refine ⟨(Decimal.halfEven (q * 10 ^ 6)).toNat, ?_⟩
    rw [FloatValue.round, hunits, millionths]
    congr 3
    exact_mod_cast (Int.toNat_of_nonneg hpos.le).symm
  | inf s =>
    cases s with
    | false =>
      refine ⟨10 ^ 6 * 2 ^ 1024, ?_⟩
      have hvalue : ((10 ^ 6 * 2 ^ 1024 : ℕ) : ℚ) / 10 ^ 6 = 2 ^ 1024 := by
        rw [Nat.cast_mul, Nat.cast_pow, Nat.cast_pow]
        exact mul_div_cancel_left₀ _ (by norm_num)
      rw [millionths, hvalue, fl_of_large le_rfl]
      rfl
    | true => cases h
  | nan => cases h

/-- The days keep the order of equities, and what is left is a number of millionths. -/
theorem steps_dayMaps (hraw : ∀ x ∈ raw, x = 0 ∨ x = 1) (hpos : ∀ p ∈ points, Positive p.nav)
    (hfees : fees.InBounds) :
    Thresholds.Steps rank Positive millionths (dayMaps fees raw points) where
  mono := by
    intro f hf a b hab
    obtain ⟨holding, day, rfl, hholding, hmem⟩ := mem_dayMaps hraw hf
    obtain ⟨hprev, hnav⟩ := positive_of_mem_zip hpos hmem
    have haccrued : rank (accrued fees ⟨a, holding⟩ day.2.1.nav day.2.2.nav) ≤
        rank (accrued fees ⟨b, holding⟩ day.2.1.nav day.2.2.nav) :=
      rank_mul_mono (.inr (nonneg_one_sub_daily hfees))
        (rank_mul_mono (nonnegOrNan_growth hprev hnav hholding) hab)
    rcases dayMap_cases fees holding day with h | h
    · rw [h, h]
      exact rank_round_mono 6 haccrued
    · rw [h, h]
      exact rank_round_mono 6 (rank_mul_mono (nonnegOrNan_one_sub_oneTime fees day.1) haccrued)
  marked := by
    intro f hf e he
    obtain ⟨holding, day, rfl, -⟩ := mem_dayMaps hraw hf
    rcases dayMap_cases fees holding day with h | h
    · rw [h] at he ⊢
      exact rank_round_eq he
    · rw [h] at he ⊢
      exact rank_round_eq he

end Maps

/-! ### Days that leave a millionth alive -/

section Falls

variable {fees : Fees} {raw : List ℤ} {points : List FloatPoint}

/-- The charge of an order within the bounds of the route. -/
theorem oneTime_upTo (hfees : fees.InBounds) (target : ℤ) :
    UpTo (227 / 1024) (oneTime fees target) := by
  obtain ⟨t, ht, ht₀, ht₁⟩ : UpTo (31 / 256) (transaction fees) := by
    obtain ⟨b, hb, hb₀, hb₁⟩ : UpTo (21 / 1024) (div (.finite fees.feeBps) (.finite 10000)) :=
      upTo_fl (by decide +kernel) (by norm_num) (div_nonneg hfees.feeBps.1 (by norm_num))
        (by linarith [hfees.feeBps.2])
    rw [transaction, pyMax_zero hfees.transactionCost.1, hb]
    exact upTo_fl (by decide +kernel) (by norm_num) (add_nonneg hfees.transactionCost.1 hb₀)
      (by linarith [hfees.transactionCost.2])
  have hfee : ∃ fee : ℚ, (if target = 1 then fees.subscriptionFee else fees.redemptionFee) = fee ∧
      0 ≤ fee ∧ fee ≤ 1 / 10 := by
    split_ifs
    · exact ⟨_, rfl, hfees.subscriptionFee⟩
    · exact ⟨_, rfl, hfees.redemptionFee⟩
  obtain ⟨fee, hfee, hfee₀, hfee₁⟩ := hfee
  obtain ⟨x, hx, hx₀, hx₁⟩ : UpTo (227 / 1024) (add (.finite t) (.finite fee)) :=
    upTo_fl (by decide +kernel) (by norm_num) (add_nonneg ht₀ hfee₀) (by linarith)
  obtain ⟨c, hc, hc₀, -⟩ : UpTo 1 (fl (99 / 100)) :=
    upTo_fl Binary64.nearest_one le_rfl (by norm_num) (by norm_num)
  have hmax : pyMax (.finite x) (.finite 0) = .finite x :=
    if_neg fun hlt => absurd (of_decide_eq_true hlt) (not_lt.2 hx₀)
  simp only [oneTime, hfee, ht, hx, hc, hmax, pyMin]
  split_ifs with hlt
  · exact ⟨c, rfl, hc₀, (of_decide_eq_true hlt).le.trans hx₁⟩
  · exact ⟨x, rfl, hx₀, hx₁⟩

/-- The growth of a day on which the NAV keeps 65% and does not grow beyond all bounds. -/
theorem le_rank_growth {x y : ℚ} (hx : 0 < x) (hfall : 65 / 100 * x ≤ y) (hrise : y ≤ 2 ^ 1023 * x)
    {holding : ℤ} (hholding : holding = 0 ∨ holding = 1) :
    ((83 / 128 : ℚ) : WithTop ℚ) ≤ rank (growth holding (.finite x) (.finite y)) := by
  have hkept : nearest (83 / 128) = 83 / 128 := by decide +kernel
  have hrange : ∀ {z : ℚ}, |z| ≤ 2 ^ 1023 → fl z = .finite (nearest z) ∧ |nearest z| ≤ 2 ^ 1023 := by
    intro z hz
    have hnearest := Binary64.abs_nearest_le_two_pow (hz.trans
      (le_mul_of_one_le_right (by positivity) (by norm_num)))
    exact ⟨if_neg (not_le.2 (hnearest.trans_lt (two_pow_lt le_rfl))), hnearest⟩
  have hratio : 65 / 100 ≤ y / x := (le_div_iff₀ hx).2 hfall
  obtain ⟨hz, hz₁⟩ := hrange (z := y / x) (by
    rw [abs_of_nonneg (by linarith), div_le_iff₀ hx]
    exact hrise)
  have hz₀ : 83 / 128 ≤ nearest (y / x) := by
    rw [← hkept]
    exact Binary64.nearest_mono (by linarith)
  obtain ⟨hw, hw₁⟩ := hrange (z := nearest (y / x) + -1) (by
    rw [abs_le] at hz₁ ⊢
    have hone : (1 : ℚ) ≤ 2 ^ 1023 := one_le_pow₀ one_le_two
    exact ⟨(neg_le_neg hone).trans (by linarith only [hz₀]),
      (add_le_of_nonpos_right (by norm_num)).trans hz₁.2⟩)
  have hw₀ : -(45 / 128) ≤ nearest (nearest (y / x) + -1) := by
    rw [show (-(45 / 128) : ℚ) = nearest (-(45 / 128)) by decide +kernel]
    exact Binary64.nearest_mono (by linarith)
  have hret : sub (div (.finite y) (.finite x)) (.finite 1) =
      .finite (nearest (nearest (y / x) + -1)) := by
    rw [show div (.finite y) (.finite x) = _ from hz]
    exact hw
  rw [growth, hret]
  rcases hholding with rfl | rfl
  · rw [mul, Int.cast_zero, mul_zero, fl_zero]
    exact le_rank_fl hkept (by norm_num)
  · rw [mul, Int.cast_one, mul_one, fl_of_nearest_eq (Binary64.nearest_nearest _)
      (hw₁.trans_lt (two_pow_lt le_rfl))]
    exact le_rank_fl hkept (by linarith)

theorem positive_dayMap (hfees : fees.InBounds) {holding : ℤ} (hholding : holding = 0 ∨ holding = 1)
    {day : Day FloatValue} {x y : ℚ} (hprev : day.2.1.nav = .finite x) (hnav : day.2.2.nav = .finite y)
    (hx : 0 < x) (hfall : 65 / 100 * x ≤ y) (hrise : y ≤ 2 ^ 1023 * x) :
    Positive (dayMap fees holding day (millionths 1)) := by
  have hstart : ((1099511 / 2 ^ 40 : ℚ) : WithTop ℚ) ≤ rank (millionths 1) :=
    le_rank_fl (by decide +kernel) (by norm_num)
  have hdaily : ((2047 / 2048 : ℚ) : WithTop ℚ) ≤ rank (sub (.finite 1) (daily fees)) := by
    obtain ⟨d, hd, -, hle⟩ := daily_upTo hfees
    rw [hd]
    exact le_rank_fl (by decide +kernel) (by linarith)
  have hcharge : ((797 / 1024 : ℚ) : WithTop ℚ) ≤ rank (sub (.finite 1) (oneTime fees day.1)) := by
    obtain ⟨t, ht, -, hle⟩ := oneTime_upTo hfees day.1
    rw [ht]
    exact le_rank_fl (by decide +kernel) (by linarith)
  have haccrued : ((1099511 / 2 ^ 40 * (83 / 128) * (2047 / 2048) : ℚ) : WithTop ℚ) ≤
      rank (accrued fees ⟨millionths 1, holding⟩ day.2.1.nav day.2.2.nav) := by
    refine le_rank_mul (by norm_num) (by norm_num) (by decide +kernel)
      (le_rank_mul (by norm_num) (by norm_num) (by decide +kernel) hstart ?_) hdaily
    rw [hprev, hnav]
    exact le_rank_growth hx hfall hrise hholding
  have hround : ∀ {v : FloatValue} {q : ℚ}, (q : WithTop ℚ) ≤ rank v → 0 ≤ q →
      Positive (round 6 (.finite q)) → Positive (round 6 v) := fun {v q} hv hq hpos =>
    hpos.of_rank_le (rank_round_mono 6 (by rwa [rank, max_eq_right hq]))
  rcases dayMap_cases fees holding day with h | h
  · rw [h]
    exact hround haccrued (by norm_num) (by decide +kernel)
  · rw [h]
    exact hround (le_rank_mul (by norm_num) (by norm_num) (by decide +kernel) haccrued hcharge)
      (by norm_num) (by decide +kernel)

end Falls

/-! ### The equity stays positive -/

section Runs

variable {np : NumPy} {points : List FloatPoint} {fees : Fees} {raw : List ℤ}

/-- A NAV that is not more than 35% below the one before, and not beyond all bounds above it. -/
def steady : FloatValue → FloatValue → Bool
  | .finite x, .finite y => 65 / 100 * x ≤ y && y ≤ 2 ^ 1023 * x
  | _, _ => false

/-- The pairs of neighbouring NAVs are steady. -/
def Steady (points : List FloatPoint) : Prop :=
  ∀ pq ∈ points.zip points.tail, steady pq.1.nav pq.2.nav = true

theorem steady_iff {prev nav : FloatValue} :
    steady prev nav = true ↔ ∃ x y, prev = .finite x ∧ nav = .finite y ∧
      65 / 100 * x ≤ y ∧ y ≤ 2 ^ 1023 * x := by
  cases prev <;> cases nav <;> simp [steady]

/-- Day `i + 1` begins with the equity `e` and begins and ends without a position; `p` and `q` are the
points of the two days. -/
structure IdleDay (points : List FloatPoint) (r : Result) (i : ℕ) (e : FloatValue)
    (p q : FloatPoint) : Prop where
  held : r.position[i]? = some 0
  target : r.position[i + 1]? = some 0
  equity : r.equity[i]? = some e
  before : points[i]? = some p
  after : points[i + 1]? = some q

theorem equity_rounded (hraw : ∀ x ∈ raw, x = 0 ∨ x = 1) (hpos : ∀ p ∈ points, Positive p.nav)
    (hfees : fees.InBounds) :
    ∀ e ∈ (states fees raw points).map LoopState.equity, ∃ v, NonnegOrNan v ∧ e = round 6 v := by
  rw [equity_eq_scanl fees hraw]
  refine Causal.forall_mem_scanl ?_ ⟨.finite 1, .inr zero_le_one, by decide +kernel⟩
  rintro _ f hf ⟨v, hv, rfl⟩
  obtain ⟨holding, day, rfl, hholding, hmem⟩ := mem_dayMaps hraw hf
  obtain ⟨hprev, hnav⟩ := positive_of_mem_zip hpos hmem
  have hround : NonnegOrNan (round 6 v) := by
    rcases hv with rfl | hv
    · exact .inl rfl
    rcases hv.inf_or_finite with rfl | ⟨q, rfl, hq⟩
    · exact .inr rfl
    · refine .inr (nonneg_fl ?_)
      simpa only [Decimal.roundTo_zero] using Decimal.roundTo_mono 6 hq
  have haccrued : NonnegOrNan (accrued fees ⟨round 6 v, holding⟩ day.2.1.nav day.2.2.nav) :=
    nonnegOrNan_mul (nonnegOrNan_mul hround (nonnegOrNan_growth hprev hnav hholding))
      (.inr (nonneg_one_sub_daily hfees))
  rcases dayMap_cases fees holding day with h | h
  · exact ⟨_, haccrued, h _⟩
  · exact ⟨_, nonnegOrNan_mul haccrued (nonnegOrNan_one_sub_oneTime fees day.1), h _⟩

theorem round_mul_one (v : FloatValue) : mul (round 6 v) (.finite 1) = round 6 v := by
  cases v with
  | finite q => exact (fl_mul_one _).1
  | inf s => cases s <;> decide +kernel
  | nan => rfl

/-- Without a position the growth of a NAV counts only if it overflows. -/
theorem growth_zero {prev nav : FloatValue} (hprev : Positive prev) (hnav : Positive nav) :
    (∃ x, sub (div nav prev) (.finite 1) = .finite x) ∧ growth 0 prev nav = .finite 1 ∨
      (¬ ∃ x, sub (div nav prev) (.finite 1) = .finite x) ∧ growth 0 prev nav = .nan := by
  rcases return_cases hprev hnav with h | h | ⟨y, h, -⟩
  · exact .inr ⟨by rw [h]; exact nofun, by rw [growth, h]; rfl⟩
  · exact .inr ⟨by rw [h]; exact nofun, by rw [growth, h]; rfl⟩
  · refine .inl ⟨⟨y, h⟩, ?_⟩
    rw [growth, h, mul, Int.cast_zero, mul_zero, fl_zero, add, add_zero, fl_one]

variable {strategy : Strategy} {short long : ℤ} {i : ℕ} {e : FloatValue} {p q : FloatPoint}

theorem IdleDay.next (h : IdleDay points (resultOf np points strategy short long fees) i e p q) :
    (resultOf np points strategy short long fees).equity[i + 1]? =
      some (round 6 (accrued fees ⟨e, 0⟩ p.nav q.nav)) := by
  obtain ⟨hheld, htarget, hequity, hp, hq⟩ := h
  have hposition : (resultOf np points strategy short long fees).position =
      (states fees (signals np points strategy short long) points).map LoopState.holding :=
    (position_eq np fees points strategy short long).symm
  rw [hposition, List.getElem?_map] at hheld
  obtain ⟨s, hs, hholding⟩ := Option.map_eq_some_iff.1 hheld
  have hstate : s = ⟨e, 0⟩ := by
    rw [resultOf, List.getElem?_map, hs, Option.map_some, Option.some_inj] at hequity
    rw [← hequity, ← hholding]
  have hday : (days (signals np points strategy short long) points)[i]? = some (0, p, q) := by
    refine List.getElem?_zip_eq_some.2 ⟨?_, List.getElem?_zip_eq_some.2 ⟨hp, ?_⟩⟩
    · have hsignal : (signals np points strategy short long).dropLast[i]? = some 0 := htarget
      have hi := (List.getElem?_eq_some_iff.1 hsignal).1
      rw [List.length_dropLast] at hi
      rwa [List.dropLast_eq_take, List.getElem?_take_of_lt hi] at hsignal
    · rwa [List.getElem?_tail]
  rw [resultOf, List.getElem?_map, states, List.getElem?_succ_scanl, ← states, hs, hstate, hday]
  rfl

/-- Every strategy that looks back begins with an idle day. -/
theorem idleDay_first (np : NumPy) (hlen : 5 ≤ points.length) (hstrategy : strategy ≠ .buyHold)
    (short long : ℤ) (fees : Fees) :
    ∃ p q, IdleDay points (resultOf np points strategy short long fees) 0 (.finite 1) p q := by
  have hnavs : 0 < (navsOf points).length := by
    rw [navsOf, List.length_map]
    omega
  have hma : (signalsMa np (navsOf points) (clampShort short).toNat
      (clampLong (clampShort short) long).toNat)[0]? = some 0 := by
    refine signal_of_missing (List.getElem?_zip_eq_some.2
      ⟨getElem?_ma np _ hnavs, getElem?_ma np _ hnavs⟩) (.inl (if_pos ?_))
    simp only [clampShort]
    omega
  have hfirst : (signals np points strategy short long)[0]? = some 0 := by
    cases strategy with
    | maCross => exact hma
    | other name => exact hma
    | buyHold => exact absurd rfl hstrategy
    | momentum =>
      have hwindow : ¬ clampShort short ≤ 0 := by
        simp only [clampShort]
        omega
      simp [signals, rawPos, Backtest.signalsMomentum, hnavs, hwindow]
  have hlength := length_signals np points strategy short long
  refine ⟨points[0], points[1], rfl, ?_, ?_, List.getElem?_eq_getElem _, List.getElem?_eq_getElem _⟩
  · show (signals np points strategy short long).dropLast[0]? = some 0
    rwa [List.dropLast_eq_take, List.getElem?_take_of_lt (by omega)]
  · simp [resultOf, states, LoopState.init]

/-- Buying on the second day and holding leaves no idle day. -/
theorem not_idleDay_buyHold :
    ¬ IdleDay points (resultOf np points .buyHold short long fees) i e p q := by
  intro h
  have hmem := List.dropLast_subset _ (List.mem_of_getElem? (show
    (signals np points .buyHold short long).dropLast[i]? = some 0 from h.target))
  exact absurd (List.eq_of_mem_replicate hmem) (by decide)

theorem eq_self {v : FloatValue} (h : v ≠ .nan) : eq v v = true := by
  cases v with
  | finite q => simp [eq]
  | inf s => simp [eq]
  | nan => exact absurd rfl h

theorem eq_one {v : FloatValue} (h : eq v (.finite 1) = true) : v = .finite 1 := by
  cases v with
  | finite q => rw [of_decide_eq_true h]
  | inf s => cases h
  | nan => cases h

/-- **Out of the market the equity stands still, and no fee accrues, exactly if there is no such day
or the daily fee leaves one as it is, and on each such day the return is a number and the equity is
not NaN.**  If the equity stands still at all, the fee on the first such day is at least lost in the
rounding. -/
theorem idle_equity_iff (np : NumPy) (hlen : 5 ≤ points.length)
    (hpos : ∀ p ∈ points, Positive p.nav) (strategy : Strategy) (short long : ℤ)
    (hfees : fees.InBounds) :
    ∃ r, run np points strategy short long fees = .ok r ∧
      ((∀ i e p q, IdleDay points r i e p q →
          (∃ e', r.equity[i + 1]? = some e' ∧ eq e' e = true) ∧
            eq (accrued fees ⟨e, 0⟩ p.nav q.nav) e = true) ↔
        strategy = .buyHold ∨ sub (.finite 1) (daily fees) = .finite 1 ∧
          ∀ i e p q, IdleDay points r i e p q →
            (∃ x, sub (div q.nav p.nav) (.finite 1) = .finite x) ∧ e ≠ .nan) ∧
      ((∀ i e p q, IdleDay points r i e p q → ∃ e', r.equity[i + 1]? = some e' ∧ eq e' e = true) →
        strategy = .buyHold ∨ round 6 (sub (.finite 1) (daily fees)) = .finite 1) := by
  have hraw := signal_zero_or_one np points strategy short long
  refine ⟨_, run_eq_ok np hlen hpos strategy short long fees, ?_⟩
  by_cases hstrategy : strategy = .buyHold
  · subst hstrategy
    exact ⟨⟨fun _ => .inl rfl, fun _ i e p q h => absurd h not_idleDay_buyHold⟩, fun _ => .inl rfl⟩
  simp only [hstrategy, false_or]
  have hgrowth : ∀ {i e p q}, IdleDay points (resultOf np points strategy short long fees) i e p q →
      (∃ x, sub (div q.nav p.nav) (.finite 1) = .finite x) ∧ growth 0 p.nav q.nav = .finite 1 ∨
        (¬ ∃ x, sub (div q.nav p.nav) (.finite 1) = .finite x) ∧
          accrued fees ⟨e, 0⟩ p.nav q.nav = .nan := by
    intro i e p q h
    refine (growth_zero (hpos p (List.mem_of_getElem? h.before))
      (hpos q (List.mem_of_getElem? h.after))).imp_right fun ⟨hnone, hnan⟩ => ⟨hnone, ?_⟩
    rw [accrued, hnan, show mul e .nan = .nan by cases e <;> rfl]
    rfl
  -- on the first day the equity is one, and what is left is one less the fee
  obtain ⟨p₀, q₀, hfirst⟩ := idleDay_first np hlen hstrategy short long fees
  have hone : accrued fees ⟨.finite 1, 0⟩ p₀.nav q₀.nav = .nan ∨
      accrued fees ⟨.finite 1, 0⟩ p₀.nav q₀.nav = sub (.finite 1) (daily fees) := by
    refine (hgrowth hfirst).symm.imp And.right fun h => ?_
    obtain ⟨d, hd, -⟩ := daily_upTo hfees
    rw [accrued, h.2, hd, mul, one_mul, fl_one]
    exact (fl_mul_one (1 + -d)).2
  refine ⟨⟨fun h => ⟨?_, fun i e p q hidle => ⟨?_, ?_⟩⟩, ?_⟩, fun h => ?_⟩
  · have heq := eq_one (h _ _ _ _ hfirst).2
    rcases hone with hnan | hone
    · rw [hnan] at heq
      cases heq
    · exact hone.symm.trans heq
  · refine ((hgrowth hidle).resolve_right fun hnan => ?_).1
    have heq := (h _ _ _ _ hidle).2
    rw [hnan.2] at heq
    cases heq
  · rintro rfl
    have heq := (h _ _ _ _ hidle).2
    rw [show ∀ v, eq v .nan = false from fun v => by cases v <;> rfl] at heq
    cases heq
  · rintro ⟨hfee, hnumbers⟩ i e p q hidle
    obtain ⟨hnumber, hne⟩ := hnumbers i e p q hidle
    obtain ⟨v, hv, rfl⟩ := equity_rounded hraw hpos hfees e (List.mem_of_getElem? hidle.equity)
    have hsame : accrued fees ⟨round 6 v, 0⟩ p.nav q.nav = round 6 v := by
      rw [accrued, ((hgrowth hidle).resolve_right fun h => h.1 hnumber).2, hfee, round_mul_one,
        round_mul_one]
    rw [hidle.next, hsame, round_round hv]
    exact ⟨⟨_, rfl, eq_self hne⟩, eq_self hne⟩
  · obtain ⟨e', he', heq⟩ := h _ _ _ _ hfirst
    rw [hfirst.next, Option.some_inj] at he'
    have hvalue := he'.trans (eq_one heq)
    rcases hone with hnan | hone
    · rw [hnan] at hvalue
      cases hvalue
    · rwa [hone] at hvalue

end Runs

/-! ### Two histories -/

/-- The fees of `config.py`, with the default of `fee_bps`. -/
def configFees : Fees :=
  { feeBps := 15, managementFee := nearest (6 / 1000), subscriptionFee := nearest (15 / 10000)
    redemptionFee := nearest (5 / 1000), transactionCost := nearest (5 / 10000) }

theorem configFees_inBounds : configFees.InBounds where
  feeBps := by decide +kernel
  subscriptionFee := by decide +kernel
  redemptionFee := by decide +kernel
  managementFee := by decide +kernel
  transactionCost := by decide +kernel

/-- A history with the NAVs that floats have for the given ones. -/
def history (navs : List ℚ) : List FloatPoint :=
  navs.map fun nav => { date := "2026-01-05", nav := fl nav }

/-- Five rising days. -/
def fiveDays : List FloatPoint := history [1, 11 / 10, 12 / 10, 13 / 10, 2]

/-- Forty days on which a NAV of 1000 is followed by one of 0.0001. -/
def collapse : List FloatPoint := history ([1000, 1000] ++ List.replicate 38 (1 / 10000))

/-- Without a management fee the equity stands still on the idle days of the five. -/
theorem idle_equity_iff_fiveDays :
    ∃ r, run .inOrder fiveDays .momentum 2 20 {} = .ok r ∧
      ∀ i e p q, IdleDay fiveDays r i e p q →
        (∃ e', r.equity[i + 1]? = some e' ∧ eq e' e = true) ∧
          eq (accrued {} ⟨e, 0⟩ p.nav q.nav) e = true := by
  have hbounds : Fees.InBounds {} := by constructor <;> decide +kernel
  have hpos : ∀ p ∈ fiveDays, Positive p.nav := by decide +kernel
  obtain ⟨r, hr, hiff, -⟩ := idle_equity_iff .inOrder (show 5 ≤ fiveDays.length by decide) hpos
    .momentum 2 20 hbounds
  have hresult : r = resultOf .inOrder fiveDays .momentum 2 20 {} :=
    Except.ok.inj (hr.symm.trans (run_eq_ok _ (by decide) hpos _ _ _ _))
  have hnumbers : ∀ pq ∈ fiveDays.zip fiveDays.tail,
      sub (div pq.2.nav pq.1.nav) (.finite 1) ≠ .nan ∧
        ∀ s, sub (div pq.2.nav pq.1.nav) (.finite 1) ≠ .inf s := by decide +kernel
  refine ⟨r, hr, hiff.2 (.inr ⟨by decide +kernel, fun i e p q h => ⟨?_, ?_⟩⟩)⟩
  · have hmem : (p, q) ∈ fiveDays.zip fiveDays.tail := List.mem_of_getElem? (i := i)
      (List.getElem?_zip_eq_some.2 ⟨h.before, by rw [List.getElem?_tail]; exact h.after⟩)
    obtain ⟨hnan, hinf⟩ := hnumbers (p, q) hmem
    cases hvalue : sub (div q.nav p.nav) (.finite 1) with
    | finite x => exact ⟨x, rfl⟩
    | inf s => exact absurd hvalue (hinf s)
    | nan => exact absurd hvalue hnan
  · have hne : ∀ e ∈ (resultOf .inOrder fiveDays .momentum 2 20 {}).equity, e ≠ .nan := by
      decide +kernel
    exact hne e (hresult ▸ List.mem_of_getElem? h.equity)

/-- On the first of the five days the management fee of `config.py` is charged to cash. -/
theorem idle_day_charged :
    5 ≤ fiveDays.length ∧ (∀ p ∈ fiveDays, Positive p.nav) ∧ configFees.InBounds ∧
      ∃ r, run .inOrder fiveDays .momentum 2 20 configFees = .ok r ∧
        r.position[0]? = some 0 ∧ r.position[1]? = some 0 ∧ r.equity[0]? = some (.finite 1) ∧
        r.equity[1]? = some (fl (999976 / 1000000)) ∧
        ¬ eq (fl (999976 / 1000000)) (.finite 1) = true := by
  have hpos : ∀ p ∈ fiveDays, Positive p.nav := by decide +kernel
  exact ⟨by decide, hpos, configFees_inBounds, _, run_eq_ok _ (by decide) hpos _ _ _ _,
    by decide +kernel, by decide +kernel, by decide +kernel, by decide +kernel, by decide +kernel⟩

end FloatBacktest

end QuantFlow
