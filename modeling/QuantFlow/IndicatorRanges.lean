/-
**The ranges of the smoothed indicators.**

`ema` and `kdj` of `backend/app/indicators.py` carry unrounded values along a list of any length and
round what they output.  The carried values are weighted means (`QuantFlow/Smoothing.lean`), so they
stay where the inputs are: between the least and the largest NAV read so far for `ema`, and in
[0, 100] for `K` and `D`, because the raw value of a day is the place of its NAV between the lowest
and the highest one of a window that contains it.  A rounding that is monotone keeps the first, and
one that also fixes the integers keeps the second.

Main definitions:

* `Percent` — a pair of values in [0, 100];
* `InRange` — the entries of a day of `kdj` in their ranges.

Main results:

* `ema_in_range` — every output of `ema` is between the rounded least and largest NAV it has seen;
* `kdjStep_in_range` — what one day of `kdj` keeps;
* `smoothed_in_range` — **the smoothed indicators stay in range**.
-/

import QuantFlow.Drawdowns
import QuantFlow.Indicators
import QuantFlow.Smoothing

namespace QuantFlow

namespace Indicators

open Smoothing (blend smooth)

variable {N : Numerics}

/-! ### The exponential mean -/

/-- The weight of a new value, `2 / (window + 1)`. -/
theorem weight_mem_Icc {w : ℕ} (hw : 1 ≤ w) : (2 / ((w : ℚ) + 1)) ∈ Set.Icc (0 : ℚ) 1 := by
  have hone : (1 : ℚ) ≤ w := by exact_mod_cast hw
  constructor
  · positivity
  · rw [div_le_one (by linarith)]
    linarith

theorem ema_cons (v : ℚ) (vs : List ℚ) (w : ℕ) :
    ema N (v :: vs) w = (smooth (2 / ((w : ℚ) + 1)) v vs).map (r N 4) := rfl

/-- Every output of `ema` is between the rounded least and largest NAV it has seen. -/
theorem ema_in_range (hmono : ∀ n, Monotone (N.round n)) {values : List ℚ} {w i : ℕ} (hw : 1 ≤ w)
    (hi : i < values.length) :
    ∃ y lo hi, (ema N values w)[i]? = some (some y) ∧ (values.take (i + 1)).min? = some lo ∧
      (values.take (i + 1)).max? = some hi ∧ N.round 4 lo ≤ y ∧ y ≤ N.round 4 hi := by
  cases values with
  | nil => exact absurd hi (Nat.not_lt_zero i)
  | cons v vs =>
    have hne : (v :: vs).take (i + 1) ≠ [] := by simp
    obtain ⟨lo, hlo⟩ := Option.ne_none_iff_exists'.1 (mt List.min?_eq_none_iff.1 hne)
    obtain ⟨hi', hhi⟩ := Option.ne_none_iff_exists'.1 (mt List.max?_eq_none_iff.1 hne)
    have hlength : i < (smooth (2 / ((w : ℚ) + 1)) v vs).length := by
      simpa [smooth] using hi
    obtain ⟨z, hz⟩ : ∃ z, (smooth (2 / ((w : ℚ) + 1)) v vs)[i]? = some z :=
      ⟨_, List.getElem?_eq_getElem hlength⟩
    have hrange : z ∈ Set.Icc lo hi' := by
      refine Smoothing.getElem?_smooth_mem_Icc (weight_mem_Icc hw) ?_ hz
      intro x hx
      exact ⟨(List.min?_eq_some_iff.1 hlo).2 x hx, (List.max?_eq_some_iff.1 hhi).2 x hx⟩
    refine ⟨N.round 4 z, lo, hi', ?_, hlo, hhi, hmono 4 hrange.1, hmono 4 hrange.2⟩
    rw [ema_cons, List.getElem?_map, hz]
    rfl

/-! ### KDJ -/

/-- A pair of values in [0, 100]. -/
def Percent (p : ℚ × ℚ) : Prop := p.1 ∈ Set.Icc (0 : ℚ) 100 ∧ p.2 ∈ Set.Icc (0 : ℚ) 100

/-- The outputs of a day, where there are any, are in their ranges. -/
def InRange (out : Option ℚ × Option ℚ × Option ℚ) : Prop :=
  (∀ y ∈ out.1, 0 ≤ y ∧ y ≤ 100) ∧ (∀ y ∈ out.2.1, 0 ≤ y ∧ y ≤ 100) ∧
    ∀ y ∈ out.2.2, -200 ≤ y ∧ y ≤ 300

/-- The window of a day contains the NAV of the day. -/
theorem mem_window {values : List ℚ} {n i : ℕ} (hn : 1 ≤ n) (hi : i < values.length) :
    values.getD i 0 ∈ window values n i := by
  refine List.mem_of_getElem? (i := i - (i + 1 - n)) ?_
  rw [window, List.getElem?_drop, List.getElem?_take_of_lt (by omega),
    show i + 1 - n + (i - (i + 1 - n)) = i by omega, List.getD_eq_getElem?_getD,
    List.getElem?_eq_getElem hi]
  rfl

/-- A value between a lower and a higher one has its place between them. -/
theorem place_mem_Icc {v lo hi : ℚ} (hlo : lo ≤ v) (hhi : v ≤ hi) :
    (if hi = lo then 50 else (v - lo) / (hi - lo) * 100) ∈ Set.Icc (0 : ℚ) 100 := by
  split
  · constructor <;> norm_num
  · rename_i hne
    have hpos : 0 < hi - lo := sub_pos.2 (lt_of_le_of_ne (hlo.trans hhi) (Ne.symm hne))
    have hleft : 0 ≤ (v - lo) / (hi - lo) := div_nonneg (sub_nonneg.2 hlo) hpos.le
    have hright : (v - lo) / (hi - lo) ≤ 1 := (div_le_one hpos).2 (by linarith)
    constructor <;> linarith

/-- `(m - 1) / m * prev + 1 / m * x` is a weighted mean. -/
theorem carried_mem_Icc {m : ℕ} (hm : 1 ≤ m) {prev x a b : ℚ} (hprev : prev ∈ Set.Icc a b)
    (hx : x ∈ Set.Icc a b) : ((m : ℚ) - 1) / m * prev + 1 / m * x ∈ Set.Icc a b := by
  have hone : (1 : ℚ) ≤ m := by exact_mod_cast hm
  have hk : 1 / (m : ℚ) ∈ Set.Icc (0 : ℚ) 1 := ⟨by positivity, (div_le_one (by linarith)).2 hone⟩
  have hblend : ((m : ℚ) - 1) / m * prev + 1 / m * x = blend (1 / (m : ℚ)) x prev := by
    rw [blend]
    field_simp
    ring
  rw [hblend]
  exact Smoothing.blend_mem_Icc hk hx hprev

/-- A rounding that is monotone and fixes the integers does not leave an interval of integers. -/
theorem round_mem_of_int (hmono : ∀ n, Monotone (N.round n)) (hint : ∀ n (z : ℤ), N.round n z = z)
    {x : ℚ} {a b : ℤ} (n : ℕ) (ha : (a : ℚ) ≤ x) (hb : x ≤ b) :
    (a : ℚ) ≤ N.round n x ∧ N.round n x ≤ b := by
  have hlow := hmono n ha
  have hhigh := hmono n hb
  rw [hint] at hlow hhigh
  exact ⟨hlow, hhigh⟩

section Kdj

variable (hmono : ∀ n, Monotone (N.round n)) (hint : ∀ n (z : ℤ), N.round n z = z)

include hmono hint

/-- The outputs of a day whose carried pair is in [0, 100]. -/
theorem inRange_of_percent {k d : ℚ} (h : Percent (k, d)) :
    InRange (r N 2 k, r N 2 d, r N 2 (3 * k - 2 * d)) := by
  obtain ⟨⟨hk₀, hk₁⟩, hd₀, hd₁⟩ := h
  have hpercent : ∀ x : ℚ, 0 ≤ x → x ≤ 100 → 0 ≤ N.round 2 x ∧ N.round 2 x ≤ 100 := by
    intro x h₀ h₁
    exact_mod_cast round_mem_of_int (a := 0) (b := 100) hmono hint 2 (by exact_mod_cast h₀)
      (by exact_mod_cast h₁)
  refine ⟨?_, ?_, ?_⟩
  · rintro _ ⟨⟩
    exact hpercent k hk₀ hk₁
  · rintro _ ⟨⟩
    exact hpercent d hd₀ hd₁
  · rintro _ ⟨⟩
    have hlow : ((-200 : ℤ) : ℚ) ≤ 3 * k - 2 * d := by
      push_cast
      linarith
    have hhigh : 3 * k - 2 * d ≤ ((300 : ℤ) : ℚ) := by
      push_cast
      linarith
    exact_mod_cast round_mem_of_int hmono hint 2 hlow hhigh

variable {values : List ℚ} {n m1 m2 : ℕ} (hn : 1 ≤ n) (hm1 : 1 ≤ m1) (hm2 : 1 ≤ m2)

include hn hm1 hm2

/-- **What one day of `kdj` keeps**: the carried pair stays in [0, 100], and the outputs are in their
ranges. -/
theorem kdjStep_in_range {i : ℕ} (hi : i < values.length) {prev : ℚ × ℚ} (h : Percent prev) :
    Percent (kdjStep N values n m1 m2 prev i).1 ∧ InRange (kdjStep N values n m1 m2 prev i).2 := by
  unfold kdjStep
  split
  · exact ⟨h, by simp [InRange]⟩
  · have hmem := mem_window hn hi
    have hlow : (window values n i).foldl min ((window values n i).headD 0) ≤ values.getD i 0 :=
      (Drawdown.foldl_min_le _ _).2 _ hmem
    have hhigh : values.getD i 0 ≤ (window values n i).foldl max ((window values n i).headD 0) :=
      (Drawdown.foldl_min_le (α := ℚᵒᵈ) _ _).2 _ hmem
    have hk := carried_mem_Icc hm1 h.1 (place_mem_Icc hlow hhigh)
    have hd := carried_mem_Icc hm2 h.2 hk
    exact ⟨⟨hk, hd⟩, inRange_of_percent hmono hint ⟨hk, hd⟩⟩

theorem kdj_days_in_range :
    ∀ out ∈ Causal.mapAccum (kdjStep N values n m1 m2) (50, 50) (List.range values.length),
      InRange out := by
  refine Causal.forall_mem_mapAccum (I := Percent) ?_ ⟨⟨by norm_num, by norm_num⟩, by norm_num, by norm_num⟩
  intro prev i hi
  exact kdjStep_in_range hmono hint hn hm1 hm2 (List.mem_range.1 hi)

end Kdj

/-- **The smoothed indicators stay in range.** -/
theorem smoothed_in_range (hmono : ∀ n, Monotone (N.round n))
    (hint : ∀ n (z : ℤ), N.round n z = z) :
    (∀ (values : List ℚ) (w i : ℕ), 1 ≤ w → i < values.length →
      ∃ y lo hi, (ema N values w)[i]? = some (some y) ∧ (values.take (i + 1)).min? = some lo ∧
        (values.take (i + 1)).max? = some hi ∧ N.round 4 lo ≤ y ∧ y ≤ N.round 4 hi) ∧
    ∀ (values : List ℚ) (n m1 m2 : ℕ), 1 ≤ n → 1 ≤ m1 → 1 ≤ m2 → ∀ y,
      (some y ∈ (kdj N values n m1 m2).k → 0 ≤ y ∧ y ≤ 100) ∧
      (some y ∈ (kdj N values n m1 m2).d → 0 ≤ y ∧ y ≤ 100) ∧
      (some y ∈ (kdj N values n m1 m2).j → -200 ≤ y ∧ y ≤ 300) := by
  refine ⟨fun values w i hw hi => ema_in_range hmono hw hi, ?_⟩
  intro values n m1 m2 hn hm1 hm2 y
  have hdays : ∀ out ∈ Causal.mapAccum (kdjStep N values n m1 m2) (50, 50)
      (List.range values.length), InRange out := kdj_days_in_range hmono hint hn hm1 hm2
  refine ⟨?_, ?_, ?_⟩
  · intro hy
    obtain ⟨out, hout, heq⟩ := List.mem_map.1 hy
    exact (hdays out hout).1 y heq
  · intro hy
    obtain ⟨out, hout, heq⟩ := List.mem_map.1 hy
    exact (hdays out hout).2.1 y heq
  · intro hy
    obtain ⟨out, hout, heq⟩ := List.mem_map.1 hy
    exact (hdays out hout).2.2 y heq

/-- The rounding of the host is one of these. -/
theorem smoothed_in_range_python :
    (∀ n, Monotone (Numerics.runnable.round n)) ∧
      (∀ n (z : ℤ), Numerics.runnable.round n z = z) ∧
      (∃ y lo hi, (ema .runnable [1, 3, 2] 12)[2]? = some (some y) ∧ [(1 : ℚ), 3, 2].min? = some lo ∧
        [(1 : ℚ), 3, 2].max? = some hi ∧ Numerics.runnable.round 4 lo ≤ y ∧
          y ≤ Numerics.runnable.round 4 hi) ∧
      ∀ y, some y ∈ (kdj .runnable [1, 3, 2] 2).j → -200 ≤ y ∧ y ≤ 300 := by
  have h := smoothed_in_range (N := .runnable) (fun n => Decimal.roundTo_mono n)
    fun n z => Decimal.roundTo_intCast n z
  refine ⟨fun n => Decimal.roundTo_mono n, fun n z => Decimal.roundTo_intCast n z,
    h.1 [1, 3, 2] 12 2 (by decide) (by decide), ?_⟩
  intro y
  exact (h.2 [1, 3, 2] 2 3 3 (by decide) (by decide) (by decide) y).2.2

end Indicators

end QuantFlow
