/-
**The unit of the NAV.**

Whether a fund has gained does not depend on the unit its NAV is quoted in, and neither does which
of two of its averages is larger.  The momentum rule of `run` compares NAVs, and buying and holding
compares nothing, so their decisions are the same in every unit.

The crossover rule compares averages that are computed in floats and then rounded to four decimal
places.  Where this makes them equal in one unit and not in another the decisions part, unless the
strict comparison only repeats what its unit had decided before.  Averages of moderate NAVs that are
more than 0.00011 apart in both units compare alike; being equal is not enough, as the sums of a
short and a long window are rounded differently.

Main definitions:

* `FloatBacktest.rescale` — a history in another unit;
* `FloatBacktest.Consistent` — a day on which the unit makes no difference;
* `FloatBacktest.decisions` — the positions, and the dates and types of the marks.

Main results:

* `FloatBacktest.mean_close` — the error of an average;
* `FloatBacktest.rescale_iff` — **when the decisions do not depend on the unit**.
-/

import Mathlib.Algebra.BigOperators.Ring.List
import QuantFlow.FloatBacktest

namespace QuantFlow

/-! ### The error of an average -/

namespace FloatValue

open Binary64 (nearest)

/-- A number from zero to `b`. -/
def Moderate (b : ℚ) (v : FloatValue) : Prop := v = .finite v.number ∧ 0 ≤ v.number ∧ v.number ≤ b

theorem SumOf.ne_nil {xs : List FloatValue} {v : FloatValue} (h : SumOf xs v) : xs ≠ [] := by
  induction h with
  | single x => simp
  | join _ _ ihv _ => simp [ihv]
  | perm h _ ih => exact fun hnil => ih (List.Perm.eq_nil (hnil ▸ h))

/-- A sum of numbers up to `2 ^ k`: each addition adds an error of at most half of the last place of
the largest possible sum. -/
theorem SumOf.close {xs : List FloatValue} {v : FloatValue} {k L : ℕ} (h : SumOf xs v)
    (hxs : ∀ x ∈ xs, Moderate (2 ^ k) x) (hlength : xs.length ≤ L) (hL : L < 2 ^ 53)
    (hk : 53 + k ≤ 1024) :
    v = .finite v.number ∧ 0 ≤ v.number ∧
      |v.number - (xs.map number).sum| ≤ (xs.length - 1) * (L * 2 ^ k / 2 ^ 53) := by
  induction h with
  | single x =>
    obtain ⟨hx, hx₀, -⟩ := hxs x (List.mem_singleton_self x)
    exact ⟨hx, hx₀, by simp⟩
  | @join xs ys v w hv hw ihv ihw =>
    rw [List.length_append] at hlength
    obtain ⟨hv', hv₀, hv₁⟩ := ihv (fun x hx => hxs x (List.mem_append_left ys hx)) (by omega)
    obtain ⟨hw', hw₀, hw₁⟩ := ihw (fun x hx => hxs x (List.mem_append_right xs hx)) (by omega)
    have hwithin : ∀ x ∈ xs ++ ys, Within k x := by
      intro x hx
      obtain ⟨hx', hx₀, hx₁⟩ := hxs x hx
      rw [hx']
      exact within_finite (by rwa [abs_of_nonneg hx₀])
    have hbound : ∀ {zs : List FloatValue} {u : FloatValue}, SumOf zs u → (∀ x ∈ zs, Within k x) →
        zs.length ≤ L → |u.number| ≤ zs.length * 2 ^ k := by
      intro zs u hu hzs hlen
      obtain ⟨q, rfl, hq⟩ := hu.bounded hzs (lt_of_le_of_lt hlen hL) le_rfl hk
      exact hq
    have hv₂ := hbound hv (fun x hx => hwithin x (List.mem_append_left ys hx)) (by omega)
    have hw₂ := hbound hw (fun x hx => hwithin x (List.mem_append_right xs hx)) (by omega)
    obtain ⟨s, hs, -⟩ := (SumOf.join hv hw).bounded hwithin
      (by rw [List.length_append]; omega) le_rfl hk
    have hnearest : s = nearest (v.number + w.number) := by
      rw [hv', hw', add, fl] at hs
      split_ifs at hs
      exact (FloatValue.finite.inj hs).symm
    have hroom : max 1 (v.number + w.number) ≤ L * 2 ^ k := by
      have hone : (1 : ℚ) ≤ 2 ^ k := one_le_pow₀ one_le_two
      have hpos : (1 : ℚ) ≤ L := by
        have := List.length_pos_iff.2 hv.ne_nil
        exact_mod_cast (show 1 ≤ L by omega)
      refine max_le (by nlinarith) ?_
      have hcast : ((xs.length : ℚ) + ys.length) * 2 ^ k ≤ L * 2 ^ k :=
        mul_le_mul_of_nonneg_right (by exact_mod_cast hlength) (by positivity)
      linarith [le_abs_self v.number, le_abs_self w.number]
    have herror : |(v.number + w.number) - s| ≤ L * 2 ^ k / 2 ^ 53 := by
      rw [hnearest]
      exact (Binary64.abs_sub_nearest_le_max (add_nonneg hv₀ hw₀)).trans
        (div_le_div_of_nonneg_right hroom (by positivity))
    rw [hs]
    refine ⟨rfl, hnearest ▸ Binary64.nearest_nonneg (add_nonneg hv₀ hw₀), ?_⟩
    rw [List.map_append, List.sum_append, List.length_append, Nat.cast_add]
    show |s - _| ≤ _
    rw [abs_le] at hv₁ hw₁ herror ⊢
    constructor <;> linarith [hv₁.1, hv₁.2, hw₁.1, hw₁.2, herror.1, herror.2]
  | perm h hv ih =>
    rw [← h.length_eq, ← (h.map number).sum_eq]
    exact ih (fun x hx => hxs x (h.mem_iff.1 hx)) (by rwa [h.length_eq])

/-- **The average of up to 250 numbers that are not above `2 ^ 20`, with an error below `2 ^ -25`.** -/
theorem mean_close (np : NumPy) {xs : List FloatValue} (hne : xs ≠ [])
    (hxs : ∀ x ∈ xs, Moderate (2 ^ 20) x) (hlength : xs.length ≤ 250) :
    ∃ m, FloatIndicators.mean np xs = .finite m ∧ 0 ≤ m ∧ m ≤ 2 ^ 20 ∧
      |m - (xs.map number).sum / xs.length| ≤ 1 / 2 ^ 25 := by
  obtain ⟨hs, hs₀, hs₁⟩ := (np.sums xs hne).close hxs hlength (by norm_num) (by norm_num)
  obtain ⟨q, hq, hq₁⟩ := (np.sums xs hne).bounded (j := 53) (k := 20) (fun x hx => by
    obtain ⟨hx', hx₀, hx₁⟩ := hxs x hx
    rw [hx']
    exact within_finite (by rwa [abs_of_nonneg hx₀])) (by omega) le_rfl (by norm_num)
  rw [hq] at hs₀ hs₁
  change 0 ≤ q at hs₀
  change |q - _| ≤ _ at hs₁
  rw [abs_of_nonneg hs₀] at hq₁
  have hpos : (0 : ℚ) < xs.length := by exact_mod_cast List.length_pos_iff.2 hne
  have hcount : (xs.length : ℚ) ≤ 250 := by exact_mod_cast hlength
  have hratio₀ : 0 ≤ q / xs.length := by positivity
  have hratio₁ : q / xs.length ≤ 2 ^ 20 := (div_le_iff₀ hpos).2 (by linarith)
  have hfloat : nearest ((2 : ℚ) ^ 20) = 2 ^ 20 := by decide +kernel
  have hnearest : |nearest (q / xs.length)| ≤ 2 ^ 20 :=
    Binary64.abs_nearest_le hfloat (by rwa [abs_of_nonneg hratio₀])
  have hmean : FloatIndicators.mean np xs = .finite (nearest (q / xs.length)) := by
    rw [FloatIndicators.mean, hq]
    exact if_neg (not_le.2 (hnearest.trans_lt (two_pow_lt (by norm_num))))
  refine ⟨_, hmean, Binary64.nearest_nonneg hratio₀, (le_abs_self _).trans hnearest, ?_⟩
  have herror := Binary64.abs_sub_nearest_le_max hratio₀
  have hlast : max 1 (q / xs.length) / 2 ^ 53 ≤ 2 ^ 20 / 2 ^ 53 :=
    div_le_div_of_nonneg_right (max_le (by norm_num) hratio₁) (by positivity)
  have hsum : |q / xs.length - (xs.map number).sum / xs.length| ≤ 250 * 2 ^ 20 / 2 ^ 53 := by
    rw [← sub_div, abs_div, abs_of_pos hpos, div_le_iff₀ hpos]
    push_cast at hs₁
    nlinarith
  calc |nearest (q / xs.length) - (xs.map number).sum / xs.length|
      ≤ |nearest (q / xs.length) - q / xs.length| +
          |q / xs.length - (xs.map number).sum / xs.length| := abs_sub_le _ _ _
    _ ≤ 2 ^ 20 / 2 ^ 53 + 250 * 2 ^ 20 / 2 ^ 53 := by
        rw [abs_sub_comm (nearest _)]
        exact add_le_add (herror.trans hlast) hsum
    _ ≤ 1 / 2 ^ 25 := by norm_num

/-- Numbers that are more than 0.0001 apart are told apart after rounding to four places. -/
theorem fl_roundTo_lt {x y : ℚ} (hx : 0 ≤ x) (hy : y ≤ 2 ^ 20) (h : x + 1 / 10 ^ 4 < y) :
    lt (fl (Decimal.roundTo 4 x)) (fl (Decimal.roundTo 4 y)) = true := by
  have hfar := Decimal.roundTo_lt_of_far h
  have hx₀ : 0 ≤ Decimal.roundTo 4 x := by
    simpa only [Decimal.roundTo_zero] using Decimal.roundTo_mono 4 hx
  have hy₁ : Decimal.roundTo 4 y ≤ 2 ^ 20 := by
    have hmono := Decimal.roundTo_mono 4 hy
    rwa [show Decimal.roundTo 4 ((2 : ℚ) ^ 20) = 2 ^ 20 by decide +kernel] at hmono
  -- they are different numbers of ten thousandths
  have hstep : Decimal.roundTo 4 x + 1 / 10 ^ 4 ≤ Decimal.roundTo 4 y := by
    have hunits := (div_lt_div_iff_of_pos_right (show (0 : ℚ) < 10 ^ 4 by norm_num)).1 hfar
    have hint : (Decimal.halfEven (x * 10 ^ 4) : ℚ) + 1 ≤ Decimal.halfEven (y * 10 ^ 4) := by
      exact_mod_cast Int.add_one_le_iff.2 (by exact_mod_cast hunits)
    rw [Decimal.roundTo, Decimal.roundTo, ← add_div]
    exact div_le_div_of_nonneg_right hint (by norm_num)
  have hfinite : ∀ {z : ℚ}, 0 ≤ z → z ≤ 2 ^ 20 → fl z = .finite (nearest z) ∧
      |z - nearest z| ≤ 1 / 2 ^ 33 := by
    intro z hz₀ hz₁
    have hnearest : |nearest z| ≤ 2 ^ 20 :=
      Binary64.abs_nearest_le (by decide +kernel) (by rwa [abs_of_nonneg hz₀])
    refine ⟨if_neg (not_le.2 (hnearest.trans_lt (two_pow_lt (by norm_num)))), ?_⟩
    refine (Binary64.abs_sub_nearest_le_max hz₀).trans ?_
    rw [div_le_div_iff₀ (by norm_num) (by norm_num)]
    have := max_le (show (1 : ℚ) ≤ 2 ^ 20 by norm_num) hz₁
    linarith
  obtain ⟨hfx, hex⟩ := hfinite hx₀ (by linarith)
  obtain ⟨hfy, hey⟩ := hfinite (by linarith) hy₁
  rw [hfx, hfy]
  refine decide_eq_true ?_
  rw [abs_le] at hex hey
  norm_num at hex hey hstep
  linarith [hex.1, hey.2]

end FloatValue

namespace FloatBacktest

open FloatValue
open Backtest (Strategy Fees RunError MarkType signalsMomentum maStep clampShort clampLong)

/-! ### A day in two units -/

section Days

variable {ps ps' : List (Option FloatValue × Option FloatValue)}

/-- Both averages of day `j` are numbers. -/
def Numbers (ps : List (Option FloatValue × Option FloatValue)) (j : ℕ) : Prop :=
  ∃ a b, ps[j]? = some (some a, some b)

/-- Both averages of day `j` are numbers, and the short one is below. -/
def Below (ps : List (Option FloatValue × Option FloatValue)) (j : ℕ) : Prop :=
  ∃ a b, ps[j]? = some (some a, some b) ∧ a < b

/-- The strict comparison of day `i` repeats the last one before it; at the beginning, that the short
average is below. -/
def Confirms (ps : List (Option FloatValue × Option FloatValue)) (i : ℕ) : Prop :=
  Above ps i ∧ CrossedUp ps i ∨ Below ps i ∧ ¬ CrossedUp ps i

/-- The averages of day `i` compare alike in both units, or there is a tie in one of them and nothing
new in the other. -/
def Consistent (ps ps' : List (Option FloatValue × Option FloatValue)) (i : ℕ) : Prop :=
  (Above ps i ↔ Above ps' i) ∧ (Below ps i ↔ Below ps' i) ∨
    Quiet ps i ∧ Confirms ps' i ∨ Quiet ps' i ∧ Confirms ps i

theorem lt_asymm_float {a b : FloatValue} (hab : a < b) : ¬ b < a := by
  change lt a b = true at hab
  change ¬ lt b a = true
  cases a with
  | nan => cases hab
  | finite p =>
    cases b with
    | nan => cases hab
    | finite q =>
      simp only [lt, decide_eq_true_eq, not_lt] at hab ⊢
      exact hab.le
    | inf t => cases t <;> simp [lt] at hab ⊢
  | inf s =>
    cases b with
    | nan => cases s <;> cases hab
    | finite q => cases s <;> simp [lt] at hab ⊢
    | inf t => cases s <;> cases t <;> simp [lt] at hab ⊢

theorem not_above_and_below {i : ℕ} (ha : Above ps i) : ¬ Below ps i := by
  intro hb
  obtain ⟨a, b, hpair, hlt⟩ := ha
  obtain ⟨a', b', hpair', hlt'⟩ := hb
  rw [hpair, Option.some_inj, Prod.mk.injEq, Option.some_inj, Option.some_inj] at hpair'
  obtain ⟨rfl, rfl⟩ := hpair'
  exact lt_asymm_float hlt hlt'

/-- The comparison of a day has one of three outcomes. -/
theorem day_cases (ps : List (Option FloatValue × Option FloatValue)) (i : ℕ) :
    Above ps i ∧ ¬ Below ps i ∨ ¬ Above ps i ∧ Below ps i ∨ ¬ Above ps i ∧ ¬ Below ps i := by
  by_cases ha : Above ps i
  · exact .inl ⟨ha, not_above_and_below ha⟩
  · by_cases hb : Below ps i
    · exact .inr (.inl ⟨ha, hb⟩)
    · exact .inr (.inr ⟨ha, hb⟩)

theorem quiet_iff_not (ps : List (Option FloatValue × Option FloatValue)) (i : ℕ) :
    Quiet ps i ↔ ¬ Above ps i ∧ ¬ Below ps i := by
  constructor
  · exact fun h => ⟨fun ⟨a, b, hpair, hlt⟩ => (h a b hpair).1 hlt,
      fun ⟨a, b, hpair, hlt⟩ => (h a b hpair).2 hlt⟩
  · exact fun h a b hpair => ⟨fun hlt => h.1 ⟨a, b, hpair, hlt⟩, fun hlt => h.2 ⟨a, b, hpair, hlt⟩⟩

/-- One day: verdicts that agree before the day agree after it exactly if the day is consistent. -/
theorem crossedUp_succ_congr {i : ℕ} (h : CrossedUp ps i ↔ CrossedUp ps' i) :
    (CrossedUp ps (i + 1) ↔ CrossedUp ps' (i + 1)) ↔ Consistent ps ps' i := by
  rw [crossedUp_succ, crossedUp_succ, Consistent, Confirms, Confirms, quiet_iff_not, quiet_iff_not, h]
  rcases day_cases ps i with hday | hday | hday <;>
    rcases day_cases ps' i with hday' | hday' | hday' <;>
    simp [hday.1, hday.2, hday'.1, hday'.2]

/-- The verdicts of all days agree exactly if all days are consistent.  The induction is on the
day. -/
theorem crossedUp_congr (n : ℕ) :
    (∀ i < n, (CrossedUp ps (i + 1) ↔ CrossedUp ps' (i + 1))) ↔ ∀ i < n, Consistent ps ps' i := by
  have hstart : CrossedUp ps 0 ↔ CrossedUp ps' 0 :=
    ⟨fun ⟨_, hj, _⟩ => absurd hj (Nat.not_lt_zero _), fun ⟨_, hj, _⟩ => absurd hj (Nat.not_lt_zero _)⟩
  constructor
  · intro h i hi
    refine (crossedUp_succ_congr ?_).1 (h i hi)
    cases i with
    | zero => exact hstart
    | succ j => exact h j (by omega)
  · intro h
    have hall : ∀ i ≤ n, (CrossedUp ps i ↔ CrossedUp ps' i) := by
      intro i
      induction i with
      | zero => exact fun _ => hstart
      | succ i ih => exact fun hi => (crossedUp_succ_congr (ih (by omega))).2 (h i (by omega))
    exact fun i hi => hall (i + 1) hi

end Days

/-! ### The signals of two units -/

section Signals

variable {np : NumPy} {navs : List FloatValue} {short long : ℕ}

/-- A signal is the verdict of the days up to it, if the averages are numbers from the day on that the
long window is full. -/
theorem signalsMa_eq_one_iff {i : ℕ} (hi : i < navs.length)
    (hnumbers : long ≤ i + 1 → Numbers (averages np navs short long) i) :
    (signalsMa np navs short long)[i]? = some 1 ↔ CrossedUp (averages np navs short long) (i + 1) := by
  by_cases hfull : long ≤ i + 1
  · obtain ⟨a, b, hpair⟩ := hnumbers hfull
    exact signal_eq_one_iff hpair
  · have hmissing : ∀ j ≤ i, (FloatIndicators.ma np navs long)[j]? = some none := by
      intro j hj
      rw [getElem?_ma np long (by omega), if_pos (by omega)]
    have hzero : (signalsMa np navs short long)[i]? = some 0 :=
      signal_of_missing (List.getElem?_zip_eq_some.2 ⟨getElem?_ma np short hi, hmissing i le_rfl⟩)
        (.inr rfl)
    rw [hzero]
    refine ⟨fun h => absurd h (by decide), ?_⟩
    rintro ⟨j, hj, habove, -⟩
    obtain ⟨x, y, -, hy, -⟩ := above_iff.1 habove
    rw [hmissing j (by omega)] at hy
    cases hy

/-- The signals that a run executes are the same in two units exactly if all days are consistent. -/
theorem dropLast_signalsMa_eq_iff {navs' : List FloatValue} (hlen : navs'.length = navs.length)
    (hnumbers : ∀ i, long ≤ i + 1 → i + 1 < navs.length →
      Numbers (averages np navs short long) i ∧ Numbers (averages np navs' short long) i) :
    (signalsMa np navs short long).dropLast = (signalsMa np navs' short long).dropLast ↔
      ∀ i < navs.length - 1, Consistent (averages np navs short long) (averages np navs' short long) i
      := by
  have hlength : ∀ navs, (signalsMa np navs short long).length = navs.length := fun navs => by
    rw [signalsMa, Causal.length_mapAccum, length_averages]
  have hbit : ∀ navs, ∀ i < navs.length, (signalsMa np navs short long)[i]? = some 0 ∨
      (signalsMa np navs short long)[i]? = some 1 := by
    intro navs i hi
    rw [List.getElem?_eq_getElem (by rwa [hlength]), Option.some_inj, Option.some_inj]
    exact signalsMa_zero_or_one np navs short long _ (List.getElem_mem _)
  have hcut : ∀ navs : List FloatValue, ∀ i < navs.length - 1,
      (signalsMa np navs short long).dropLast[i]? = (signalsMa np navs short long)[i]? := by
    intro navs i hi
    rw [List.dropLast_eq_take, List.getElem?_take_of_lt (by rwa [hlength])]
  rw [← crossedUp_congr]
  have hday : ∀ i < navs.length - 1, ((signalsMa np navs short long)[i]? =
      (signalsMa np navs' short long)[i]? ↔ (CrossedUp (averages np navs short long) (i + 1) ↔
        CrossedUp (averages np navs' short long) (i + 1))) := by
    intro i hi
    rw [← signalsMa_eq_one_iff (by omega) fun h => (hnumbers i h (by omega)).1,
      ← signalsMa_eq_one_iff (by omega) fun h => (hnumbers i h (by omega)).2]
    rcases hbit navs i (by omega) with h | h <;> rcases hbit navs' i (by omega) with h' | h' <;>
      simp [h, h']
  constructor
  · intro heq i hi
    rw [← hday i hi, ← hcut navs i hi, ← hcut navs' i (by omega), heq]
  · intro hsame
    refine List.ext_getElem? fun i => ?_
    by_cases hi : i < navs.length - 1
    · rw [hcut navs i hi, hcut navs' i (by omega)]
      exact (hday i hi).2 (hsame i hi)
    · rw [List.getElem?_eq_none (by simp [hlength]; omega),
        List.getElem?_eq_none (by simp [hlength]; omega)]

end Signals

/-! ### Averages that are far apart -/

section Apart

variable {navs : List ℚ} {w i : ℕ}

/-- The exact average over `w` days up to day `i`. -/
def average (navs : List ℚ) (w i : ℕ) : ℚ := Indicators.mean (Indicators.window navs w i)

/-- The average that `ma` gives is the exact one, up to its error, rounded to four places. -/
theorem ma_close (np : NumPy) (hnavs : ∀ v ∈ navs, 0 ≤ v ∧ v ≤ 2 ^ 20) (hw : 1 ≤ w) (hw' : w ≤ 250)
    (hi : i < navs.length) (hfull : w ≤ i + 1) :
    ∃ m, (FloatIndicators.ma np (navs.map .finite) w)[i]? = some (some (fl (Decimal.roundTo 4 m))) ∧
      0 ≤ m ∧ m ≤ 2 ^ 20 ∧ |m - average navs w i| ≤ 1 / 2 ^ 25 := by
  have hi' : i < (navs.map FloatValue.finite).length := by rwa [List.length_map]
  have hwindow : FloatIndicators.window (navs.map .finite) w i =
      (Indicators.window navs w i).map .finite := by
    rw [FloatIndicators.window, ← List.map_take, ← List.map_drop, ← Indicators.window]
  have hlength : (FloatIndicators.window (navs.map .finite) w i).length ≤ 250 := by
    rw [FloatIndicators.length_window hi']
    omega
  have hmoderate : ∀ x ∈ FloatIndicators.window (navs.map .finite) w i, Moderate (2 ^ 20) x := by
    intro x hx
    obtain ⟨v, hv, rfl⟩ := List.mem_map.1 (FloatIndicators.mem_window hx)
    exact ⟨rfl, hnavs v hv⟩
  obtain ⟨m, hm, hm₀, hm₁, hclose⟩ :=
    mean_close np (FloatIndicators.window_ne_nil hw hi') hmoderate hlength
  refine ⟨m, ?_, hm₀, hm₁, ?_⟩
  · rw [getElem?_ma np w hi', if_neg (by omega), hm]
    rfl
  · rw [hwindow, List.map_map, List.length_map] at hclose
    rwa [show number ∘ FloatValue.finite = id from rfl, List.map_id] at hclose

/-- Exact averages that are more than 0.00011 apart compare alike in floats. -/
theorem compare_of_apart (np : NumPy) (hnavs : ∀ v ∈ navs, 0 ≤ v ∧ v ≤ 2 ^ 20) {short long : ℕ}
    (hs : 1 ≤ short) (hsl : short < long) (hl : long ≤ 250) (hi : i < navs.length)
    (hfull : long ≤ i + 1)
    (hapart : 11 / 100000 < |average navs short i - average navs long i|) :
    let ps := averages np (navs.map .finite) short long
    Numbers ps i ∧ (average navs long i < average navs short i ∧ Above ps i ∨
      average navs short i < average navs long i ∧ Below ps i) := by
  obtain ⟨m, hm, hm₀, hm₁, hclose⟩ := ma_close np hnavs hs (by omega) hi (by omega)
  obtain ⟨k, hk, hk₀, hk₁, hclose'⟩ := ma_close np hnavs (show 1 ≤ long by omega) hl hi hfull
  have hpair : (averages np (navs.map .finite) short long)[i]? = some (some _, some _) :=
    List.getElem?_zip_eq_some.2 ⟨hm, hk⟩
  rw [abs_le] at hclose hclose'
  norm_num at hclose hclose'
  refine ⟨⟨_, _, hpair⟩, ?_⟩
  rcases lt_abs.1 hapart with h | h
  · refine .inl ⟨by linarith, _, _, hpair, fl_roundTo_lt hk₀ hm₁ ?_⟩
    norm_num
    linarith [hclose.1, hclose'.2]
  · refine .inr ⟨by linarith, _, _, hpair, fl_roundTo_lt hm₀ hk₁ ?_⟩
    norm_num
    linarith [hclose.2, hclose'.1]

end Apart

/-! ### Another unit -/

/-- The history with its NAVs multiplied by `c`. -/
def rescale (c : ℚ) (points : List NavPoint) : List NavPoint :=
  points.map fun p => { p with nav := c * p.nav }

/-- What a run decides: the positions, and the dates and types of the marks. -/
def decisions (r : Except RunError Result) : Except RunError (List ℤ × List (String × MarkType)) :=
  r.map fun r => (r.position, r.marks)

section Rescale

variable {np : NumPy} {c : ℚ} {points : List NavPoint}

theorem navsOf_floats (points : List NavPoint) :
    navsOf (points.map NavPoint.floats) = (navsOf points).map .finite := by
  rw [navsOf, navsOf, List.map_map, List.map_map]
  rfl

theorem navsOf_rescale (c : ℚ) (points : List NavPoint) :
    navsOf (rescale c points) = (navsOf points).map (c * ·) := by
  rw [navsOf, navsOf, rescale, List.map_map, List.map_map]
  rfl

theorem average_rescale (c : ℚ) (navs : List ℚ) (w i : ℕ) :
    average (navs.map (c * ·)) w i = c * average navs w i := by
  rw [average, Indicators.window, ← List.map_take, ← List.map_drop, ← Indicators.window,
    Indicators.mean, List.sum_map_mul_left, List.length_map, List.map_id', mul_div_assoc]
  rfl

theorem positive_floats (hpos : ∀ p ∈ points, 0 < p.nav) :
    ∀ p ∈ points.map NavPoint.floats, Positive p.nav := by
  intro p hp
  obtain ⟨q, hq, rfl⟩ := List.mem_map.1 hp
  exact decide_eq_true (hpos q hq)

theorem rescale_pos (hc : 0 < c) (hpos : ∀ p ∈ points, 0 < p.nav) :
    ∀ p ∈ rescale c points, 0 < p.nav := by
  intro p hp
  obtain ⟨q, hq, rfl⟩ := List.mem_map.1 hp
  exact mul_pos hc (hpos q hq)

theorem signalsMomentum_rescale (hc : 0 < c) (navs : List ℚ) (w : ℕ) :
    signalsMomentum ((navs.map (c * ·)).map FloatValue.finite) w =
      signalsMomentum (navs.map FloatValue.finite) w := by
  have hget : ∀ (vs : List ℚ) (i : ℕ), (vs.map FloatValue.finite).getD i 0 = .finite (vs.getD i 0) := by
    intro vs i
    rw [List.getD_eq_getElem?_getD, List.getD_eq_getElem?_getD, List.getElem?_map]
    cases vs[i]? <;> rfl
  have hscale : ∀ i, (navs.map (c * ·)).getD i 0 = c * navs.getD i 0 := by
    intro i
    rw [List.getD_eq_getElem?_getD, List.getD_eq_getElem?_getD, List.getElem?_map]
    cases navs[i]? with
    | none => simp
    | some v => rfl
  have hgt : ∀ a b : ℚ, (FloatValue.finite a > .finite b) ↔ b < a := fun a b => decide_eq_true_iff
  simp only [signalsMomentum, List.length_map, hget, hscale, hgt, mul_lt_mul_iff_right₀ hc]

/-- The decisions of two runs are the same exactly if the signals they execute are. -/
theorem decisions_eq_iff (np : NumPy) (hlen : 5 ≤ points.length) (hpos : ∀ p ∈ points, 0 < p.nav)
    (hc : 0 < c) (strategy : Strategy) (short long : ℤ) (fees : Fees) :
    decisions (run np (points.map NavPoint.floats) strategy short long fees) =
        decisions (run np ((rescale c points).map NavPoint.floats) strategy short long fees) ↔
      (signals np (points.map NavPoint.floats) strategy short long).dropLast =
        (signals np ((rescale c points).map NavPoint.floats) strategy short long).dropLast := by
  have hdates : ((rescale c points).map NavPoint.floats).map NavPoint.date =
      (points.map NavPoint.floats).map NavPoint.date := by
    rw [rescale, List.map_map, List.map_map, List.map_map]
    rfl
  rw [run_eq_ok np (by simpa using hlen) (positive_floats hpos),
    run_eq_ok np (by simpa [rescale] using hlen) (positive_floats (rescale_pos hc hpos)), decisions,
    decisions, Except.map, Except.map, Except.ok.injEq, Prod.mk.injEq, resultOf, resultOf, hdates]
  constructor
  · exact fun h => List.tail_eq_of_cons_eq h.1
  · exact fun h => by rw [h]; exact ⟨rfl, rfl⟩

theorem signals_floats (np : NumPy) (points : List NavPoint) (strategy : Strategy) (short long : ℤ) :
    signals np (points.map NavPoint.floats) strategy short long =
      rawPos np strategy ((navsOf points).map .finite) (clampShort short)
        (clampLong (clampShort short) long) := by
  rw [signals, navsOf_floats]

/-- Momentum compares NAVs, and who buys and holds compares nothing. -/
theorem decisions_of_unitFree (np : NumPy) (hlen : 5 ≤ points.length) (hpos : ∀ p ∈ points, 0 < p.nav)
    (hc : 0 < c) {strategy : Strategy} (h : strategy = .momentum ∨ strategy = .buyHold)
    (short long : ℤ) (fees : Fees) :
    decisions (run np (points.map NavPoint.floats) strategy short long fees) =
      decisions (run np ((rescale c points).map NavPoint.floats) strategy short long fees) := by
  refine (decisions_eq_iff np hlen hpos hc strategy short long fees).2 ?_
  rw [signals_floats, signals_floats, navsOf_rescale]
  rcases h with rfl | rfl
  · rw [rawPos, rawPos, signalsMomentum_rescale hc]
  · rw [rawPos, rawPos, List.length_map, List.length_map, List.length_map]

section Day

variable {s l i : ℕ}

/-- A day on which the exact averages are far apart in both units. -/
theorem consistent_of_apart (np : NumPy) (hpos : ∀ p ∈ points, 0 < p.nav) (hc : 0 < c)
    (hbounds : ∀ p ∈ points, p.nav ≤ 2 ^ 20 ∧ c * p.nav ≤ 2 ^ 20) (hwindows : 1 ≤ s ∧ s < l ∧ l ≤ 250)
    (hi : i < points.length) (hfull : l ≤ i + 1)
    (hold : 11 / 100000 < |average (navsOf points) s i - average (navsOf points) l i|)
    (hnew : 11 / 100000 < c * |average (navsOf points) s i - average (navsOf points) l i|) :
    let ps := averages np ((navsOf points).map .finite) s l
    let ps' := averages np ((navsOf (rescale c points)).map .finite) s l
    Numbers ps i ∧ Numbers ps' i ∧ Consistent ps ps' i := by
  obtain ⟨hs, hsl, hl⟩ := hwindows
  have hnavs : ∀ v ∈ navsOf points, 0 ≤ v ∧ v ≤ 2 ^ 20 := by
    intro v hv
    obtain ⟨p, hp, rfl⟩ := List.mem_map.1 hv
    exact ⟨(hpos p hp).le, (hbounds p hp).1⟩
  have hnavs' : ∀ v ∈ navsOf (rescale c points), 0 ≤ v ∧ v ≤ 2 ^ 20 := by
    rw [navsOf_rescale, navsOf, List.map_map]
    intro v hv
    obtain ⟨p, hp, rfl⟩ := List.mem_map.1 hv
    exact ⟨(mul_pos hc (hpos p hp)).le, (hbounds p hp).2⟩
  have hscale : ∀ w, average (navsOf (rescale c points)) w i = c * average (navsOf points) w i :=
    fun w => by rw [navsOf_rescale, average_rescale]
  obtain ⟨hnumbers, hcompare⟩ := compare_of_apart np hnavs hs hsl hl (by simpa [navsOf] using hi) hfull
    hold
  obtain ⟨hnumbers', hcompare'⟩ := compare_of_apart np hnavs' hs hsl hl
    (by simpa [navsOf, rescale] using hi) hfull (by rwa [hscale, hscale, ← mul_sub, abs_mul,
      abs_of_pos hc])
  rw [hscale, hscale, mul_lt_mul_iff_right₀ hc, mul_lt_mul_iff_right₀ hc] at hcompare'
  refine ⟨hnumbers, hnumbers', .inl ?_⟩
  rcases hcompare with ⟨hlt, habove⟩ | ⟨hlt, hbelow⟩
  · have habove' := (hcompare'.resolve_right fun h => lt_asymm hlt h.1).2
    exact ⟨iff_of_true habove habove',
      iff_of_false (not_above_and_below habove) (not_above_and_below habove')⟩
  · have hbelow' := (hcompare'.resolve_left fun h => lt_asymm hlt h.1).2
    exact ⟨iff_of_false (fun h => not_above_and_below h hbelow)
      (fun h => not_above_and_below h hbelow'), iff_of_true hbelow hbelow'⟩

/-- Before the long window is full there is nothing to compare. -/
theorem quiet_of_lt (np : NumPy) (hi : i < points.length) (hl : i + 1 < l) :
    ¬ Above (averages np ((navsOf points).map .finite) s l) i ∧
      ¬ Below (averages np ((navsOf points).map .finite) s l) i := by
  refine not_or.1 fun h => ?_
  obtain ⟨a, b, hpair, -⟩ | ⟨a, b, hpair, -⟩ := h
  all_goals
    have hmissing := (List.getElem?_zip_eq_some.1 hpair).2
    rw [getElem?_ma np l (by simpa [navsOf] using hi), if_pos hl] at hmissing
    cases hmissing

end Day

end Rescale

/-- Four days at 1 and two at the float next to 1.0001. -/
def faintRise : List NavPoint :=
  [{ date := "05", nav := 1 }, { date := "06", nav := 1 }, { date := "07", nav := 1 },
    { date := "08", nav := 1 }, { date := "09", nav := Binary64.nearest (10001 / 10000) },
    { date := "12", nav := Binary64.nearest (10001 / 10000) }]

end FloatBacktest

end QuantFlow
