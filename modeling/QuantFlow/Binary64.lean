/-
**Rounding to binary64.**

The nearest number with 53 binary digits, ties to even, whose last digit is not below `2 ^ (-1074)`.
There is no upper end to the numbers here: the format has one, and a result from `2 ^ 1024` on is an
overflow there.  What programs rely on is that rounding is monotone and leaves the numbers of the
format alone, so that it crosses none of them.

Main definitions:

* `exponent` — the place of the last digit that is kept;
* `nearest` — the rounded number.

Main results:

* `nearest_mono`, `nearest_neg` — **rounding is monotone** and odd;
* `nearest_mul_two_zpow`, `nearest_two_pow_mul`, `nearest_nearest` — numbers it leaves alone;
* `nearest_mem_Icc`, `abs_nearest_le`, `two_zpow_le_nearest` — the bounds it keeps;
* `abs_nearest_le_two_pow` — **a bound that is a power of two absorbs half of the last place**;
* `nearest_eq_mul`, `nearest_ne_zero` — the smallest place;
* `floor_nearest_div`, `halfEven_nearest_div` — **a rounded quotient of whole
  numbers** below `2 ^ 52` has the integer part and the nearest integer of the exact one.
-/

import Mathlib.Data.Int.Log
import Mathlib.Data.Nat.Cast.Order.Field
import QuantFlow.DecimalRounding

namespace Binary64

open Decimal (halfEven halfEven_mono halfEven_intCast halfEven_neg)

/-- The binary place of the last digit that is kept. -/
def exponent (x : ℚ) : ℤ := max (Int.log 2 |x| - 52) (-1074)

/-- The number with digits up to that place that is nearest to `x`, ties to even. -/
def nearest (x : ℚ) : ℚ := halfEven (x / 2 ^ exponent x) * 2 ^ exponent x

theorem unit_pos (x : ℚ) : (0 : ℚ) < 2 ^ exponent x := zpow_pos two_pos _

/-! ### The last place -/

theorem two_zpow_log_le {x : ℚ} (h : 0 < x) : (2 : ℚ) ^ Int.log 2 x ≤ x := by
  simpa using Int.zpow_log_le_self (b := 2) one_lt_two h

theorem lt_two_zpow_log (x : ℚ) : x < (2 : ℚ) ^ (Int.log 2 x + 1) := by
  simpa using Int.lt_zpow_succ_log_self (b := 2) one_lt_two x

/-- A number below `2 ^ (k + 53)` has digits at the place `k`. -/
theorem exponent_le {x : ℚ} {k : ℤ} (hx : x ≠ 0) (hk : -1074 ≤ k) (h : |x| < 2 ^ (k + 53)) :
    exponent x ≤ k := by
  have hlog : Int.log 2 |x| < k + 53 :=
    (Int.lt_zpow_iff_log_lt one_lt_two (abs_pos.2 hx)).1 (by simpa using h)
  unfold exponent
  omega

/-- A power of two that is not below a place has digits up to it. -/
theorem two_zpow_eq {e k : ℤ} (h : e ≤ k) : ∃ n : ℤ, (2 : ℚ) ^ k = n * 2 ^ e := by
  refine ⟨2 ^ (k - e).toNat, ?_⟩
  have hsplit : k = ((k - e).toNat : ℤ) + e := by omega
  conv_lhs => rw [hsplit, zpow_add₀ two_ne_zero, zpow_natCast]
  push_cast
  rfl

/-- Rounding does not go below a number with digits up to the place. -/
theorem le_nearest {x : ℚ} (n : ℤ) (h : n * 2 ^ exponent x ≤ x) : n * 2 ^ exponent x ≤ nearest x := by
  have hscaled : (n : ℚ) ≤ x / 2 ^ exponent x := (le_div_iff₀ (unit_pos x)).2 h
  have hround : n ≤ halfEven (x / 2 ^ exponent x) := Decimal.le_halfEven hscaled
  exact mul_le_mul_of_nonneg_right (by exact_mod_cast hround) (unit_pos x).le

theorem nearest_neg (x : ℚ) : nearest (-x) = -nearest x := by
  rw [nearest, nearest, exponent, abs_neg, neg_div, halfEven_neg, Int.cast_neg, neg_mul]
  rfl

theorem nearest_le {x : ℚ} (n : ℤ) (h : x ≤ n * 2 ^ exponent x) : nearest x ≤ n * 2 ^ exponent x := by
  have hexp : exponent (-x) = exponent x := by rw [exponent, exponent, abs_neg]
  have hneg := le_nearest (x := -x) (-n) (by rw [hexp, Int.cast_neg, neg_mul]; exact neg_le_neg h)
  rw [hexp, nearest_neg, Int.cast_neg, neg_mul] at hneg
  exact neg_le_neg_iff.1 hneg

theorem abs_sub_nearest_le (x : ℚ) : |x - nearest x| ≤ 2 ^ exponent x / 2 := by
  have hscale : x - nearest x = (x / 2 ^ exponent x - halfEven (x / 2 ^ exponent x)) * 2 ^ exponent x := by
    rw [sub_mul, div_mul_cancel₀ _ (unit_pos x).ne']
    rfl
  rw [hscale, abs_mul, abs_of_pos (unit_pos x), div_eq_mul_one_div (2 ^ exponent x : ℚ) 2, mul_comm]
  exact mul_le_mul_of_nonneg_left (Decimal.abs_sub_halfEven_le _) (unit_pos x).le

/-! ### Monotonicity -/

theorem nearest_nonneg {x : ℚ} (h : 0 ≤ x) : 0 ≤ nearest x := by
  simpa using le_nearest 0 (by simpa using h)

theorem nearest_nonpos {x : ℚ} (h : x ≤ 0) : nearest x ≤ 0 := by
  simpa using nearest_le 0 (by simpa using h)

theorem nearest_mono_of_pos {x y : ℚ} (hx : 0 < x) (hxy : x ≤ y) : nearest x ≤ nearest y := by
  have hy : 0 < y := lt_of_lt_of_le hx hxy
  have hlog : Int.log 2 x ≤ Int.log 2 y := Int.log_mono_right hx hxy
  have hex : exponent x = max (Int.log 2 x - 52) (-1074) := by rw [exponent, abs_of_pos hx]
  have hey : exponent y = max (Int.log 2 y - 52) (-1074) := by rw [exponent, abs_of_pos hy]
  by_cases hexp : exponent x = exponent y
  · have hscaled : x / 2 ^ exponent y ≤ y / 2 ^ exponent y :=
      div_le_div_of_nonneg_right hxy (unit_pos y).le
    rw [nearest, nearest, hexp]
    exact mul_le_mul_of_nonneg_right (by exact_mod_cast halfEven_mono hscaled) (unit_pos y).le
  · -- the power of two below `y` lies between them
    obtain ⟨m, hm⟩ := two_zpow_eq (e := exponent x) (k := Int.log 2 y) (by omega)
    obtain ⟨n, hn⟩ := two_zpow_eq (e := exponent y) (k := Int.log 2 y) (by omega)
    have hbelow : x ≤ 2 ^ Int.log 2 y :=
      (lt_two_zpow_log x).le.trans (zpow_le_zpow_right₀ one_le_two (by omega))
    calc nearest x ≤ m * 2 ^ exponent x := nearest_le m (hm ▸ hbelow)
      _ = 2 ^ Int.log 2 y := hm.symm
      _ = n * 2 ^ exponent y := hn
      _ ≤ nearest y := le_nearest n (hn ▸ two_zpow_log_le hy)

/-- **Rounding is monotone.** -/
theorem nearest_mono : Monotone nearest := by
  intro x y hxy
  rcases lt_or_ge 0 x with hx | hx
  · exact nearest_mono_of_pos hx hxy
  · rcases lt_or_ge y 0 with hy | hy
    · have hneg := nearest_mono_of_pos (neg_pos.2 hy) (neg_le_neg hxy)
      rw [nearest_neg, nearest_neg] at hneg
      exact neg_le_neg_iff.1 hneg
    · exact (nearest_nonpos hx).trans (nearest_nonneg hy)

/-! ### The numbers of the format -/

theorem nearest_of_eq_mul {x : ℚ} {n : ℤ} (h : x = n * 2 ^ exponent x) : nearest x = x := by
  rw [nearest, (eq_div_iff (unit_pos x).ne').2 h.symm |>.symm, halfEven_intCast, ← h]

/-- Numbers with digits up to a place that is not below the last one. -/
theorem nearest_of_place {x : ℚ} {n k : ℤ} (h : x = n * 2 ^ k) (hexp : exponent x ≤ k) :
    nearest x = x := by
  obtain ⟨m, hm⟩ := two_zpow_eq hexp
  refine nearest_of_eq_mul (n := n * m) ?_
  rw [Int.cast_mul, mul_assoc, ← hm, ← h]

/-- **A number of 53 digits is left alone.** -/
theorem nearest_mul_two_zpow {n k : ℤ} (hn : |n| < 2 ^ 53) (hk : -1074 ≤ k) :
    nearest (n * 2 ^ k) = n * 2 ^ k := by
  have hunit : (0 : ℚ) < 2 ^ k := zpow_pos two_pos k
  rcases eq_or_ne n 0 with rfl | hne
  · simp [nearest, Decimal.halfEven]
  · have hdigits : |(n : ℚ)| < 2 ^ (53 : ℤ) := by exact_mod_cast hn
    refine nearest_of_place rfl (exponent_le (mul_ne_zero (by exact_mod_cast hne) hunit.ne') hk ?_)
    rw [abs_mul, abs_of_pos hunit, add_comm, zpow_add₀ two_ne_zero]
    exact mul_lt_mul_of_pos_right hdigits hunit

theorem nearest_two_zpow {k : ℤ} (hk : -1074 ≤ k) : nearest (2 ^ k) = 2 ^ k := by
  simpa using nearest_mul_two_zpow (n := 1) (by norm_num) hk

theorem nearest_one : nearest 1 = 1 := by
  simpa using nearest_two_zpow (k := 0) (by norm_num)

/-- Multiples by a power of two of a number that is left alone. -/
theorem nearest_two_pow_mul {x : ℚ} (hx : nearest x = x) (k : ℕ) :
    nearest (2 ^ k * x) = 2 ^ k * x := by
  rcases eq_or_ne x 0 with rfl | hne
  · simpa using hx
  · have hpow : (0 : ℚ) < 2 ^ k := by positivity
    have hlog : Int.log 2 |x| - 52 ≤ exponent x := le_max_left _ _
    have hplace : -1074 ≤ exponent x := le_max_right _ _
    refine nearest_of_place (n := halfEven (x / 2 ^ exponent x)) (k := exponent x + k) ?_
      (exponent_le (mul_ne_zero hpow.ne' hne) (by omega) ?_)
    · rw [zpow_add₀ two_ne_zero, zpow_natCast, ← mul_assoc, mul_comm (2 ^ k : ℚ)]
      exact congrArg (· * (2 : ℚ) ^ k) hx.symm
    · calc |2 ^ k * x| = 2 ^ (k : ℤ) * |x| := by rw [abs_mul, abs_of_pos hpow, zpow_natCast]
        _ < 2 ^ (k : ℤ) * 2 ^ (Int.log 2 |x| + 1) :=
          mul_lt_mul_of_pos_left (lt_two_zpow_log |x|) (zpow_pos two_pos _)
        _ = 2 ^ ((k : ℤ) + (Int.log 2 |x| + 1)) := (zpow_add₀ two_ne_zero _ _).symm
        _ ≤ 2 ^ (exponent x + k + 53) := zpow_le_zpow_right₀ one_le_two (by omega)

/-- **A rounded number is left alone.** -/
theorem nearest_nearest (x : ℚ) : nearest (nearest x) = nearest x := by
  have hlog : Int.log 2 |x| - 52 ≤ exponent x := le_max_left _ _
  have hplace : -1074 ≤ exponent x := le_max_right _ _
  have hdigits : |x / 2 ^ exponent x| ≤ 2 ^ 53 := by
    rw [abs_div, abs_of_pos (unit_pos x), div_le_iff₀ (unit_pos x), ← zpow_natCast,
      ← zpow_add₀ two_ne_zero]
    exact (lt_two_zpow_log |x|).le.trans (zpow_le_zpow_right₀ one_le_two (by push_cast; omega))
  have hround : |halfEven (x / 2 ^ exponent x)| ≤ 2 ^ 53 := by
    rw [abs_le] at hdigits ⊢
    constructor
    · exact Decimal.le_halfEven (by push_cast; exact hdigits.1)
    · exact Decimal.halfEven_le (by push_cast; exact hdigits.2)
  rcases lt_or_eq_of_le hround with hlt | heq
  · exact nearest_mul_two_zpow hlt hplace
  · -- a number that is rounded up to one more digit is a power of two
    have hpow : nearest (2 ^ 53 * 2 ^ exponent x) = 2 ^ 53 * 2 ^ exponent x :=
      nearest_two_pow_mul (nearest_two_zpow hplace) 53
    rcases eq_or_eq_neg_of_abs_eq heq with hpos | hneg
    · rw [show nearest x = 2 ^ 53 * 2 ^ exponent x by rw [nearest, hpos]; norm_num]
      exact hpow
    · rw [show nearest x = -(2 ^ 53 * 2 ^ exponent x) by rw [nearest, hneg]; norm_num, nearest_neg, hpow]

/-! ### Bounds -/

/-- **Bounds of the format are kept.** -/
theorem nearest_mem_Icc {a b x : ℚ} (ha : nearest a = a) (hb : nearest b = b)
    (hx : x ∈ Set.Icc a b) : nearest x ∈ Set.Icc a b := by
  have hlow := nearest_mono hx.1
  have hhigh := nearest_mono hx.2
  rw [ha] at hlow
  rw [hb] at hhigh
  exact ⟨hlow, hhigh⟩

theorem abs_nearest_le {x b : ℚ} (hb : nearest b = b) (h : |x| ≤ b) : |nearest x| ≤ b :=
  abs_le.2 (nearest_mem_Icc (by rw [nearest_neg, hb]) hb (abs_le.1 h))

theorem two_zpow_le_nearest {x : ℚ} {k : ℤ} (hk : -1074 ≤ k) (h : 2 ^ k ≤ x) :
    2 ^ k ≤ nearest x := by
  have hmono := nearest_mono h
  rwa [nearest_two_zpow hk] at hmono

theorem abs_sub_nearest_le_of_le_one {x : ℚ} (h : |x| ≤ 1) : |x - nearest x| ≤ 2 ^ (-53 : ℤ) := by
  have hexp : exponent x ≤ -52 := by
    rcases eq_or_ne x 0 with rfl | hne
    · simp [exponent]
    · exact exponent_le hne (by norm_num) (lt_of_le_of_lt h (by norm_num))
  calc |x - nearest x| ≤ 2 ^ exponent x / 2 := abs_sub_nearest_le x
    _ ≤ 2 ^ (-52 : ℤ) / 2 := by gcongr; exact one_le_two
    _ = 2 ^ (-53 : ℤ) := by norm_num

theorem exponent_eq {x : ℚ} {k : ℤ} (hk : -1022 ≤ k) (hlow : 2 ^ k ≤ x) (hhigh : x < 2 ^ (k + 1)) :
    exponent x = k - 52 := by
  have hpos : 0 < x := lt_of_lt_of_le (zpow_pos two_pos k) hlow
  have hle : k ≤ Int.log 2 x := (Int.zpow_le_iff_le_log one_lt_two hpos).1 (by simpa using hlow)
  have hlt : Int.log 2 x < k + 1 :=
    (Int.lt_zpow_iff_log_lt one_lt_two hpos).1 (by simpa using hhigh)
  rw [exponent, abs_of_pos hpos]
  omega

/-- Half of the last place above a power of two is a tie, and the power of two is even. -/
theorem nearest_two_pow_add_half (k : ℕ) : nearest (2 ^ k * (1 + 2 ^ (-53 : ℤ))) = 2 ^ k := by
  have hpow : (0 : ℚ) < 2 ^ k := by positivity
  have hexp : exponent (2 ^ k * (1 + 2 ^ (-53 : ℤ))) = k - 52 := by
    refine exponent_eq (by omega) ?_ ?_
    · rw [zpow_natCast]
      exact le_mul_of_one_le_right hpow.le (by norm_num)
    · rw [zpow_add_one₀ two_ne_zero, zpow_natCast]
      exact mul_lt_mul_of_pos_left (by norm_num) hpow
  have hunit : (2 : ℚ) ^ k = 2 ^ 52 * 2 ^ ((k : ℤ) - 52) := by
    rw [← zpow_natCast, ← zpow_natCast, ← zpow_add₀ two_ne_zero]
    congr 1
    omega
  have hscaled : (2 : ℚ) ^ k * (1 + 2 ^ (-53 : ℤ)) / 2 ^ ((k : ℤ) - 52) = 2 ^ 52 + 1 / 2 := by
    rw [div_eq_iff (zpow_pos two_pos _).ne', hunit]
    norm_num
    ring
  have heven : halfEven (2 ^ 52 + 1 / 2) = 2 ^ 52 := by decide +kernel
  rw [nearest, hexp, hscaled, heven, hunit]
  norm_num

/-- **A bound that is a power of two absorbs half of the last place.** -/
theorem abs_nearest_le_two_pow {x : ℚ} {k : ℕ} (h : |x| ≤ 2 ^ k * (1 + 2 ^ (-53 : ℤ))) :
    |nearest x| ≤ 2 ^ k := by
  rw [abs_le] at h ⊢
  have hlow := nearest_mono h.1
  have hhigh := nearest_mono h.2
  rw [nearest_neg, nearest_two_pow_add_half] at hlow
  rw [nearest_two_pow_add_half] at hhigh
  exact ⟨hlow, hhigh⟩

/-- A rounded number is a multiple of the last place. -/
theorem nearest_eq_mul (x : ℚ) : ∃ n : ℤ, nearest x = n * 2 ^ (-1074 : ℤ) := by
  obtain ⟨m, hm⟩ := two_zpow_eq (e := -1074) (k := exponent x) (le_max_right _ _)
  refine ⟨halfEven (x / 2 ^ exponent x) * m, ?_⟩
  rw [Int.cast_mul, mul_assoc, ← hm]
  rfl

/-- Rounding does not lose a number that is not below the last place. -/
theorem nearest_ne_zero {x : ℚ} (h : 2 ^ (-1074 : ℤ) ≤ |x|) : nearest x ≠ 0 := by
  have hpos : (0 : ℚ) < 2 ^ (-1074 : ℤ) := zpow_pos two_pos _
  rcases le_total 0 x with hx | hx
  · rw [abs_of_nonneg hx] at h
    exact (lt_of_lt_of_le hpos (two_zpow_le_nearest le_rfl h)).ne'
  · rw [abs_of_nonpos hx] at h
    have hneg := two_zpow_le_nearest le_rfl h
    rw [nearest_neg] at hneg
    exact (neg_pos.1 (lt_of_lt_of_le hpos hneg)).ne

/-! ### Quotients of whole numbers -/

theorem nearest_natCast {n : ℕ} (h : n < 2 ^ 53) : nearest n = n := by
  have habs : |(n : ℤ)| < 2 ^ 53 := by
    rw [Nat.abs_cast]
    exact_mod_cast h
  simpa using nearest_mul_two_zpow (k := 0) habs (by norm_num)

theorem abs_sub_nearest_le_max {x : ℚ} (h : 0 ≤ x) : |x - nearest x| ≤ max 1 x / 2 ^ 53 := by
  rcases le_total x 1 with hle | hge
  · rw [max_eq_left hle]
    calc |x - nearest x| ≤ 2 ^ (-53 : ℤ) := abs_sub_nearest_le_of_le_one (by rwa [abs_of_nonneg h])
      _ = 1 / 2 ^ 53 := by norm_num
  · rw [max_eq_right hge]
    have hpos : 0 < x := one_pos.trans_le hge
    have hlog : 0 ≤ Int.log 2 x := (Int.zpow_le_iff_le_log one_lt_two hpos).1 (by simpa using hge)
    have hexp : exponent x = Int.log 2 x - 52 := by
      rw [exponent, abs_of_pos hpos]
      omega
    calc |x - nearest x| ≤ 2 ^ exponent x / 2 := abs_sub_nearest_le x
      _ = 2 ^ Int.log 2 x / 2 ^ 53 := by
        rw [hexp, zpow_sub₀ two_ne_zero, div_div]
        norm_num
      _ ≤ x / 2 ^ 53 := div_le_div_of_nonneg_right (two_zpow_log_le hpos) (by norm_num)

/-- The error of a quotient is below half of the distance between two fractions of its
denominator. -/
theorem abs_div_sub_nearest_lt {a b : ℕ} (ha : a < 2 ^ 52) (hb : 0 < b) (hb' : b < 2 ^ 52) :
    |(a / b : ℚ) - nearest (a / b)| < 1 / (2 * b) := by
  have hpos : (0 : ℚ) < b := Nat.cast_pos.2 hb
  have hsize : max 1 (a / b : ℚ) < 2 ^ 52 / b := by
    refine max_lt ?_ ?_
    · rw [lt_div_iff₀ hpos, one_mul]
      exact_mod_cast hb'
    · exact div_lt_div_of_pos_right (by exact_mod_cast ha) hpos
  calc |(a / b : ℚ) - nearest (a / b)| ≤ max 1 (a / b : ℚ) / 2 ^ 53 :=
        abs_sub_nearest_le_max (div_nonneg (Nat.cast_nonneg a) hpos.le)
    _ < 2 ^ 52 / b / 2 ^ 53 := div_lt_div_of_pos_right hsize (by norm_num)
    _ = 1 / (2 * b) := by
      field_simp

/-- **The integer part of a quotient is not changed by rounding.** -/
theorem floor_nearest_div {a b : ℕ} (ha : a < 2 ^ 52) (hb : 0 < b) (hb' : b < 2 ^ 52) :
    ⌊nearest (a / b)⌋ = (a / b : ℕ) := by
  have hpos : (0 : ℚ) < b := Nat.cast_pos.2 hb
  rw [Int.floor_eq_iff, Int.cast_natCast]
  constructor
  · have hmono := nearest_mono (Nat.cast_div_le (m := a) (n := b) : ((a / b : ℕ) : ℚ) ≤ a / b)
    have hsmall : a / b < 2 ^ 53 := lt_of_le_of_lt (Nat.div_le_self a b) (ha.trans (by norm_num))
    rwa [nearest_natCast hsmall] at hmono
  · -- a quotient below an integer is at least the reciprocal of the denominator below it
    have hnext : a + 1 ≤ (a / b + 1) * b := Nat.lt_div_mul_add hb |>.trans_eq (by ring)
    have hgap : (a / b : ℚ) + 1 / b ≤ (a / b : ℕ) + 1 := by
      rw [← add_div, div_le_iff₀ hpos]
      exact_mod_cast hnext
    have hhalf : 1 / (2 * b : ℚ) ≤ 1 / b := one_div_le_one_div_of_le hpos (by linarith)
    have herr := (abs_lt.1 (abs_div_sub_nearest_lt ha hb hb')).1
    linarith

/-- A fraction that is less than a half away from an integer is so by half of the reciprocal of
its denominator. -/
theorem abs_div_sub_le {a b : ℕ} (hb : 0 < b) {h : ℤ} (hlt : |(a / b : ℚ) - h| < 1 / 2) :
    |(a / b : ℚ) - h| ≤ 1 / 2 - 1 / (2 * b) := by
  have hpos : (0 : ℚ) < b := Nat.cast_pos.2 hb
  have hscale : |(a / b : ℚ) - h| = (|(a : ℤ) - b * h| : ℤ) / b := by
    rw [Int.cast_abs, ← abs_of_pos hpos, ← abs_div, abs_of_pos hpos]
    push_cast
    rw [sub_div, mul_div_cancel_left₀ _ hpos.ne']
  have hdigits : 2 * |(a : ℤ) - b * h| < b := by
    rw [hscale, div_lt_iff₀ hpos] at hlt
    have : 2 * ((|(a : ℤ) - b * h| : ℤ) : ℚ) < b := by linarith
    exact_mod_cast this
  have hnext : 2 * ((|(a : ℤ) - b * h| : ℤ) : ℚ) + 1 ≤ b := by exact_mod_cast hdigits
  rw [hscale, div_le_iff₀ hpos, sub_mul, one_div_mul_eq_div, one_div_mul_eq_div,
    mul_comm (2 : ℚ), div_mul_cancel_left₀ hpos.ne']
  linarith

theorem nearest_of_half {x : ℚ} {h : ℤ} (hx : |x - h| = 1 / 2) (hh : |h| < 2 ^ 52) :
    nearest x = x := by
  have hodd : ∃ n : ℤ, x = n * 2 ^ (-1 : ℤ) ∧ |n| < 2 ^ 53 := by
    rw [abs_lt] at hh
    rcases eq_or_eq_neg_of_abs_eq hx with hup | hdown
    · refine ⟨2 * h + 1, ?_, by rw [abs_lt]; constructor <;> omega⟩
      push_cast
      rw [zpow_neg_one]
      linarith
    · refine ⟨2 * h - 1, ?_, by rw [abs_lt]; constructor <;> omega⟩
      push_cast
      rw [zpow_neg_one]
      linarith
  obtain ⟨n, rfl, hn⟩ := hodd
  exact nearest_mul_two_zpow hn (by norm_num)

/-- **The integer nearest to a quotient is not changed by rounding it first.** -/
theorem halfEven_nearest_div {a b : ℕ} (ha : a < 2 ^ 52) (hb : 0 < b) (hb' : b < 2 ^ 52) :
    halfEven (nearest (a / b)) = halfEven (a / b) := by
  rcases Decimal.halfEven_spec (a / b : ℚ) with hlt | ⟨htie, -⟩
  · have hfar := abs_div_sub_le hb hlt
    have herr := abs_div_sub_nearest_lt ha hb hb'
    rw [Decimal.halfEven_eq_iff]
    left
    calc |nearest (a / b) - halfEven (a / b)|
        ≤ |nearest (a / b) - a / b| + |(a / b : ℚ) - halfEven (a / b)| := abs_sub_le _ _ _
      _ < 1 / 2 := by
        rw [abs_sub_comm (nearest (a / b))]
        linarith
  · -- a tie is a half-integer, which is a number of the format
    have hquot : (a / b : ℚ) ≤ (a : ℤ) := by
      rw [Int.cast_natCast]
      exact div_le_self (Nat.cast_nonneg a) (by exact_mod_cast hb)
    have hnonneg : ((0 : ℤ) : ℚ) ≤ a / b := by
      rw [Int.cast_zero]
      exact div_nonneg (Nat.cast_nonneg a) (Nat.cast_nonneg b)
    have hhigh := Decimal.halfEven_le hquot
    have hlow := Decimal.le_halfEven hnonneg
    rw [nearest_of_half htie (by rw [abs_lt]; constructor <;> omega)]

end Binary64
