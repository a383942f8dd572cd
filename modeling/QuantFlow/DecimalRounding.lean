/-
**Rounding to decimal places, ties to even.**

The built-in `round(x, n)` of the host language rounds to `n` decimal places and resolves ties
towards the even neighbour.  On exact rationals that is the integer rounding `halfEven` conjugated
by a power of ten.  What programs rely on is monotonicity and the values it fixes.

Main definitions:

* `halfEven` — the nearest integer, ties to even;
* `roundTo` — the nearest multiple of `10 ^ (-n)`, ties to even.

Main results:

* `halfEven_intCast`, `halfEven_mono` — it fixes the integers and is monotone;
* `roundTo_intCast`, `roundTo_mono` — so does and is rounding to `n` places;
* `abs_sub_roundTo_le` — it moves a number by at most half a unit of the last place;
* `roundTo_eq_iff` — **when a given value is the rounded one**.
-/

import Mathlib.Data.Int.ConditionallyCompleteOrder
import Mathlib.Data.Rat.Floor
import Mathlib.Tactic.Linarith
import Mathlib.Tactic.Positivity

namespace Decimal

/-! ### The nearest integer -/

/-- The integer nearest to `x`; halfway between two integers, the even one. -/
def halfEven (x : ℚ) : ℤ :=
  if x - ⌊x⌋ < 1 / 2 then ⌊x⌋
  else if 1 / 2 < x - ⌊x⌋ then ⌊x⌋ + 1
  else if ⌊x⌋ % 2 = 0 then ⌊x⌋ else ⌊x⌋ + 1

theorem halfEven_intCast (n : ℤ) : halfEven (n : ℚ) = n := by
  simp [halfEven]

theorem floor_le_halfEven (x : ℚ) : ⌊x⌋ ≤ halfEven x := by
  unfold halfEven
  split_ifs <;> omega

theorem halfEven_le_floor_add_one (x : ℚ) : halfEven x ≤ ⌊x⌋ + 1 := by
  unfold halfEven
  split_ifs <;> omega

/-- Within one unit interval the fractional part decides, and it decides monotonically. -/
theorem halfEven_le_of_floor_eq {x y : ℚ} (hxy : x ≤ y) (hf : ⌊x⌋ = ⌊y⌋) :
    halfEven x ≤ halfEven y := by
  unfold halfEven
  rw [hf]
  split_ifs <;> first | omega | (exfalso; linarith)

theorem halfEven_mono : Monotone halfEven := by
  intro x y hxy
  rcases eq_or_lt_of_le (Int.floor_le_floor hxy) with hf | hf
  · exact halfEven_le_of_floor_eq hxy hf
  · have h₁ := halfEven_le_floor_add_one x
    have h₂ := floor_le_halfEven y
    omega

theorem le_halfEven {x : ℚ} {m : ℤ} (h : m ≤ x) : m ≤ halfEven x := by
  have hmono := halfEven_mono h
  rwa [halfEven_intCast] at hmono

theorem halfEven_le {x : ℚ} {m : ℤ} (h : x ≤ m) : halfEven x ≤ m := by
  have hmono := halfEven_mono h
  rwa [halfEven_intCast] at hmono

/-- The nearest integer is at most a half away, and even if it is a half away. -/
theorem halfEven_spec (x : ℚ) :
    |x - halfEven x| < 1 / 2 ∨ |x - halfEven x| = 1 / 2 ∧ Even (halfEven x) := by
  have hlow := Int.floor_le x
  have hhigh := Int.lt_floor_add_one x
  unfold halfEven
  split_ifs with hdown hup heven
  · left
    rw [abs_of_nonneg (by linarith)]
    exact hdown
  · left
    push_cast
    rw [abs_of_nonpos (by linarith)]
    linarith
  · right
    rw [abs_of_nonneg (by linarith)]
    exact ⟨le_antisymm (not_lt.1 hup) (not_lt.1 hdown), Int.even_iff.2 heven⟩
  · right
    push_cast
    rw [abs_of_nonpos (by linarith)]
    refine ⟨by linarith [le_antisymm (not_lt.1 hup) (not_lt.1 hdown)], ?_⟩
    rw [Int.even_add_one, Int.not_even_iff]
    omega

theorem abs_sub_halfEven_le (x : ℚ) : |x - halfEven x| ≤ 1 / 2 := by
  rcases halfEven_spec x with h | ⟨h, -⟩
  · exact h.le
  · exact h.le

/-- **What makes an integer the rounded value.** -/
theorem halfEven_eq_iff (x : ℚ) (m : ℤ) :
    halfEven x = m ↔ |x - m| < 1 / 2 ∨ |x - m| = 1 / 2 ∧ Even m := by
  constructor
  · rintro rfl
    exact halfEven_spec x
  · intro hm
    by_contra hne
    -- two different integers are a unit apart, so both are exactly a half away and both even
    have hx := halfEven_spec x
    have hgap : (1 : ℚ) ≤ |(halfEven x : ℚ) - m| := by
      exact_mod_cast Int.one_le_abs (sub_ne_zero.2 hne)
    have htriangle : |(halfEven x : ℚ) - m| ≤ |x - halfEven x| + |x - m| := by
      rw [abs_sub_comm x (halfEven x : ℚ)]
      exact abs_sub_le _ _ _
    have hhalf : |x - halfEven x| = 1 / 2 ∧ |x - m| = 1 / 2 := by
      have h₁ := abs_sub_halfEven_le x
      have h₂ : |x - m| ≤ 1 / 2 := by
        rcases hm with h | ⟨h, -⟩
        · exact h.le
        · exact h.le
      constructor <;> linarith
    obtain ⟨a, ha⟩ := (hx.resolve_left (by rw [hhalf.1]; exact lt_irrefl _)).2
    obtain ⟨b, hb⟩ := (hm.resolve_left (by rw [hhalf.2]; exact lt_irrefl _)).2
    have hunit : |(halfEven x : ℚ) - m| ≤ 1 := by linarith [hhalf.1, hhalf.2]
    have hunit' : |halfEven x - m| ≤ 1 := by exact_mod_cast hunit
    rw [abs_le] at hunit'
    omega

theorem halfEven_neg (x : ℚ) : halfEven (-x) = -halfEven x := by
  have habs : |-x - (-halfEven x : ℤ)| = |x - halfEven x| := by
    rw [Int.cast_neg, ← abs_neg]
    congr 1
    ring
  rw [halfEven_eq_iff, habs, even_neg]
  exact halfEven_spec x

/-! ### Decimal places -/

/-- `x` rounded to `n` decimal places, ties to even. -/
def roundTo (n : ℕ) (x : ℚ) : ℚ := halfEven (x * 10 ^ n) / 10 ^ n

theorem roundTo_intCast (n : ℕ) (m : ℤ) : roundTo n (m : ℚ) = m := by
  have hpow : (m : ℚ) * 10 ^ n = ((m * 10 ^ n : ℤ) : ℚ) := by push_cast; ring
  have hne : (10 : ℚ) ^ n ≠ 0 := by positivity
  rw [roundTo, hpow, halfEven_intCast]
  push_cast
  exact mul_div_cancel_right₀ _ hne

@[simp] theorem roundTo_zero (n : ℕ) : roundTo n 0 = 0 := by
  simpa using roundTo_intCast n 0

theorem roundTo_mono (n : ℕ) : Monotone (roundTo n) := by
  intro x y hxy
  have hpos : (0 : ℚ) ≤ 10 ^ n := by positivity
  have hle : halfEven (x * 10 ^ n) ≤ halfEven (y * 10 ^ n) :=
    halfEven_mono (mul_le_mul_of_nonneg_right hxy hpos)
  exact div_le_div_of_nonneg_right (by exact_mod_cast hle) hpos

theorem abs_sub_roundTo_le (n : ℕ) (x : ℚ) : |x - roundTo n x| ≤ 1 / 2 / 10 ^ n := by
  have hpos : (0 : ℚ) < 10 ^ n := by positivity
  have hscale : x - roundTo n x = (x * 10 ^ n - halfEven (x * 10 ^ n)) / 10 ^ n := by
    rw [roundTo, sub_div, mul_div_cancel_right₀ _ hpos.ne']
  rw [hscale, abs_div, abs_of_pos hpos]
  exact div_le_div_of_nonneg_right (abs_sub_halfEven_le _) hpos.le

/-- The rounded terms of a sum move it by at most half a unit each. -/
theorem abs_sum_roundTo_sub_le (n : ℕ) (xs : List ℚ) :
    |(xs.map (roundTo n)).sum - xs.sum| ≤ xs.length * (1 / 2 / 10 ^ n) := by
  induction xs with
  | nil => simp
  | cons x xs ih =>
    have hx : |roundTo n x - x| ≤ 1 / 2 / 10 ^ n := by
      rw [abs_sub_comm]
      exact abs_sub_roundTo_le n x
    rw [List.map_cons, List.sum_cons, List.sum_cons, List.length_cons, add_sub_add_comm]
    push_cast
    calc |roundTo n x - x + ((xs.map (roundTo n)).sum - xs.sum)|
        ≤ |roundTo n x - x| + |(xs.map (roundTo n)).sum - xs.sum| := abs_add_le _ _
      _ ≤ 1 / 2 / 10 ^ n + xs.length * (1 / 2 / 10 ^ n) := add_le_add hx ih
      _ = (xs.length + 1) * (1 / 2 / 10 ^ n) := by ring

/-- A value of `n` decimal places is a number of units of the last place. -/
theorem roundTo_mul_pow (n : ℕ) (x : ℚ) : roundTo n x * 10 ^ n = halfEven (x * 10 ^ n) :=
  div_mul_cancel₀ _ (by positivity)

/-- **What makes a value of `n` decimal places the rounded one.** -/
theorem roundTo_eq_iff (n : ℕ) (x : ℚ) {y : ℚ} {m : ℤ} (hy : y * 10 ^ n = m) :
    roundTo n x = y ↔
      |x - y| < 1 / 2 / 10 ^ n ∨ |x - y| = 1 / 2 / 10 ^ n ∧ Even m := by
  have hpos : (0 : ℚ) < 10 ^ n := by positivity
  have hdist : |x * 10 ^ n - m| = |x - y| * 10 ^ n := by
    rw [← hy, ← sub_mul, abs_mul, abs_of_pos hpos]
  have heq : roundTo n x = y ↔ halfEven (x * 10 ^ n) = m := by
    rw [roundTo, div_eq_iff hpos.ne', hy]
    exact Int.cast_inj
  rw [heq, halfEven_eq_iff, hdist, ← lt_div_iff₀ hpos, ← eq_div_iff hpos.ne']

/-- Numbers more than a unit of the last place apart keep their order. -/
theorem roundTo_lt_of_far {n : ℕ} {x y : ℚ} (h : x + 1 / 10 ^ n < y) :
    roundTo n x < roundTo n y := by
  have hx := (abs_le.1 (abs_sub_roundTo_le n x)).1
  have hy := (abs_le.1 (abs_sub_roundTo_le n y)).2
  have hunit : (1 : ℚ) / 2 / 10 ^ n + 1 / 2 / 10 ^ n = 1 / 10 ^ n := by
    rw [← add_div, add_halves]
  linarith

end Decimal
