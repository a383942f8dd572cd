/-
**The size of a float.**

A running product of factors that are not negative is positive until it underflows, is rounded to
zero, or meets an undefined product, and it never recovers.  For such a product only the size of a
value counts: what is not positive, NaN included, has the size zero, and infinity has the largest
one.  Multiplication by a factor that is not negative, and rounding to decimal places, keep the order
of sizes.

Main definitions:

* `rank` — the size;
* `Positive` — a value above zero;
* `round` — `round(v, n)`.

Main results:

* `rank_mul_mono` — **multiplication by a factor keeps the order**;
* `round_round` — **rounding twice is rounding once**.
-/

import Mathlib.Algebra.Order.Archimedean.Basic
import Mathlib.Algebra.Order.Ring.WithTop
import QuantFlow.FloatArithmetic

namespace QuantFlow.FloatValue

open Binary64 (nearest exponent)

/-- The size of a value: zero for what is not positive. -/
def rank : FloatValue → WithTop ℚ
  | .finite q => (max 0 q : ℚ)
  | .inf false => ⊤
  | _ => 0

/-- `v > 0`. -/
def Positive (v : FloatValue) : Prop := lt (.finite 0) v = true

instance : DecidablePred Positive := fun v => inferInstanceAs (Decidable (lt (.finite 0) v = true))

theorem positive_iff (v : FloatValue) : Positive v ↔ 0 < rank v := by
  cases v with
  | finite q => simp [Positive, lt, rank]
  | inf s => cases s <;> simp [Positive, lt, rank]
  | nan => simp [Positive, lt, rank]

theorem Positive.of_rank_le {a b : FloatValue} (h : rank a ≤ rank b) (ha : Positive a) :
    Positive b := (positive_iff b).2 (((positive_iff a).1 ha).trans_le h)

theorem Positive.inf_or_finite {v : FloatValue} (h : Positive v) :
    v = .inf false ∨ ∃ q, v = .finite q ∧ 0 < q := by
  cases v with
  | finite q => exact .inr ⟨q, rfl, of_decide_eq_true h⟩
  | inf s =>
    cases s with
    | false => exact .inl rfl
    | true => cases h
  | nan => cases h

/-! ### Rounded numbers -/

theorem rank_fl (x : ℚ) :
    rank (fl x) = if 2 ^ 1024 ≤ nearest x then ⊤ else ((max 0 (nearest x) : ℚ) : WithTop ℚ) := by
  have hpow : (0 : ℚ) < 2 ^ 1024 := by positivity
  rcases le_or_gt 0 x with hx | hx
  · rw [fl, abs_of_nonneg (Binary64.nearest_nonneg hx), decide_eq_false (not_lt.2 hx)]
    split <;> rfl
  · have hnonpos := Binary64.nearest_nonpos hx.le
    rw [if_neg (not_le.2 (hnonpos.trans_lt hpow)), max_eq_left hnonpos, fl, decide_eq_true hx]
    split
    · rfl
    · simp [rank, max_eq_left hnonpos]

theorem rank_fl_mono {x y : ℚ} (h : x ≤ y) : rank (fl x) ≤ rank (fl y) := by
  have hnearest := Binary64.nearest_mono h
  rw [rank_fl, rank_fl]
  split_ifs with hx hy hy
  · exact le_rfl
  · exact absurd (hx.trans hnearest) hy
  · exact le_top
  · exact_mod_cast max_le_max_left 0 hnearest

theorem rank_fl_of_nonpos {x : ℚ} (h : x ≤ 0) : rank (fl x) = 0 := by
  have hpow : (0 : ℚ) < 2 ^ 1024 := by positivity
  have hnonpos := Binary64.nearest_nonpos h
  rw [rank_fl, if_neg (not_le.2 (hnonpos.trans_lt hpow)), max_eq_left hnonpos]
  rfl

theorem le_rank_fl {b x : ℚ} (hb : nearest b = b) (h : b ≤ x) : (b : WithTop ℚ) ≤ rank (fl x) := by
  have hnearest := Binary64.nearest_mono h
  rw [hb] at hnearest
  rw [rank_fl]
  split_ifs
  · exact le_top
  · exact_mod_cast hnearest.trans (le_max_right _ _)

/-! ### Products -/

theorem rank_mul_inf (a : FloatValue) : rank (mul a (.inf false)) = if 0 < rank a then ⊤ else 0 := by
  cases a with
  | finite p =>
    rcases lt_trichotomy p 0 with h | rfl | h
    · simp [mul, rank, h, h.ne, h.le]
    · simp [mul, rank]
    · simp [mul, rank, h, h.ne', not_lt.2 h.le]
  | inf s => cases s <;> simp [mul, rank]
  | nan => simp [mul, rank]

/-- The product with a positive number, in terms of sizes. -/
theorem rank_mul_finite (a : FloatValue) {q : ℚ} (hq : 0 < q) :
    rank (mul a (.finite q)) = ⊤ ∧ rank a = ⊤ ∨
      ∃ p : ℚ, rank a = (p : WithTop ℚ) ∧ rank (mul a (.finite q)) = rank (fl (p * q)) := by
  cases a with
  | finite p =>
    refine .inr ⟨max 0 p, rfl, ?_⟩
    rcases le_total 0 p with hp | hp
    · rw [max_eq_right hp]
      rfl
    · rw [max_eq_left hp, zero_mul, rank_fl_of_nonpos le_rfl]
      exact rank_fl_of_nonpos (mul_nonpos_of_nonpos_of_nonneg hp hq.le)
  | inf s =>
    cases s with
    | false => exact .inl (by simp [mul, rank, hq.ne', not_lt.2 hq.le])
    | true =>
      refine .inr ⟨0, rfl, ?_⟩
      rw [zero_mul, rank_fl_of_nonpos le_rfl]
      simp [mul, rank, hq.ne', not_lt.2 hq.le]
  | nan => exact .inr ⟨0, rfl, by rw [zero_mul, rank_fl_of_nonpos le_rfl]; rfl⟩

/-- **Multiplication by a factor that is not negative, or NaN, keeps the order of sizes.** -/
theorem rank_mul_mono {a b c : FloatValue} (hc : NonnegOrNan c) (h : rank a ≤ rank b) :
    rank (mul a c) ≤ rank (mul b c) := by
  rcases hc with rfl | hc
  · have hnan : ∀ v, mul v .nan = .nan := fun v => by cases v <;> rfl
    rw [hnan, hnan]
  rcases hc.inf_or_finite with rfl | ⟨q, rfl, hq⟩
  · rw [rank_mul_inf, rank_mul_inf]
    split_ifs with ha hb hb
    · exact le_rfl
    · exact absurd (ha.trans_le h) hb
    · exact le_top
    · exact le_rfl
  rcases hq.eq_or_lt with rfl | hq
  · have hzero : ∀ v, rank (mul v (.finite 0)) = 0 := by
      intro v
      cases v with
      | finite p => exact rank_fl_of_nonpos (by rw [mul_zero])
      | inf s => simp [mul, rank]
      | nan => rfl
    rw [hzero, hzero]
  rcases rank_mul_finite b hq with ⟨htop, -⟩ | ⟨p', hb, hb'⟩
  · rw [htop]
    exact le_top
  rcases rank_mul_finite a hq with ⟨-, htop⟩ | ⟨p, ha, ha'⟩
  · rw [htop, hb] at h
    exact absurd h (by simp)
  rw [ha, hb] at h
  rw [ha', hb']
  exact rank_fl_mono (mul_le_mul_of_nonneg_right (by exact_mod_cast h) hq.le)

/-- Lower bounds multiply, as long as their product is a float. -/
theorem le_rank_mul {a b : FloatValue} {p q : ℚ} (hp : 0 < p) (hq : 0 < q)
    (hfloat : nearest (p * q) = p * q) (ha : (p : WithTop ℚ) ≤ rank a)
    (hb : (q : WithTop ℚ) ≤ rank b) : ((p * q : ℚ) : WithTop ℚ) ≤ rank (mul a b) := by
  have hcases : ∀ {v : FloatValue} {r : ℚ}, 0 < r → (r : WithTop ℚ) ≤ rank v →
      v = .inf false ∨ ∃ x, v = .finite x ∧ r ≤ x := by
    intro v r hr hv
    have hpos : Positive v := (positive_iff v).2 (lt_of_lt_of_le (by exact_mod_cast hr) hv)
    refine hpos.inf_or_finite.imp_right ?_
    rintro ⟨x, rfl, hx⟩
    rw [rank, max_eq_right hx.le] at hv
    exact ⟨x, rfl, by exact_mod_cast hv⟩
  rcases hcases hp ha with rfl | ⟨x, rfl, hx⟩
  · rcases hcases hq hb with rfl | ⟨y, rfl, hy⟩
    · exact le_top
    · have hy' := hq.trans_le hy
      simp [mul, hy'.ne', not_lt.2 hy'.le, rank]
  · rcases hcases hq hb with rfl | ⟨y, rfl, hy⟩
    · have hx' := hp.trans_le hx
      simp [mul, hx'.ne', not_lt.2 hx'.le, rank]
    · exact le_rank_fl hfloat (mul_le_mul hx hy hq.le (hp.trans_le hx).le)

theorem fl_mul_one (x : ℚ) : mul (fl x) (.finite 1) = fl x ∧ mul (.finite 1) (fl x) = fl x := by
  have hinf : ∀ s, mul (.inf s) (.finite 1) = .inf s ∧ mul (.finite 1) (.inf s) = .inf s := by
    decide +kernel
  rw [fl]
  split_ifs with hlarge
  · exact hinf _
  · rw [mul, mul, mul_one, one_mul]
    have hfloat := fl_of_nearest_eq (Binary64.nearest_nearest x) (not_le.1 hlarge)
    exact ⟨hfloat, hfloat⟩

/-! ### Rounding to decimal places -/

/-- `round(v, n)`, which leaves infinities and NaN alone. -/
def round (n : ℕ) : FloatValue → FloatValue
  | .finite q => fl (Decimal.roundTo n q)
  | v => v

theorem rank_round_mono (n : ℕ) {a b : FloatValue} (h : rank a ≤ rank b) :
    rank (round n a) ≤ rank (round n b) := by
  have hsize : ∀ v : FloatValue, rank v = ⊤ ∧ rank (round n v) = ⊤ ∨
      ∃ p : ℚ, rank v = (p : WithTop ℚ) ∧ rank (round n v) = rank (fl (Decimal.roundTo n p)) := by
    have hzero : rank (fl (Decimal.roundTo n 0)) = 0 := by
      rw [Decimal.roundTo_zero]
      exact rank_fl_of_nonpos le_rfl
    intro v
    cases v with
    | finite p =>
      refine .inr ⟨max 0 p, rfl, ?_⟩
      rcases le_total 0 p with hp | hp
      · rw [max_eq_right hp]
        rfl
      · rw [max_eq_left hp, hzero]
        refine rank_fl_of_nonpos ?_
        simpa only [Decimal.roundTo_zero] using Decimal.roundTo_mono n hp
    | inf s =>
      cases s with
      | false => exact .inl ⟨rfl, rfl⟩
      | true => exact .inr ⟨0, rfl, hzero.symm⟩
    | nan => exact .inr ⟨0, rfl, hzero.symm⟩
  rcases hsize b with ⟨-, htop⟩ | ⟨q, hb, hb'⟩
  · rw [htop]
    exact le_top
  rcases hsize a with ⟨htop, -⟩ | ⟨p, ha, ha'⟩
  · rw [htop, hb] at h
    exact absurd h (by simp)
  rw [ha, hb] at h
  rw [ha', hb']
  exact rank_fl_mono (Decimal.roundTo_mono n (by exact_mod_cast h))

/-- A float of at least `2 ^ k` has no digits below the last place of `2 ^ k`. -/
theorem eq_mul_of_le {x : ℚ} {k : ℤ} (hx : nearest x = x) (hk : 2 ^ k ≤ x) :
    ∃ m : ℤ, x = m * 2 ^ (k - 52) := by
  have hpos : 0 < x := lt_of_lt_of_le (zpow_pos two_pos k) hk
  have hlog : k ≤ Int.log 2 x := (Int.zpow_le_iff_le_log one_lt_two hpos).1 (by simpa using hk)
  have hexp : k - 52 ≤ exponent x := by
    rw [exponent, abs_of_pos hpos]
    exact le_max_of_le_left (by omega)
  obtain ⟨m, hm⟩ := Binary64.two_zpow_eq hexp
  refine ⟨Decimal.halfEven (x / 2 ^ exponent x) * m, ?_⟩
  rw [Int.cast_mul, mul_assoc, ← hm]
  exact hx.symm

/-- What is closer than half of the last place to a number with these places is rounded to it. -/
theorem nearest_eq_of_close {x y : ℚ} {m : ℤ} (hx : x = m * 2 ^ exponent y)
    (h : |y - x| < 2 ^ exponent y / 2) : nearest y = x := by
  have hunit := Binary64.unit_pos y
  have hdist : |y / 2 ^ exponent y - m| < 1 / 2 := by
    have hscale : y / 2 ^ exponent y - m = (y - x) / 2 ^ exponent y := by
      rw [hx, sub_div, mul_div_cancel_right₀ _ hunit.ne']
    rw [hscale, abs_div, abs_of_pos hunit, div_lt_iff₀ hunit]
    linarith
  rw [nearest, (Decimal.halfEven_eq_iff _ m).2 (.inl hdist), hx]

/-- A large float is the one next to its own rounding: from `2 ^ 33` on the floats are farther apart
than the numbers of six decimal places. -/
theorem nearest_roundTo_of_large {x : ℚ} (hx : nearest x = x) (hlarge : 2 ^ 33 ≤ x) :
    nearest (Decimal.roundTo 6 x) = x := by
  have hint : ∀ k : ℕ, Decimal.roundTo 6 ((2 : ℚ) ^ k) = 2 ^ k := fun k => by
    simpa using Decimal.roundTo_intCast 6 (2 ^ k)
  have hdist : |Decimal.roundTo 6 x - x| ≤ 1 / 2 / 10 ^ 6 := by
    rw [abs_sub_comm]
    exact Decimal.abs_sub_roundTo_le 6 x
  have hy : 2 ^ 33 ≤ Decimal.roundTo 6 x := by
    simpa only [hint] using Decimal.roundTo_mono 6 hlarge
  obtain ⟨k, hlow, hhigh⟩ : ∃ k : ℕ, (2 : ℚ) ^ k ≤ Decimal.roundTo 6 x ∧
      Decimal.roundTo 6 x < 2 ^ (k + 1) := exists_nat_pow_near (by linarith) one_lt_two
  have hk : 33 ≤ k := by
    have := (pow_lt_pow_iff_right₀ (one_lt_two (α := ℚ))).1 (hy.trans_lt hhigh)
    omega
  have hplace : (2 : ℚ) ^ (-19 : ℤ) ≤ 2 ^ ((k : ℤ) - 52) :=
    zpow_le_zpow_right₀ one_le_two (by omega)
  have hexp : exponent (Decimal.roundTo 6 x) = k - 52 :=
    Binary64.exponent_eq (by omega) (by exact_mod_cast hlow) (by exact_mod_cast hhigh)
  have hbelow : 2 ^ k ≤ x := by
    -- otherwise the rounding went up to the power of two, by more than half a millionth
    by_contra hlt
    rw [not_le] at hlt
    have hpower : Decimal.roundTo 6 x = 2 ^ k :=
      le_antisymm (by simpa only [hint] using Decimal.roundTo_mono 6 hlt.le) hlow
    have hk' : 34 ≤ k := by
      have := (pow_lt_pow_iff_right₀ (one_lt_two (α := ℚ))).1 (hlarge.trans_lt hlt)
      omega
    obtain ⟨m, hm⟩ := eq_mul_of_le (k := 33) hx (by exact_mod_cast hlarge)
    obtain ⟨n, hn⟩ := Binary64.two_zpow_eq (e := 33 - 52) (k := k) (by omega)
    have hpos : (0 : ℚ) < 2 ^ ((33 : ℤ) - 52) := zpow_pos two_pos _
    rw [hpower, ← zpow_natCast, hn, hm, ← sub_mul, abs_mul, abs_of_pos hpos] at hdist
    have hone : (1 : ℚ) ≤ |(n : ℚ) - m| := by
      have hne : n ≠ m := by
        rintro rfl
        rw [hm, ← hn, zpow_natCast] at hlt
        exact lt_irrefl _ hlt
      exact_mod_cast Int.one_le_abs (sub_ne_zero.2 hne)
    have hunit : (1 : ℚ) / 2 / 10 ^ 6 < 2 ^ ((33 : ℤ) - 52) := by norm_num
    nlinarith
  obtain ⟨m, hm⟩ := eq_mul_of_le (k := k) hx (by exact_mod_cast hbelow)
  refine nearest_eq_of_close (m := m) (by rw [hexp]; exact hm) (hdist.trans_lt ?_)
  rw [hexp]
  calc (1 : ℚ) / 2 / 10 ^ 6 < 2 ^ (-19 : ℤ) / 2 := by norm_num
    _ ≤ 2 ^ ((k : ℤ) - 52) / 2 := div_le_div_of_nonneg_right hplace zero_le_two

/-- A number of six decimal places is found again from the float next to it, up to that float. -/
theorem nearest_roundTo_nearest {a : ℚ} {K : ℤ} (ha : 0 ≤ a) (hK : a * 10 ^ 6 = K) :
    nearest (Decimal.roundTo 6 (nearest a)) = nearest a := by
  rcases lt_or_ge a (2 ^ 33) with hsmall | hlarge
  · have herror : |nearest a - a| < 1 / 2 / 10 ^ 6 := by
      have hexp : exponent a ≤ -20 := by
        rcases eq_or_ne a 0 with rfl | hne
        · simp [exponent]
        · refine Binary64.exponent_le hne (by norm_num) ?_
          rw [abs_of_nonneg ha]
          exact_mod_cast hsmall
      have hplace : (2 : ℚ) ^ exponent a ≤ 2 ^ (-20 : ℤ) := zpow_le_zpow_right₀ one_le_two hexp
      rw [abs_sub_comm]
      calc |a - nearest a| ≤ 2 ^ exponent a / 2 := Binary64.abs_sub_nearest_le a
        _ ≤ 2 ^ (-20 : ℤ) / 2 := div_le_div_of_nonneg_right hplace zero_le_two
        _ < 1 / 2 / 10 ^ 6 := by norm_num
    rw [(Decimal.roundTo_eq_iff 6 _ hK).2 (.inl herror)]
  · refine nearest_roundTo_of_large (Binary64.nearest_nearest a) ?_
    exact_mod_cast Binary64.two_zpow_le_nearest (k := 33) (by norm_num) (by exact_mod_cast hlarge)

/-- **Rounding twice is rounding once.** -/
theorem round_round {v : FloatValue} (h : NonnegOrNan v) : round 6 (round 6 v) = round 6 v := by
  rcases h with rfl | h
  · rfl
  rcases h.inf_or_finite with rfl | ⟨q, rfl, hq⟩
  · rfl
  have hnonneg : 0 ≤ Decimal.roundTo 6 q := by
    simpa only [Decimal.roundTo_zero] using Decimal.roundTo_mono 6 hq
  have hnearest := nearest_roundTo_nearest hnonneg (Decimal.roundTo_mul_pow 6 q)
  show round 6 (fl (Decimal.roundTo 6 q)) = fl (Decimal.roundTo 6 q)
  rw [fl]
  split_ifs with hlarge
  · rfl
  · rw [round, fl, hnearest, if_neg hlarge]

end QuantFlow.FloatValue
