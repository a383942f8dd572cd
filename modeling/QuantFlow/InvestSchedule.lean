/-
**The schedule of a savings plan.**

`_pick_invest_indices` of `backend/app/dca.py` spreads the days of a plan over a history of `n`
points: the history is cut into `n // 5` weeks or `n // 21` months, and the nearest integer to their
length is the distance between two days.  A single day is not a plan, so `run` then takes the first
day and the middle.  Both divisions are those of Python, whose results are rounded to binary64
before `int` and `round` see them; below `2 ^ 52` this changes neither, and from there on the
distance is 5 or 21 either way.  (Only a length from `2 ^ 1024` on would overflow; no list has it.)

Main definitions:

* `Regular` — days at a constant distance, from the first point of the history on;
* `floatSpacing`, `floatPick`, `floatIndices` — the days as the host computes them.

Main results:

* `regular_rangeStep` — a range with a step below its end is regular;
* `le_spacing`, `spacing_le` — the distance, from two weeks or months on;
* `floatIndices_eq` — **the rounded divisions choose the same days**;
* `schedule_regular` — **the days of every history of at least ten points**.
-/

import QuantFlow.Binary64
import QuantFlow.Dca

namespace QuantFlow

namespace Dca

open Decimal (halfEven halfEven_intCast)
open Binary64 (nearest)

/-! ### Days at a constant distance -/

/-- At least two days of a history of `n` points, each `gap` after the one before it. -/
structure Regular (n gap : ℕ) (idxs : List ℕ) : Prop where
  first : idxs.head? = some 0
  increasing : idxs.Pairwise (· < ·)
  gaps : idxs.IsChain fun i j => j = i + gap
  below : ∀ i ∈ idxs, i < n
  two : 2 ≤ idxs.length

theorem length_rangeStep (n step : ℕ) : (rangeStep n step).length = (n + step - 1) / step :=
  List.length_range'

theorem isChain_rangeStep (n step : ℕ) : (rangeStep n step).IsChain fun i j => j = i + step := by
  unfold rangeStep
  generalize (n + step - 1) / step = count
  generalize 0 = start
  induction count generalizing start with
  | zero => exact .nil
  | succ count ih =>
    cases count with
    | zero => exact .singleton start
    | succ count => exact .cons_cons rfl (ih (start + step))

theorem regular_rangeStep {n step : ℕ} (hpos : 0 < step) (hlt : step < n) :
    Regular n step (rangeStep n step) where
  first := by
    obtain ⟨rest, hrest⟩ := rangeStep_cons (hpos.trans hlt) hpos
    rw [hrest, List.head?_cons]
  increasing := List.pairwise_lt_range' step hpos
  gaps := isChain_rangeStep n step
  below _ hi := lt_of_mem_rangeStep hpos hi
  two := by
    rw [length_rangeStep, Nat.le_div_iff_mul_le hpos]
    omega

/-! ### The distance between two days -/

theorem spacing_of_pos {n per : ℕ} (h : 0 < n / per) :
    spacing n per = (max 1 (halfEven ((n : ℚ) / (n / per : ℕ)))).toNat := by
  rw [spacing, max_eq_right (Nat.succ_le_of_lt h)]

/-- The parts are at least as long as the period they stand for. -/
theorem le_spacing {n per : ℕ} (h : 0 < n / per) : per ≤ spacing n per := by
  have hparts : (0 : ℚ) < (n / per : ℕ) := Nat.cast_pos.2 h
  have hquot : ((per : ℤ) : ℚ) ≤ (n : ℚ) / (n / per : ℕ) := by
    rw [Int.cast_natCast, le_div_iff₀ hparts]
    exact_mod_cast Nat.mul_div_le n per
  have hround := Decimal.le_halfEven hquot
  rw [spacing_of_pos h]
  omega

/-- The rest, below `per`, is shared by at least two parts. -/
theorem spacing_le {n per : ℕ} (hper : 0 < per) (h : 2 * per ≤ n) :
    spacing n per ≤ per + per / 2 := by
  have htwo : 2 ≤ n / per := (Nat.le_div_iff_mul_le hper).2 h
  have hparts : (0 : ℚ) < (n / per : ℕ) := Nat.cast_pos.2 (by omega)
  have hrest : n % per ≤ per / 2 * (n / per) := by
    have hmod := Nat.mod_lt n hper
    calc n % per ≤ per / 2 * 2 := by omega
      _ ≤ per / 2 * (n / per) := Nat.mul_le_mul_left _ htwo
  have hshare : n ≤ (per + per / 2) * (n / per) := by
    calc n = per * (n / per) + n % per := (Nat.div_add_mod n per).symm
      _ ≤ per * (n / per) + per / 2 * (n / per) := Nat.add_le_add_left hrest _
      _ = (per + per / 2) * (n / per) := (Nat.add_mul _ _ _).symm
  have hquot : (n : ℚ) / (n / per : ℕ) ≤ ((per + per / 2 : ℕ) : ℤ) := by
    rw [Int.cast_natCast, div_le_iff₀ hparts]
    exact_mod_cast hshare
  have hround := Decimal.halfEven_le hquot
  rw [spacing_of_pos (by omega)]
  omega

/-- A history that is not longer than one part is not cut. -/
theorem spacing_of_lt {n per : ℕ} (hn : 0 < n) (h : n < 2 * per) : spacing n per = n := by
  have hone : max 1 (n / per) = 1 := by
    have := Nat.div_lt_of_lt_mul (m := n) (n := per) (k := 2) (by omega)
    omega
  have hround : halfEven ((n : ℚ) / (1 : ℕ)) = n := by
    rw [Nat.cast_one, div_one, ← Int.cast_natCast, halfEven_intCast]
  rw [spacing, hone, hround]
  omega

/-! ### The days of `run` -/

/-- The length of a week, or of a month for every other word. -/
def Freq.days : Freq → ℕ
  | .weekly => 5
  | _ => 21

theorem Freq.days_pos (freq : Freq) : 0 < freq.days := by
  cases freq <;> exact Nat.succ_pos _

theorem Freq.days_of_ne {freq : Freq} (h : freq ≠ .weekly) : freq.days = 21 := by
  cases freq with
  | weekly => exact absurd rfl h
  | monthly => rfl
  | other name => rfl

theorem pickInvestIndices_eq {n : ℕ} {freq : Freq} {gap : ℕ} (h : spacing n freq.days = gap)
    (hpos : 0 < gap) : pickInvestIndices n freq = rangeStep n gap := by
  have hmax : max 1 gap = gap := max_eq_right hpos
  cases freq <;> exact (congrArg (rangeStep n) (h ▸ hmax : max 1 (spacing n _) = gap))

/-- A history of two periods is cut, and the days are those of `_pick_invest_indices`. -/
theorem investIndices_of_le {n : ℕ} {freq : Freq} (h : 2 * freq.days ≤ n) :
    investIndices n freq = pickInvestIndices n freq ∧
      Regular n (spacing n freq.days) (investIndices n freq) := by
  have hdays : 0 < freq.days := freq.days_pos
  have hle : freq.days ≤ spacing n freq.days := le_spacing (Nat.div_pos (by omega) hdays)
  have hlt : spacing n freq.days < n := by
    have := spacing_le hdays h
    omega
  have hpick : pickInvestIndices n freq = rangeStep n (spacing n freq.days) :=
    pickInvestIndices_eq rfl (hdays.trans_le hle)
  have hregular := regular_rangeStep (hdays.trans_le hle) hlt
  rw [← hpick] at hregular
  have hinvest : investIndices n freq = pickInvestIndices n freq :=
    if_neg (Nat.not_lt.2 hregular.two)
  exact ⟨hinvest, hinvest.symm ▸ hregular⟩

/-- A shorter one is not, and the days are those of the fallback. -/
theorem investIndices_of_lt {n : ℕ} {freq : Freq} (hn : 2 ≤ n) (h : n < 2 * freq.days) :
    (pickInvestIndices n freq).length < 2 ∧ investIndices n freq = rangeStep n (n / 2) ∧
      Regular n (n / 2) (investIndices n freq) := by
  have hpick : pickInvestIndices n freq = rangeStep n n :=
    pickInvestIndices_eq (spacing_of_lt (by omega) h) (by omega)
  have hshort : (pickInvestIndices n freq).length < 2 := by
    rw [hpick, length_rangeStep]
    exact Nat.div_lt_of_lt_mul (by omega)
  have hinvest : investIndices n freq = rangeStep n (n / 2) := by
    have hmax : max 1 (n / 2) = n / 2 := by omega
    exact (if_pos hshort).trans (congrArg (rangeStep n) hmax)
  exact ⟨hshort, hinvest, hinvest.symm ▸ regular_rangeStep (by omega) (by omega)⟩

/-! ### The divisions of the host -/

/-- `a / b` of two integers: the number of the format nearest to the quotient. -/
def trueDiv (a b : ℕ) : ℚ := nearest ((a : ℚ) / b)

/-- `max(1, round(n / max(1, int(n / per))))` with the divisions of the host. -/
def floatSpacing (n per : ℕ) : ℕ :=
  (max 1 (halfEven (trueDiv n (max 1 ⌊trueDiv n per⌋.toNat)))).toNat

/-- `_pick_invest_indices` with the divisions of the host. -/
def floatPick (n : ℕ) (freq : Freq) : List ℕ :=
  match freq with
  | .weekly => rangeStep n (max 1 (floatSpacing n 5))
  | _ => rangeStep n (max 1 (floatSpacing n 21))

/-- The indices `run` trades at, with the divisions of the host. -/
def floatIndices (n : ℕ) (freq : Freq) : List ℕ :=
  let idxs := floatPick n freq
  if idxs.length < 2 then rangeStep n (max 1 (n / 2)) else idxs

theorem floatSpacing_of_lt {n per : ℕ} (hper : 0 < per) (hsmall : per ≤ 2 ^ 10) (hn : n < 2 ^ 52) :
    floatSpacing n per = spacing n per := by
  have hparts : ⌊trueDiv n per⌋.toNat = n / per := by
    rw [trueDiv, Binary64.floor_nearest_div hn hper (by omega), Int.toNat_natCast]
  have hlt : max 1 (n / per) < 2 ^ 52 := by
    have := Nat.div_le_self n per
    omega
  rw [floatSpacing, hparts, trueDiv, Binary64.halfEven_nearest_div hn (by omega) hlt, spacing]

/-- The number of parts, up to the errors of a rounded division and of cutting off its digits. -/
structure NearParts (n per m : ℕ) : Prop where
  low : (1 - 1 / 2 ^ 53) * (n / per : ℚ) - 1 ≤ m
  high : (m : ℚ) ≤ (1 + 1 / 2 ^ 53) * (n / per : ℚ)

theorem halfEven_of_mem {per : ℕ} {x : ℚ} (hx : x ∈ Set.Icc (per - 1 / 4 : ℚ) (per + 1 / 4)) :
    halfEven x = per := by
  rw [Decimal.halfEven_eq_iff, Int.cast_natCast]
  left
  rw [abs_lt]
  constructor <;> linarith [hx.1, hx.2]

theorem nearest_quarter {k : ℤ} (hk : |k| < 2 ^ 53) : nearest (k / 4 : ℚ) = k / 4 := by
  have hquarter : (k / 4 : ℚ) = k * 2 ^ (-2 : ℤ) := by
    rw [div_eq_mul_inv]
    norm_num
  rw [hquarter]
  exact Binary64.nearest_mul_two_zpow hk (by norm_num)

/-- Quarters are numbers of the format, so rounding does not cross them. -/
theorem nearest_mem_of_mem {per : ℕ} (hper : per < 2 ^ 50) {x : ℚ}
    (hx : x ∈ Set.Icc (per - 1 / 4 : ℚ) (per + 1 / 4)) :
    nearest x ∈ Set.Icc (per - 1 / 4 : ℚ) (per + 1 / 4) := by
  have hlow : (per - 1 / 4 : ℚ) = ((4 * per - 1 : ℤ) : ℚ) / 4 := by
    push_cast
    ring
  have hhigh : (per + 1 / 4 : ℚ) = ((4 * per + 1 : ℤ) : ℚ) / 4 := by
    push_cast
    ring
  rw [hlow, hhigh] at hx ⊢
  refine Binary64.nearest_mem_Icc (nearest_quarter ?_) (nearest_quarter ?_) hx
  · rw [abs_lt]
    constructor <;> omega
  · rw [abs_lt]
    constructor <;> omega

section Long

variable {n per : ℕ} (hper : 0 < per) (hsmall : per ≤ 2 ^ 10) (hn : 2 ^ 52 ≤ n)
include hper hsmall hn

theorem two_pow_le_quot : (2 : ℚ) ^ 42 ≤ n / per := by
  have hpos : (0 : ℚ) < per := Nat.cast_pos.2 hper
  rw [le_div_iff₀ hpos]
  have hle : 2 ^ 42 * per ≤ n := by omega
  exact_mod_cast hle

theorem nearParts_div : NearParts n per (n / per) := by
  have hquot := two_pow_le_quot hper hsmall hn
  have hfloor : (n / per : ℚ) < (n / per : ℕ) + 1 := by
    rw [div_lt_iff₀ (Nat.cast_pos.2 hper)]
    exact_mod_cast Nat.lt_div_mul_add hper |>.trans_eq (by ring)
  have hle : ((n / per : ℕ) : ℚ) ≤ n / per := Nat.cast_div_le
  constructor <;> linarith

theorem nearParts_trueDiv : NearParts n per ⌊trueDiv n per⌋.toNat := by
  have hquot := two_pow_le_quot hper hsmall hn
  have herr := Binary64.abs_sub_nearest_le_max (x := (n / per : ℚ)) (by linarith)
  rw [max_eq_right (by linarith), abs_le] at herr
  have hnonneg : 0 ≤ trueDiv n per := Binary64.nearest_nonneg (by linarith)
  have hcast : ((⌊trueDiv n per⌋.toNat : ℕ) : ℚ) = ⌊trueDiv n per⌋ := by
    rw [← Int.cast_natCast, Int.toNat_of_nonneg (Int.floor_nonneg.2 hnonneg)]
  have hfloor := Int.floor_le (trueDiv n per)
  have hlt := Int.lt_floor_add_one (trueDiv n per)
  unfold trueDiv at *
  constructor <;> rw [hcast] <;> linarith

/-- So many parts that neither error shows in their length. -/
theorem quot_mem_of_nearParts {m : ℕ} (hm : NearParts n per m) :
    1 ≤ m ∧ (n / m : ℚ) ∈ Set.Icc (per - 1 / 4 : ℚ) (per + 1 / 4) := by
  have hquot := two_pow_le_quot hper hsmall hn
  have hlow := hm.low
  have hhigh := hm.high
  have hpos : (0 : ℚ) < m := by linarith
  have hone : (1 : ℚ) ≤ per := by exact_mod_cast hper
  have hle : (per : ℚ) ≤ 2 ^ 10 := by exact_mod_cast hsmall
  have hsplit : (n : ℚ) = per * (n / per) := (mul_div_cancel₀ _ (by linarith)).symm
  refine ⟨by exact_mod_cast hpos, ?_, ?_⟩
  · have hfactor : (per - 1 / 4 : ℚ) * (1 + 1 / 2 ^ 53) ≤ per := by linarith
    rw [le_div_iff₀ hpos]
    calc (per - 1 / 4 : ℚ) * m ≤ (per - 1 / 4) * ((1 + 1 / 2 ^ 53) * (n / per)) :=
          mul_le_mul_of_nonneg_left hhigh (by linarith)
      _ = (per - 1 / 4) * (1 + 1 / 2 ^ 53) * (n / per) := (mul_assoc _ _ _).symm
      _ ≤ per * (n / per) := mul_le_mul_of_nonneg_right hfactor (by linarith)
      _ = n := hsplit.symm
  · have hfactor : (per + 1 / 8 : ℚ) ≤ (per + 1 / 4) * (1 - 1 / 2 ^ 53) := by linarith
    rw [div_le_iff₀ hpos]
    -- an eighth of the parts outweighs the one that was cut off
    calc (n : ℚ) = (per + 1 / 8) * (n / per) - n / per / 8 := by linarith
      _ ≤ (per + 1 / 4) * (1 - 1 / 2 ^ 53) * (n / per) - n / per / 8 :=
          sub_le_sub_right (mul_le_mul_of_nonneg_right hfactor (by linarith)) _
      _ ≤ (per + 1 / 4) * ((1 - 1 / 2 ^ 53) * (n / per) - 1) := by linarith
      _ ≤ (per + 1 / 4) * m := mul_le_mul_of_nonneg_left hlow (by linarith)

theorem spacing_of_two_pow_le : spacing n per = per := by
  obtain ⟨hone, hmem⟩ := quot_mem_of_nearParts hper hsmall hn (nearParts_div hper hsmall hn)
  rw [spacing_of_pos hone, halfEven_of_mem hmem]
  omega

theorem floatSpacing_of_two_pow_le : floatSpacing n per = per := by
  obtain ⟨hone, hmem⟩ := quot_mem_of_nearParts hper hsmall hn (nearParts_trueDiv hper hsmall hn)
  have hround := halfEven_of_mem (nearest_mem_of_mem (hsmall.trans_lt (by norm_num)) hmem)
  rw [floatSpacing, max_eq_right hone, trueDiv, hround]
  omega

end Long

theorem floatSpacing_eq {n per : ℕ} (hper : 0 < per) (hsmall : per ≤ 2 ^ 10) :
    floatSpacing n per = spacing n per := by
  rcases lt_or_ge n (2 ^ 52) with hn | hn
  · exact floatSpacing_of_lt hper hsmall hn
  · rw [floatSpacing_of_two_pow_le hper hsmall hn, spacing_of_two_pow_le hper hsmall hn]

/-- **The rounded divisions choose the same days.** -/
theorem floatIndices_eq (n : ℕ) (freq : Freq) : floatIndices n freq = investIndices n freq := by
  have hstep (per : ℕ) (hper : 0 < per) (hsmall : per ≤ 2 ^ 10) :
      rangeStep n (max 1 (floatSpacing n per)) = rangeStep n (max 1 (spacing n per)) := by
    rw [floatSpacing_eq hper hsmall]
  have hpick : floatPick n freq = pickInvestIndices n freq := by
    cases freq with
    | weekly => exact hstep 5 (by norm_num) (by norm_num)
    | monthly | other name => exact hstep 21 (by norm_num) (by norm_num)
  rw [floatIndices, hpick, investIndices]

/-! ### The schedule -/

/-- The days of a history of `n` points: where they come from and how far apart they are. -/
structure Schedule (n : ℕ) (freq : Freq) (gap : ℕ) : Prop where
  regular : Regular n gap (investIndices n freq)
  weekly : freq = .weekly → investIndices n freq = pickInvestIndices n freq ∧ gap ∈ Set.Icc 5 7
  monthly : freq ≠ .weekly → 42 ≤ n →
    investIndices n freq = pickInvestIndices n freq ∧ gap ∈ Set.Icc 21 31
  fallback : freq ≠ .weekly → n ≤ 41 →
    (pickInvestIndices n freq).length < 2 ∧ investIndices n freq = rangeStep n (n / 2) ∧ gap = n / 2

theorem Schedule.gap_eq {n : ℕ} {freq : Freq} {gap i : ℕ} {rest : List ℕ} (h : Schedule n freq gap)
    (heq : investIndices n freq = 0 :: i :: rest) : gap = i := by
  have hgaps := h.regular.gaps
  rw [heq, List.isChain_cons_cons, Nat.zero_add] at hgaps
  exact hgaps.1.symm

theorem schedule_of_le {n : ℕ} {freq : Freq} (h : 2 * freq.days ≤ n) :
    Schedule n freq (spacing n freq.days) := by
  obtain ⟨hpick, hregular⟩ := investIndices_of_le h
  have hlow : freq.days ≤ spacing n freq.days :=
    le_spacing (Nat.div_pos (by omega) freq.days_pos)
  have hhigh := spacing_le freq.days_pos h
  refine ⟨hregular, ?_, fun hne _ => ?_, fun hne hshort => ?_⟩
  · rintro rfl
    exact ⟨hpick, hlow, hhigh⟩
  · rw [Freq.days_of_ne hne] at hlow hhigh ⊢
    exact ⟨hpick, hlow, hhigh⟩
  · rw [Freq.days_of_ne hne] at h
    omega

/-- Ten points are two weeks, so only a month can be too long. -/
theorem schedule_of_lt {n : ℕ} {freq : Freq} (hn : 10 ≤ n) (h : n < 2 * freq.days) :
    Schedule n freq (n / 2) := by
  obtain ⟨hshort, hinvest, hregular⟩ := investIndices_of_lt (by omega) h
  refine ⟨hregular, ?_, fun hne hlong => ?_, fun _ _ => ⟨hshort, hinvest, rfl⟩⟩
  · rintro rfl
    exact absurd hn (Nat.not_le.2 h)
  · rw [Freq.days_of_ne hne] at h
    omega

/-- **The schedule is regular**, as the host computes it. -/
theorem schedule_regular (n : ℕ) (hn : 10 ≤ n) (freq : Freq) :
    floatIndices n freq = investIndices n freq ∧ ∃ gap, Schedule n freq gap := by
  refine ⟨floatIndices_eq n freq, ?_⟩
  rcases lt_or_ge n (2 * freq.days) with hshort | hlong
  · exact ⟨n / 2, schedule_of_lt hn hshort⟩
  · exact ⟨spacing n freq.days, schedule_of_le hlong⟩

/-- The longest history without a second month, and the longest distances of a month and a week. -/
theorem schedule_regular_longest :
    floatIndices 41 .monthly = [0, 20, 40] ∧ Schedule 41 .monthly 20 ∧
      floatIndices 62 .monthly = [0, 31] ∧ Schedule 62 .monthly 31 ∧
      floatIndices 14 .weekly = [0, 7] ∧ Schedule 14 .weekly 7 := by
  have hfallback : investIndices 41 .monthly = [0, 20, 40] := by decide +kernel
  have hmonth : investIndices 62 .monthly = [0, 31] := by decide +kernel
  have hweek : investIndices 14 .weekly = [0, 7] := by decide +kernel
  obtain ⟨hfloat, gap, h⟩ := schedule_regular 41 (by norm_num) .monthly
  obtain ⟨hfloat', gap', h'⟩ := schedule_regular 62 (by norm_num) .monthly
  obtain ⟨hfloat'', gap'', h''⟩ := schedule_regular 14 (by norm_num) .weekly
  exact ⟨hfloat.trans hfallback, h.gap_eq hfallback ▸ h, hfloat'.trans hmonth,
    h'.gap_eq hmonth ▸ h', hfloat''.trans hweek, h''.gap_eq hweek ▸ h''⟩

end Dca

end QuantFlow
