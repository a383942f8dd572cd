/-
**Maximum drawdown, twice.**

`perf_stats` of `backend/app/indicators.py` and `calculate_metrics` of `backend/app/risk/metrics.py`
each compute a maximum drawdown, in one pass along the running peak: the one as the least
`(v - peak) / peak`, the other as the least `v / peak - 1`.  On positive values they are the same
number, and it is what the name says: the worst loss from a value to a later one.

Main definitions:

* `maxDrawdown` — the drawdown of `calculate_metrics`, before it is rounded.

Main results:

* `worst_maxDrawdown` — it is the worst change of the series;
* `maxDrawdown_eq_worst` — **both drawdowns are the worst loss between two days**.
-/

import QuantFlow.Drawdowns
import QuantFlow.Signals

namespace QuantFlow

namespace Risk

open Drawdown (Change Worst falls)
open Indicators (peaks)

variable (N : Numerics)

/-- `np.min(arr / peaks - 1)`. -/
def maxDrawdown (navs : List ℚ) : ℚ :=
  let falls := List.zipWith (fun v p => v / p - 1) navs (peaks navs)
  falls.foldl min (falls.headD 0)

/-- The conditions under which there are metrics, and the drawdown among them. -/
theorem calculateMetrics_maxDrawdown {navs : List ℚ} (hlen : 3 ≤ navs.length)
    (hpos : ∀ v ∈ navs, 0 < v) :
    ∃ m, calculateMetrics N navs = some m ∧ m.maxDrawdown = N.round 6 (maxDrawdown navs) := by
  rw [calculateMetrics, if_neg (not_insufficient hlen hpos)]
  exact ⟨_, rfl, rfl⟩

theorem perfStats_maxDrawdown {values : List ℚ} (hlen : 2 ≤ values.length) :
    (Indicators.perfStats N values).maxDrawdown =
      N.round 2 (Indicators.maxDrawdown values * 100) := by
  rw [Indicators.perfStats, if_neg (by omega)]

theorem peaks_eq_runningMax (values : List ℚ) : peaks values = Drawdown.runningMax values := by
  cases values with
  | nil => rfl
  | cons v vs => rfl

theorem peaks_pos {values : List ℚ} (hpos : ∀ v ∈ values, 0 < v) : ∀ p ∈ peaks values, 0 < p := by
  intro p hp
  cases values with
  | nil => cases hp
  | cons v vs =>
    obtain ⟨j, hj⟩ := List.getElem?_of_mem hp
    have hlength : (peaks (v :: vs)).length = (v :: vs).length := by simp [peaks]
    have hlt : j < (v :: vs).length := hlength ▸ (List.getElem?_eq_some_iff.1 hj).1
    obtain ⟨p', hp', ⟨i, -, hi⟩, -⟩ := Drawdown.getElem?_runningMax hlt
    rw [peaks_eq_runningMax, hp', Option.some_inj] at hj
    exact hj ▸ hpos p' (List.mem_of_getElem? hi)

section Worst

variable {values : List ℚ}

/-- **The drawdown of the metrics is the worst change.** -/
theorem worst_maxDrawdown (hne : values ≠ []) (hpos : ∀ v ∈ values, 0 < v) :
    Worst values (maxDrawdown values) := by
  have hfalls : maxDrawdown values = (falls values).foldl min ((falls values).headD 0) := by
    rw [maxDrawdown, peaks_eq_runningMax]
    rfl
  obtain ⟨v, vs, rfl⟩ := List.exists_cons_of_ne_nil hne
  rw [hfalls]
  refine Drawdown.worst_foldl_falls hpos ?_
  have hmem := Drawdown.zero_mem_falls (hpos v List.mem_cons_self).ne' vs
  obtain ⟨f, fs, hf⟩ := List.exists_cons_of_ne_nil (List.ne_nil_of_mem hmem)
  rw [hf]
  exact List.mem_cons_self

/-- So is the drawdown of the performance statistics. -/
theorem worst_perfStats (hne : values ≠ []) (hpos : ∀ v ∈ values, 0 < v) :
    Worst values (Indicators.maxDrawdown values) := by
  have hfalls : Indicators.maxDrawdown values = (falls values).foldl min 0 := by
    rw [Indicators.maxDrawdown, falls, ← peaks_eq_runningMax]
    congr 1
    -- the two quotients are the same as long as no peak is zero
    refine List.ext_getElem? fun j => ?_
    rw [List.getElem?_zipWith, List.getElem?_zipWith]
    cases hp : (peaks values)[j]? with
    | none => simp
    | some p =>
      have hpne : p ≠ 0 := (peaks_pos hpos p (List.mem_of_getElem? hp)).ne'
      cases values[j]? with
      | none => rfl
      | some v => simp [sub_div, div_self hpne]
  obtain ⟨v, vs, rfl⟩ := List.exists_cons_of_ne_nil hne
  rw [hfalls]
  exact Drawdown.worst_foldl_falls hpos
    (Drawdown.zero_mem_falls (hpos v List.mem_cons_self).ne' vs)

/-- **Both drawdowns are the worst loss between two days**: the least of `v j / v i - 1` over all
`i ≤ j`.  It is above −1, and it is zero exactly if the values never fall. -/
theorem maxDrawdown_eq_worst (hlen : 3 ≤ values.length) (hpos : ∀ v ∈ values, 0 < v) :
    (Indicators.perfStats N values).maxDrawdown =
        N.round 2 (Indicators.maxDrawdown values * 100) ∧
      (∃ m, calculateMetrics N values = some m ∧ m.maxDrawdown = N.round 6 (maxDrawdown values)) ∧
      Indicators.maxDrawdown values = maxDrawdown values ∧
      IsLeast {x | ∃ (i j : ℕ) (a b : ℚ), i ≤ j ∧ values[i]? = some a ∧ values[j]? = some b ∧
        x = b / a - 1} (maxDrawdown values) ∧
      -1 < maxDrawdown values ∧ maxDrawdown values ≤ 0 ∧
      (maxDrawdown values = 0 ↔ values.Pairwise (· ≤ ·)) := by
  have hne : values ≠ [] := by rintro rfl; simp at hlen
  have hworst := worst_maxDrawdown hne hpos
  exact ⟨perfStats_maxDrawdown N (by omega), calculateMetrics_maxDrawdown N hlen hpos,
    (worst_perfStats hne hpos).unique hworst, hworst, hworst.gt hpos, hworst.nonpos hpos,
    hworst.eq_zero_iff hpos⟩

end Worst

/-- The series of the test of `calculate_metrics`. -/
def fourNavs : List ℚ := [1, 11 / 10, 88 / 100, 99 / 100]

theorem maxDrawdown_eq_worst_fourNavs :
    Indicators.maxDrawdown fourNavs = maxDrawdown fourNavs ∧
      IsLeast {x | ∃ (i j : ℕ) (a b : ℚ), i ≤ j ∧ fourNavs[i]? = some a ∧ fourNavs[j]? = some b ∧
        x = b / a - 1} (maxDrawdown fourNavs) ∧ maxDrawdown fourNavs = -1 / 5 := by
  obtain ⟨-, -, hsame, hleast, -⟩ := maxDrawdown_eq_worst .runnable
    (show 3 ≤ fourNavs.length by decide) (by decide +kernel)
  exact ⟨hsame, hleast, by decide +kernel⟩

end Risk

end QuantFlow
