/-
**The backtest does not look ahead.**

Two histories that agree on their first `k` points are run with the same parameters.  What a run
shows of the days before `k` — net equity, gross equity, benchmark, buy and sell marks — is the
same in both, and so is the position held on day `k` itself: a position of day `i` is the signal of
day `i - 1`, which is computed from the NAVs up to that day.

The argument follows the code.  Signals are causal (`isCausal_rawPos`), a day of
the loop is built from the signal of the day before and two neighbouring points, and the states of
a loop before step `k` depend on its first `k` inputs (`Causal.take_scanl_congr`).

Main definitions:

* `AgreeAt` — two series have the same entry at an index, and both have one.

Main results:

* `states_take_congr` — the loops of two such runs are in the same states;
* `placedMarks_filter_congr` — the marks before day `k` are the same;
* `no_lookahead` — **no output of a day depends on a later NAV**.
-/

import Mathlib.Data.List.TakeDrop
import QuantFlow.Backtest

namespace QuantFlow

namespace Backtest

variable (N : Numerics)

/-- The two series have an entry at `i`, and it is the same. -/
def AgreeAt {α : Type} (xs ys : List α) (i : ℕ) : Prop := ∃ x, xs[i]? = some x ∧ ys[i]? = some x

theorem agreeAt_of_take {α : Type} {xs ys : List α} {i k : ℕ} (h : xs.take k = ys.take k)
    (hi : i < k) (hlen : i < xs.length) : AgreeAt xs ys i := by
  refine ⟨xs[i], List.getElem?_eq_getElem hlen, ?_⟩
  rw [← Causal.getElem?_eq_of_take h hi]
  exact List.getElem?_eq_getElem hlen

/-! ### The loop -/

theorem navsOf_take {P Q : List NavPoint} {k : ℕ} (h : P.take k = Q.take k) :
    (navsOf P).take k = (navsOf Q).take k :=
  Causal.isCausal_map NavPoint.nav k P Q h

/-- The first `j` days of the loop are made of the first `j` signals and the first `j + 1`
points. -/
theorem days_take_congr {raw raw' : List ℤ} {P Q : List NavPoint} {j : ℕ}
    (hraw : raw.take j = raw'.take j) (h : P.take (j + 1) = Q.take (j + 1)) :
    (days raw P).take j = (days raw' Q).take j := by
  have hhead : P.take j = Q.take j := Causal.take_eq_of_le h (by omega)
  have htail : P.tail.take j = Q.tail.take j := by
    have := congrArg List.tail h
    rwa [List.tail_take_eq_take_tail, List.tail_take_eq_take_tail, Nat.add_sub_cancel] at this
  simp only [days, List.zip, List.take_zipWith]
  rw [hraw, hhead, htail]

/-- **The loops of two runs are in the same states up to the first difference.** -/
theorem states_take_congr (fees : Fees) (strategy : Strategy) (short long : ℤ)
    {P Q : List NavPoint} {k : ℕ} (hk : 1 ≤ k) (h : P.take k = Q.take k) :
    (states N fees (rawPos N strategy (navsOf P) short long) P).take k =
      (states N fees (rawPos N strategy (navsOf Q) short long) Q).take k := by
  obtain ⟨j, rfl⟩ : ∃ j, k = j + 1 := ⟨k - 1, by omega⟩
  have hraw : (rawPos N strategy (navsOf P) short long).take j =
      (rawPos N strategy (navsOf Q) short long).take j :=
    isCausal_rawPos N strategy short long j _ _
      (navsOf_take (Causal.take_eq_of_le h (by omega)))
  exact Causal.take_scanl_congr _ _ (days_take_congr hraw h)

/-! ### The series of one run -/

theorem equity_runOnce (strategy : Strategy) (short long : ℤ) (fees : Fees)
    (points : List NavPoint) :
    (runOnce N points strategy short long fees).equity =
      (states N fees (rawPos N strategy (navsOf points) (clampShort short)
        (clampLong (clampShort short) long)) points).map LoopState.equity := rfl

theorem equity_agreeAt (fees : Fees) (strategy : Strategy) (short long : ℤ)
    {P Q : List NavPoint} {k i : ℕ} (hkP : k ≤ P.length) (h : P.take k = Q.take k) (hi : i < k) :
    AgreeAt (runOnce N P strategy short long fees).equity
      (runOnce N Q strategy short long fees).equity i := by
  have hne : P ≠ [] := by rintro rfl; simp at hkP; omega
  have hstates := states_take_congr N fees strategy (clampShort short)
    (clampLong (clampShort short) long) (by omega) h
  rw [equity_runOnce, equity_runOnce]
  refine agreeAt_of_take (Causal.isCausal_map LoopState.equity k _ _ hstates) hi ?_
  rw [List.length_map, length_states N fees (by simp [navsOf]) hne]
  omega

theorem benchmark_agreeAt {P Q : List NavPoint} {k i : ℕ} (hkP : k ≤ P.length)
    (h : P.take k = Q.take k) (hi : i < k) :
    AgreeAt (benchmarkOf N (navsOf P)) (benchmarkOf N (navsOf Q)) i := by
  -- the base of the benchmark is the first NAV, which the runs share
  have hbase : (navsOf P).headD 0 = (navsOf Q).headD 0 := by
    have h₀ := Causal.getElem?_eq_of_take (navsOf_take h) (show 0 < k by omega)
    rw [List.headD_eq_head?_getD, List.headD_eq_head?_getD, List.head?_eq_getElem?,
      List.head?_eq_getElem?, h₀]
  have hmap : (benchmarkOf N (navsOf P)).take k = (benchmarkOf N (navsOf Q)).take k := by
    rw [benchmarkOf, benchmarkOf, hbase]
    exact Causal.isCausal_map _ k _ _ (navsOf_take h)
  refine agreeAt_of_take hmap hi ?_
  simp only [benchmarkOf, navsOf, List.length_map]
  omega

/-- The position of day `i` is determined by the points before day `i`. -/
theorem position_agreeAt (fees : Fees) (strategy : Strategy) (short long : ℤ)
    {P Q : List NavPoint} {k i : ℕ} (h : P.take k = Q.take k) (hi : i ≤ k) (hiP : i < P.length)
    (hiQ : i < Q.length) :
    AgreeAt (runOnce N P strategy short long fees).position
      (runOnce N Q strategy short long fees).position i := by
  rw [position_runOnce, position_runOnce]
  cases i with
  | zero => exact ⟨0, rfl, rfl⟩
  | succ j =>
    have hraw := isCausal_rawPos N strategy (clampShort short)
      (clampLong (clampShort short) long) k _ _ (navsOf_take h)
    have hcut : ∀ points : List NavPoint, j + 1 < points.length →
        (rawPos N strategy (navsOf points) (clampShort short)
          (clampLong (clampShort short) long)).dropLast[j]? =
        (rawPos N strategy (navsOf points) (clampShort short)
          (clampLong (clampShort short) long))[j]? := by
      intro points hj
      rw [List.dropLast_eq_take, List.getElem?_take_of_lt]
      simp only [length_rawPos, navsOf, List.length_map]
      omega
    obtain ⟨x, hx, hy⟩ := agreeAt_of_take hraw (show j < k by omega)
      (by simp only [length_rawPos, navsOf, List.length_map]; omega)
    refine ⟨x, ?_, ?_⟩
    · rw [List.getElem?_cons_succ, hcut P hiP]
      exact hx
    · rw [List.getElem?_cons_succ, hcut Q hiQ]
      exact hy

/-! ### Marks -/

theorem filter_range'_lt (s m k : ℕ) :
    (List.range' s m).filter (· < k) = List.range' s (min m (k - s)) := by
  induction m generalizing s with
  | zero => simp
  | succ m ih =>
    rw [List.range'_succ, List.filter_cons]
    by_cases hs : s < k
    · obtain ⟨d, hd⟩ : ∃ d, min (m + 1) (k - s) = d + 1 :=
        ⟨min (m + 1) (k - s) - 1, by omega⟩
      rw [hd, List.range'_succ, ih, if_pos (by simpa using hs)]
      congr 2
      omega
    · have hd : min (m + 1) (k - s) = 0 := by omega
      have hd' : min m (k - (s + 1)) = 0 := by omega
      rw [if_neg (by simpa using hs), ih, hd, hd', List.range'_zero]
      rfl

theorem markAt_index {points : List NavPoint} {position : List ℤ} {i : ℕ} {m : ℕ × Mark}
    (h : markAt N points position i = some m) : m.1 = i := by
  unfold markAt at h
  split at h
  · split_ifs at h <;> (cases h; rfl)
  · cases h

/-- The marks placed before day `k` come from the iterations before day `k`. -/
theorem placedMarks_filter (points : List NavPoint) (position : List ℤ) (k : ℕ) :
    (placedMarks N points position).filter (·.1 < k) =
      (List.range' 1 (min (points.length - 1) (k - 1))).filterMap (markAt N points position) := by
  rw [placedMarks, List.filter_filterMap, ← filter_range'_lt, List.filterMap_filter]
  refine List.filterMap_congr fun i _ => ?_
  by_cases hi : i < k
  · rw [if_pos (by simpa using hi)]
    cases hm : markAt N points position i with
    | none => rfl
    | some m =>
      have := markAt_index N hm
      simp [Option.filter, this, hi]
  · rw [if_neg (by simpa using hi)]
    cases hm : markAt N points position i with
    | none => rfl
    | some m =>
      have := markAt_index N hm
      simp [Option.filter, this, hi]

theorem placedMarks_filter_congr {P Q : List NavPoint} {pos pos' : List ℤ} {k : ℕ}
    (hkP : k ≤ P.length) (hkQ : k ≤ Q.length) (h : P.take k = Q.take k)
    (hpos : ∀ i < k, AgreeAt pos pos' i) :
    (placedMarks N P pos).filter (·.1 < k) = (placedMarks N Q pos').filter (·.1 < k) := by
  rw [placedMarks_filter, placedMarks_filter, Nat.min_eq_right (by omega),
    Nat.min_eq_right (by omega)]
  refine List.filterMap_congr fun i hi => ?_
  have hik : i < k := by
    have := List.mem_range'_1.1 hi
    omega
  obtain ⟨x, hx, hx'⟩ := hpos i hik
  obtain ⟨y, hy, hy'⟩ := hpos (i - 1) (by omega)
  simp only [markAt, hx, hx', hy, hy', Causal.getElem?_eq_of_take h hik]

/-! ### No look-ahead -/

/-- **No output of a day depends on a later NAV**, and the position held on a day does not depend
on that day's NAV either. -/
theorem no_lookahead (strategy : Strategy) (short long : ℤ) (fees : Fees) (P Q : List NavPoint)
    (hP : 5 ≤ P.length) (hQ : 5 ≤ Q.length) (hposP : ∀ p ∈ P, 0 < p.nav)
    (hposQ : ∀ p ∈ Q, 0 < p.nav) (k : ℕ) (hkP : k ≤ P.length) (hkQ : k ≤ Q.length)
    (hagree : P.take k = Q.take k) :
    ∃ rP rQ : Result, ∃ gP gQ : Gross,
      run N P strategy short long fees = .ok rP ∧ run N Q strategy short long fees = .ok rQ ∧
      rP.gross = some gP ∧ rQ.gross = some gQ ∧
      (∀ i ≤ k, i < P.length → i < Q.length → AgreeAt rP.position rQ.position i) ∧
      (∀ i < k, AgreeAt rP.equity rQ.equity i ∧ AgreeAt gP.grossEquity gQ.grossEquity i ∧
        AgreeAt rP.benchmark rQ.benchmark i) ∧
      rP.marks = (placedMarks N P rP.position).map Prod.snd ∧
      rQ.marks = (placedMarks N Q rQ.position).map Prod.snd ∧
      (placedMarks N P rP.position).filter (·.1 < k) =
        (placedMarks N Q rQ.position).filter (·.1 < k) := by
  refine ⟨_, _, _, _, run_eq_ok N hP hposP strategy short long fees,
    run_eq_ok N hQ hposQ strategy short long fees, rfl, rfl, ?_, ?_, rfl, rfl, ?_⟩
  · intro i hi hiP hiQ
    exact position_agreeAt N fees strategy short long hagree hi hiP hiQ
  · intro i hi
    exact ⟨equity_agreeAt N fees strategy short long hkP hagree hi,
      equity_agreeAt N Fees.zero strategy _ _ hkP hagree hi,
      benchmark_agreeAt N hkP hagree hi⟩
  · refine placedMarks_filter_congr N hkP hkQ hagree fun i hi => ?_
    exact position_agreeAt N fees strategy short long hagree (by omega) (by omega) (by omega)

/-- Two histories that part on the fifth day: the runs already hold the same position then. -/
theorem no_lookahead_fiveDays :
    ∃ rP rQ : Result,
      run Numerics.runnable (fiveDays 2) .momentum 2 20 {} = .ok rP ∧
      run Numerics.runnable (fiveDays (1 / 2)) .momentum 2 20 {} = .ok rQ ∧
      AgreeAt rP.position rQ.position 4 ∧ AgreeAt rP.equity rQ.equity 3 := by
  obtain ⟨rP, rQ, gP, gQ, hP, hQ, -, -, hpos, hser, -⟩ :=
    no_lookahead Numerics.runnable .momentum 2 20 {} (fiveDays 2) (fiveDays (1 / 2))
      (by decide) (by decide) (by decide +kernel) (by decide +kernel) 4 (by decide) (by decide) rfl
  exact ⟨rP, rQ, hP, hQ, hpos 4 le_rfl (by decide) (by decide), (hser 3 (by decide)).1⟩

end Backtest

end QuantFlow
