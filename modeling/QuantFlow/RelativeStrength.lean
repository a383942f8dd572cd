/-
**The two relative strength indices.**

The RSI over fourteen returns is computed twice.  `compute_indicators` of
`backend/app/predictor.py` cuts the last fourteen returns with negative slices and has the neutral
50 when there are fewer; `rsi_series` of `backend/app/indicators.py` has one window per day, which
counts a leading return of 0, and `None` while the window would contain it.  The branches for a
segment without a loss are different too.  Up to the rounding, which is to one place in the first
and to two in the second, both are the same number.

Main definitions:

* `rsi` — the variable `rsi` of `compute_indicators` before it is rounded;
* `SameRsi` — one number in [0, 100] that both report.

Main results:

* `rsiOf_mem_Icc` — the RSI of any segment lies in [0, 100];
* `rsiSeries_getElem?` — **the series is the forecaster's RSI of every prefix**
  of at least fifteen positive NAVs;
* `rsi_agreement` — **both computations agree**.
-/

import QuantFlow.Predictor

namespace QuantFlow

namespace Predictor

open QuantFlow.Indicators (mean rsiOf returns length_returns rsiSeries window)

/-! ### The forecaster's RSI -/

/-- The list `rets`: a leading 0, then the returns. -/
def rets (navs : List ℚ) : List ℚ := if 1 < navs.length then 0 :: returns navs else [0]

/-- The variable `rsi` before it is rounded. -/
def rsi (navs : List ℚ) : ℚ :=
  if 15 ≤ navs.length then
    let gains := (lastN 14 (rets navs).tail).map fun x => max x 0
    let losses := (lastN 14 (rets navs).tail).map fun x => max (-x) 0
    let ag := mean gains
    let al := mean losses
    -- the inner test repeats the outer one, so 999 is never used
    if al ≠ 0 then 100 - 100 / (1 + if al ≠ 0 then ag / al else 999) else 100
  else 50

theorem rsi_of_le {navs : List ℚ} (h : 15 ≤ navs.length) :
    rsi navs = rsiOf (lastN 14 (returns navs)) := by
  have hrets : (rets navs).tail = returns navs := by
    rw [rets, if_pos (by omega), List.tail_cons]
  unfold rsi rsiOf
  rw [if_pos h, hrets]
  by_cases hal : mean ((lastN 14 (returns navs)).map fun x => max (-x) 0) = 0 <;> simp [hal]

theorem rsi_of_lt {navs : List ℚ} (h : navs.length < 15) : rsi navs = 50 :=
  if_neg (Nat.not_le.2 h)

/-- `compute_indicators` reports this variable to one place. -/
theorem rsi_computeIndicators {N : Numerics} {points : List NavPoint} {ind : Indicators}
    (h : computeIndicators N points = .ok ind) : ind.rsi = N.round 1 (rsi (navsOf points)) := by
  unfold computeIndicators at h
  dsimp only at h
  split at h
  · nomatch h
  · rw [← Except.ok.inj h]
    dsimp only
    split
    · rename_i hlen
      rw [rsi_of_le hlen]
    · rename_i hlen
      rw [rsi_of_lt (Nat.not_le.1 hlen)]

theorem computeIndicators_ok (N : Numerics) {points : List NavPoint}
    (hpos : ∀ v ∈ navsOf points, 0 < v) : ∃ ind, computeIndicators N points = .ok ind := by
  have hzero : 0 ∉ navsOf points := fun hmem => lt_irrefl 0 (hpos 0 hmem)
  refine ⟨_, if_neg ?_⟩
  rintro (hmem | heq)
  · exact hzero (List.mem_of_mem_dropLast hmem)
  · exact hzero (heq ▸ List.mem_singleton_self 0)

/-! ### The range -/

theorem mean_nonneg {xs : List ℚ} (h : ∀ x ∈ xs, 0 ≤ x) : 0 ≤ mean xs :=
  div_nonneg (List.sum_nonneg h) (Nat.cast_nonneg _)

theorem mean_map_nonneg {f : ℚ → ℚ} (hf : ∀ x, 0 ≤ f x) (xs : List ℚ) : 0 ≤ mean (xs.map f) := by
  refine mean_nonneg fun y hy => ?_
  obtain ⟨x, -, rfl⟩ := List.mem_map.1 hy
  exact hf x

theorem rsiOf_mem_Icc (seg : List ℚ) : rsiOf seg ∈ Set.Icc (0 : ℚ) 100 := by
  have hag : 0 ≤ mean (seg.map fun x => max x 0) := mean_map_nonneg (fun x => le_max_right x 0) seg
  have hal : 0 ≤ mean (seg.map fun x => max (-x) 0) :=
    mean_map_nonneg (fun x => le_max_right (-x) 0) seg
  unfold rsiOf
  dsimp only
  split
  · exact ⟨by norm_num, le_refl 100⟩
  · have hone : (1 : ℚ) ≤ 1 + mean (seg.map fun x => max x 0) / mean (seg.map fun x => max (-x) 0) :=
      le_add_of_nonneg_right (div_nonneg hag hal)
    have hquot := div_le_self (by norm_num : (0 : ℚ) ≤ 100) hone
    have hquot0 : 0 ≤ 100 / (1 + mean (seg.map fun x => max x 0) /
        mean (seg.map fun x => max (-x) 0)) :=
      div_nonneg (by norm_num) (zero_le_one.trans hone)
    exact ⟨sub_nonneg.2 hquot, sub_le_self 100 hquot0⟩

/-! ### The windows of the series -/

/-- The test for a zero divisor of `rsi_series` does nothing on positive NAVs. -/
theorem zipWith_guarded {values : List ℚ} (hpos : ∀ v ∈ values, 0 < v) (later : List ℚ) :
    List.zipWith (fun prev v => if prev = 0 then 0 else v / prev - 1) values later =
      List.zipWith (fun prev v => v / prev - 1) values later := by
  induction values generalizing later with
  | nil => rfl
  | cons prev rest ih =>
    cases later with
    | nil => rfl
    | cons v later =>
      rw [List.zipWith_cons_cons, List.zipWith_cons_cons,
        if_neg (hpos prev List.mem_cons_self).ne', ih fun v hv => hpos v (List.mem_cons_of_mem _ hv)]

theorem returns_cons_cons (a b : ℚ) (rest : List ℚ) :
    returns (a :: b :: rest) = (b / a - 1) :: returns (b :: rest) := rfl

/-- The returns of a prefix are a prefix of the returns. -/
theorem returns_take (i : ℕ) (navs : List ℚ) :
    returns (navs.take (i + 1)) = (returns navs).take i := by
  induction i generalizing navs with
  | zero => cases navs <;> rfl
  | succ i ih =>
    match navs with
    | [] => rfl
    | [_] => rfl
    | a :: b :: rest =>
      have hrest := ih (b :: rest)
      rw [List.take_succ_cons] at hrest
      rw [List.take_succ_cons, List.take_succ_cons, returns_cons_cons, hrest, returns_cons_cons,
        List.take_succ_cons]

/-- A window that leaves the leading 0 behind holds the last returns of the prefix. -/
theorem window_cons_eq_lastN {w i : ℕ} {rs : List ℚ} (hw : w ≤ i) (hi : i ≤ rs.length) (z : ℚ) :
    window (z :: rs) w i = lastN w (rs.take i) := by
  have hdrop : i + 1 - w = (i - w) + 1 := by omega
  rw [window, lastN, List.take_succ_cons, hdrop, List.drop_succ_cons, List.length_take,
    min_eq_left hi]

theorem rsiSeries_getElem? (N : Numerics) {navs : List ℚ} (hpos : ∀ v ∈ navs, 0 < v) {i : ℕ}
    (hwarm : 14 ≤ i) (hi : i < navs.length) :
    (rsiSeries N navs 14)[i]? = some (some (N.round 2 (rsi (navs.take (i + 1))))) := by
  have hlen : (navs.take (i + 1)).length = i + 1 := List.length_take_of_le hi
  have hreturns := length_returns navs
  have hwindow := window_cons_eq_lastN hwarm (by omega : i ≤ (returns navs).length) 0
  unfold rsiSeries
  rw [if_neg (by omega), zipWith_guarded hpos]
  simp only [List.getElem?_map, List.getElem?_range hi, Option.map_some]
  rw [if_neg (by omega), rsi_of_le (by omega), returns_take, ← hwindow]
  rfl

theorem length_rsiSeries (N : Numerics) (values : List ℚ) (w : ℕ) :
    (rsiSeries N values w).length = values.length := by
  unfold rsiSeries
  split
  · exact List.length_replicate
  · rw [List.length_map, List.length_range]

/-- While the window would contain the leading 0 there is no value. -/
theorem rsiSeries_none (N : Numerics) {values : List ℚ} {w : ℕ} (h : values.length ≤ w) :
    rsiSeries N values w = List.replicate values.length none := by
  unfold rsiSeries
  split
  · rfl
  · refine List.eq_replicate_iff.2 ⟨by rw [List.length_map, List.length_range], fun e he => ?_⟩
    obtain ⟨i, hi, rfl⟩ := List.mem_map.1 he
    exact if_pos ((List.mem_range.1 hi).trans_le h)

/-! ### The agreement -/

/-- One number in [0, 100] is the RSI of both, before the forecaster rounds it to one place and
the series to two.  The rounding is any function, so with `Numerics.unrounded` both give it as it
is. -/
structure SameRsi (points : List NavPoint) (x : ℚ) : Prop where
  forecast : rsi (navsOf points) = x
  range : x ∈ Set.Icc (0 : ℚ) 100
  reported (N : Numerics) : ∃ ind, computeIndicators N points = .ok ind ∧ ind.rsi = N.round 1 x
  last (N : Numerics) : (rsiSeries N (navsOf points) 14).getLast? = some (some (N.round 2 x))

/-- The series has no value yet, the forecaster is neutral. -/
structure NeutralRsi (points : List NavPoint) : Prop where
  forecast : rsi (navsOf points) = 50
  reported (N : Numerics) (ind : Indicators) :
    computeIndicators N points = .ok ind → ind.rsi = N.round 1 50
  series (N : Numerics) : rsiSeries N (navsOf points) 14 = List.replicate points.length none

theorem sameRsi {points : List NavPoint} (hpos : ∀ v ∈ navsOf points, 0 < v)
    (hlen : 15 ≤ (navsOf points).length) : SameRsi points (rsi (navsOf points)) where
  forecast := rfl
  range := by
    rw [rsi_of_le hlen]
    exact rsiOf_mem_Icc _
  reported N := by
    obtain ⟨ind, hind⟩ := computeIndicators_ok N hpos
    exact ⟨ind, hind, rsi_computeIndicators hind⟩
  last N := by
    -- the last window belongs to the prefix that is the whole history
    have htake : (navsOf points).take ((navsOf points).length - 1 + 1) = navsOf points :=
      List.take_of_length_le (by omega)
    rw [List.getLast?_eq_getElem?, length_rsiSeries,
      rsiSeries_getElem? N hpos (by omega) (by omega), htake]

theorem neutralRsi {points : List NavPoint} (hlen : (navsOf points).length < 15) :
    NeutralRsi points where
  forecast := rsi_of_lt hlen
  reported N ind hind := by rw [rsi_computeIndicators hind, rsi_of_lt hlen]
  series N := by rw [rsiSeries_none N (Nat.le_of_lt_succ hlen), navsOf, List.length_map]

/-- **The two computations of the RSI agree.** -/
theorem rsi_agreement (points : List NavPoint) :
    ((∀ p ∈ points, 0 < p.nav) → 15 ≤ points.length → ∃ x, SameRsi points x) ∧
      (points.length < 15 → NeutralRsi points ∧
        ((∀ p ∈ points, 0 < p.nav) →
          ∀ N, ∃ ind, computeIndicators N points = .ok ind ∧ ind.rsi = N.round 1 50)) := by
  have hlength : (navsOf points).length = points.length := List.length_map _
  have hnavs (hpos : ∀ p ∈ points, 0 < p.nav) : ∀ v ∈ navsOf points, 0 < v := by
    intro v hv
    obtain ⟨p, hp, rfl⟩ := List.mem_map.1 hv
    exact hpos p hp
  refine ⟨fun hpos hlen => ⟨_, sameRsi (hnavs hpos) (hlength.symm ▸ hlen)⟩, fun hlen => ?_⟩
  have hneutral : NeutralRsi points := neutralRsi (hlength.symm ▸ hlen)
  refine ⟨hneutral, fun hpos N => ?_⟩
  obtain ⟨ind, hind⟩ := computeIndicators_ok N (hnavs hpos)
  exact ⟨ind, hind, hneutral.reported N ind hind⟩

/-- A NAV that doubles and halves from day to day, over `n` days. -/
def swinging (n : ℕ) : List NavPoint :=
  (List.range n).map fun i => { date := "", nav := if i % 2 = 0 then 1 else 2 }

/-- Seven gains of 100 % against seven losses of 50 %; a day earlier both are still undecided. -/
theorem rsi_agreement_swinging :
    SameRsi (swinging 15) (200 / 3) ∧ NeutralRsi (swinging 14) := by
  have hpos : ∀ p ∈ swinging 15, 0 < p.nav := by decide +kernel
  obtain ⟨x, hx⟩ := (rsi_agreement (swinging 15)).1 hpos (by decide)
  have hvalue : rsi (navsOf (swinging 15)) = 200 / 3 := by decide +kernel
  rw [← hvalue, hx.forecast]
  exact ⟨hx, ((rsi_agreement (swinging 14)).2 (by decide)).1⟩

end Predictor

end QuantFlow
