/-
**Fees only ever take from the equity.**

Two runs of the loop over the same days with different fees hold the same position on every day, so
they multiply their equity by the same growth factor; the one that pays more each day and on each
trade has no more equity.  Rounding after every day does not disturb this as long as it is
monotone and keeps zero.

The gross run pays nothing, so it dominates every run whose daily fee does not exceed the capital,
whatever the signs of the other parameters: the one-time charge is cut to `[0, 0.99]` before use.

Main definitions:

* `Numerics.MonotoneRounding` — what is asked of the rounding;
* `Fees.AtMost` — one set of fees charges no more than another, day by day;
* `Fees.Componentwise` — each fee of one set is at most that of another;
* `Ahead` — the relation between the states of the two loops.

Main results:

* `dayStep_ahead` — one day preserves the relation;
* `scanl_ahead` — so do any number of days, and every day between;
* `totalReturn_le_gross` — **the net return is at most the gross return**;
* `fees_never_help` — **higher fees never give more equity, on any day**.
-/

import QuantFlow.Backtest

namespace QuantFlow

/-- Rounding that preserves the order and keeps zero. -/
structure Numerics.MonotoneRounding (N : Numerics) : Prop where
  mono : ∀ n, Monotone (N.round n)
  zero : ∀ n, N.round n 0 = 0

theorem Numerics.python_monotoneRounding (pow : ℚ → ℚ → ℚ) (sqrt : ℚ → ℚ) :
    (Numerics.python pow sqrt).MonotoneRounding :=
  ⟨Decimal.roundTo_mono, Decimal.roundTo_zero⟩

/-- The rounding of the equity after a day preserves the order and keeps zero. -/
structure Numerics.DayRounding (N : Numerics) : Prop where
  mono : Monotone (N.round 6)
  zero : N.round 6 0 = 0

theorem Numerics.MonotoneRounding.dayRounding {N : Numerics} (hN : N.MonotoneRounding) :
    N.DayRounding :=
  ⟨hN.mono 6, hN.zero 6⟩

theorem Numerics.DayRounding.nonneg {N : Numerics} (hN : N.DayRounding) {x : ℚ} (hx : 0 ≤ x) :
    0 ≤ N.round 6 x := by
  have := hN.mono hx
  rwa [hN.zero] at this

namespace Backtest

variable {N : Numerics}

/-! ### Comparing fees -/

/-- `f` charges no more than `g`, each day and on each trade. -/
structure Fees.AtMost (f g : Fees) : Prop where
  daily : f.daily ≤ g.daily
  oneTime : ∀ target, f.oneTime target ≤ g.oneTime target

theorem Fees.daily_nonneg (f : Fees) : 0 ≤ f.daily :=
  div_nonneg (le_max_left _ _) (by norm_num)

theorem Fees.daily_le_one {f : Fees} (h : f.managementFee ≤ 252) : f.daily ≤ 1 := by
  rw [Fees.daily, div_le_one (by norm_num)]
  exact max_le (by norm_num) h

theorem Fees.daily_eq_zero {fees : Fees} (h : fees.managementFee ≤ 0) : fees.daily = 0 := by
  simp [Fees.daily, max_eq_left h]

theorem Fees.oneTime_nonneg (f : Fees) (target : ℤ) : 0 ≤ f.oneTime target :=
  le_min (le_max_right _ _) (by norm_num)

theorem Fees.oneTime_le_one (f : Fees) (target : ℤ) : f.oneTime target ≤ 1 :=
  (min_le_right _ _).trans (by norm_num)

@[simp] theorem Fees.zero_daily : Fees.zero.daily = 0 := by simp [Fees.daily, Fees.zero]

@[simp] theorem Fees.zero_oneTime (target : ℤ) : Fees.zero.oneTime target = 0 := by
  have h : (0 : ℚ) ≤ 99 / 100 := by norm_num
  simp [Fees.oneTime, Fees.transaction, Fees.zero, h]

theorem Fees.zero_atMost (f : Fees) : Fees.zero.AtMost f :=
  ⟨by simpa using f.daily_nonneg, fun target => by simpa using f.oneTime_nonneg target⟩

/-! ### Two loops over the same days -/

/-- The first loop holds what the second holds and has at least its equity. -/
structure Ahead (s t : LoopState) : Prop where
  holding : s.holding = t.holding
  zero_or_one : t.holding = 0 ∨ t.holding = 1
  nonneg : 0 ≤ t.equity
  le : t.equity ≤ s.equity

theorem ahead_init : Ahead LoopState.init LoopState.init :=
  ⟨rfl, Or.inl rfl, zero_le_one, le_rfl⟩

/-- The growth of a day at a position of `0` or `1`. -/
theorem growth_nonneg {prev nav : ℚ} (hprev : 0 < prev) (hnav : 0 < nav) {h : ℤ}
    (hh : h = 0 ∨ h = 1) : 0 ≤ 1 + (nav / prev - 1) * (h : ℚ) := by
  rcases hh with rfl | rfl
  · simp
  · have := div_pos hnav hprev
    push_cast
    linarith

/-- The equity a day leaves, by whether the position changes. -/
theorem dayStep_equity (fees : Fees) (s : LoopState) (day : Day) :
    (dayStep N fees s day).equity = N.round 6
      (s.equity * (1 + (day.2.2.nav / day.2.1.nav - 1) * s.holding) * (1 - fees.daily) *
        (if day.1 = s.holding then 1 else 1 - fees.oneTime day.1)) := by
  simp only [dayStep]
  split_ifs <;> simp

/-- **One day preserves the lead.** -/
theorem dayStep_ahead (hN : N.DayRounding) {f g : Fees} (hfg : f.AtMost g)
    (hg : g.managementFee ≤ 252) {s t : LoopState} (hst : Ahead s t) {day : Day}
    (hday : day.1 = 0 ∨ day.1 = 1) (hprev : 0 < day.2.1.nav) (hnav : 0 < day.2.2.nav) :
    Ahead (dayStep N f s day) (dayStep N g t day) := by
  have hgrow : 0 ≤ 1 + (day.2.2.nav / day.2.1.nav - 1) * (t.holding : ℚ) :=
    growth_nonneg hprev hnav hst.zero_or_one
  have hdaily : 0 ≤ 1 - g.daily := by linarith [Fees.daily_le_one hg]
  have hcharge : ∀ fees : Fees,
      0 ≤ (if day.1 = t.holding then (1 : ℚ) else 1 - fees.oneTime day.1) := by
    intro fees
    split_ifs
    · exact zero_le_one
    · linarith [fees.oneTime_le_one day.1]
  have hle : (if day.1 = t.holding then (1 : ℚ) else 1 - g.oneTime day.1) ≤
      if day.1 = t.holding then 1 else 1 - f.oneTime day.1 := by
    split_ifs
    · exact le_rfl
    · linarith [hfg.oneTime day.1]
  -- the equity is a product of nonnegative factors, none of which is smaller under `f`
  refine ⟨?_, ?_, ?_, ?_⟩
  · rw [dayStep_holding N f s hday, dayStep_holding N g t hday]
  · rw [dayStep_holding N g t hday]
    exact hday
  · rw [dayStep_equity]
    exact hN.nonneg (mul_nonneg (mul_nonneg (mul_nonneg hst.nonneg hgrow) hdaily) (hcharge g))
  · rw [dayStep_equity, dayStep_equity, hst.holding]
    refine hN.mono ?_
    have h₁ : t.equity * (1 + (day.2.2.nav / day.2.1.nav - 1) * (t.holding : ℚ)) ≤
        s.equity * (1 + (day.2.2.nav / day.2.1.nav - 1) * (t.holding : ℚ)) :=
      mul_le_mul_of_nonneg_right hst.le hgrow
    have h₂ : 1 - g.daily ≤ 1 - f.daily := by linarith [hfg.daily]
    have hs : 0 ≤ s.equity := hst.nonneg.trans hst.le
    exact mul_le_mul (mul_le_mul h₁ h₂ hdaily (mul_nonneg hs hgrow)) hle (hcharge g)
      (mul_nonneg (mul_nonneg hs hgrow) (hdaily.trans h₂))

/-- A day of the loop has a signal of `0` or `1` and two positive NAVs. -/
def Day.Sound (day : Day) : Prop :=
  (day.1 = 0 ∨ day.1 = 1) ∧ 0 < day.2.1.nav ∧ 0 < day.2.2.nav

/-- **The lead is kept on every one of the days.** -/
theorem scanl_ahead (hN : N.DayRounding) {f g : Fees} (hfg : f.AtMost g)
    (hg : g.managementFee ≤ 252) {ds : List Day} (hds : ∀ d ∈ ds, Day.Sound d) {s t : LoopState}
    (hst : Ahead s t) :
    List.Forall₂ Ahead (ds.scanl (dayStep N f) s) (ds.scanl (dayStep N g) t) := by
  induction ds generalizing s t with
  | nil => exact .cons hst .nil
  | cons d ds ih =>
    obtain ⟨hday, hprev, hnav⟩ := hds d List.mem_cons_self
    rw [List.scanl_cons, List.scanl_cons]
    refine .cons hst (ih (fun e he => hds e (List.mem_cons_of_mem _ he)) ?_)
    exact dayStep_ahead hN hfg hg hst hday hprev hnav

theorem days_sound (strategy : Strategy) (short long : ℤ) {points : List NavPoint}
    (hpos : ∀ p ∈ points, 0 < p.nav) :
    ∀ d ∈ days (rawPos N strategy (navsOf points) short long) points, Day.Sound d := by
  intro d hd
  obtain ⟨hraw, hpts⟩ := List.of_mem_zip hd
  obtain ⟨hprev, hnav⟩ := List.of_mem_zip hpts
  exact ⟨signal_zero_or_one N strategy _ short long d.1 hraw, hpos _ hprev,
    hpos _ (List.mem_of_mem_tail hnav)⟩

/-! ### Returns -/

theorem totalReturn_le (hreturn : Monotone (N.round 2)) {xs ys : List ℚ} (hx : 2 ≤ xs.length)
    (hy : 2 ≤ ys.length) (hxh : xs.headD 0 = 1) (hyh : ys.headD 0 = 1)
    (hlast : xs.getLastD 0 ≤ ys.getLastD 0) :
    (Indicators.perfStats N xs).totalReturn ≤ (Indicators.perfStats N ys).totalReturn := by
  rw [Indicators.perfStats, Indicators.perfStats, if_neg (by omega), if_neg (by omega)]
  simp only [hxh, hyh, div_one]
  exact hreturn (by linarith)

theorem states_headD (fees : Fees) (raw : List ℤ) (points : List NavPoint) :
    ((states N fees raw points).map LoopState.equity).headD 0 = 1 := by
  simp [states, List.headD_eq_head?_getD, LoopState.init]

theorem getLastD_le {xs ys : List ℚ} (h : List.Forall₂ (· ≤ ·) xs ys) {x y : ℚ} (hxy : x ≤ y) :
    xs.getLastD x ≤ ys.getLastD y := by
  induction h generalizing x y with
  | nil => exact hxy
  | cons hle _ ih =>
    rw [List.getLastD_cons, List.getLastD_cons]
    exact ih hle

/-- The equity series under the lower fees is nowhere below the one under the higher fees. -/
theorem equity_le (hN : N.DayRounding) {points : List NavPoint} (hpos : ∀ p ∈ points, 0 < p.nav)
    (strategy : Strategy) (short long : ℤ) {f g : Fees} (hfg : f.AtMost g)
    (hg : g.managementFee ≤ 252) :
    List.Forall₂ (· ≤ ·) (runOnce N points strategy short long g).equity
      (runOnce N points strategy short long f).equity := by
  have hahead := scanl_ahead hN hfg hg
    (days_sound (N := N) strategy (clampShort short) (clampLong (clampShort short) long) hpos)
    ahead_init
  simp only [runOnce, List.forall₂_map_left_iff, List.forall₂_map_right_iff]
  exact hahead.flip.imp fun t s hst => hst.le

theorem runOnce_clamp (points : List NavPoint) (strategy : Strategy) (short long : ℤ)
    (fees : Fees) :
    runOnce N points strategy (clampShort short) (clampLong (clampShort short) long) fees =
      runOnce N points strategy short long fees := by
  simp only [runOnce, (clamp_idem short long).1, (clamp_idem short long).2]

theorem length_equity (fees : Fees) (strategy : Strategy) (short long : ℤ)
    {points : List NavPoint} (hne : points ≠ []) :
    (runOnce N points strategy short long fees).equity.length = points.length := by
  simp only [runOnce, List.length_map]
  exact length_states N fees (by simp [navsOf]) hne

/-- **The net return is at most the gross return.** -/
theorem totalReturn_le_gross (hN : N.DayRounding) (hreturn : Monotone (N.round 2))
    {points : List NavPoint} (hlen : 2 ≤ points.length) (hpos : ∀ p ∈ points, 0 < p.nav)
    (strategy : Strategy) (short long : ℤ) {fees : Fees} (hfees : fees.managementFee ≤ 252) :
    (runOnce N points strategy short long fees).stats.perf.totalReturn ≤
      (runOnce N points strategy short long Fees.zero).stats.perf.totalReturn := by
  have hne : points ≠ [] := by rintro rfl; simp at hlen
  have hle := equity_le hN hpos strategy short long fees.zero_atMost hfees
  refine totalReturn_le hreturn ?_ ?_ (states_headD ..) (states_headD ..) (getLastD_le hle le_rfl)
  · exact hlen.trans_eq (length_equity fees strategy short long hne).symm
  · exact hlen.trans_eq (length_equity Fees.zero strategy short long hne).symm

/-! ### Two sets of fees -/

/-- Each fee of `f` is at most the fee of `g`. -/
structure Fees.Componentwise (f g : Fees) : Prop where
  feeBps : f.feeBps ≤ g.feeBps
  managementFee : f.managementFee ≤ g.managementFee
  subscriptionFee : f.subscriptionFee ≤ g.subscriptionFee
  redemptionFee : f.redemptionFee ≤ g.redemptionFee
  transactionCost : f.transactionCost ≤ g.transactionCost

theorem Fees.Componentwise.atMost {f g : Fees} (h : f.Componentwise g) : f.AtMost g := by
  have htransaction : f.transaction ≤ g.transaction := by
    have hcost := max_le_max_left 0 h.transactionCost
    have hbps := h.feeBps
    unfold Fees.transaction
    linarith
  constructor
  · have hmax := max_le_max_left 0 h.managementFee
    unfold Fees.daily
    linarith
  · intro target
    unfold Fees.oneTime
    gcongr
    split_ifs
    · exact h.subscriptionFee
    · exact h.redemptionFee

theorem position_runOnce_eq (points : List NavPoint) (strategy : Strategy) (short long : ℤ)
    (f g : Fees) :
    (runOnce N points strategy short long f).position =
      (runOnce N points strategy short long g).position := by
  simp only [runOnce, position_eq]

/-- **Higher fees never give more equity, on any day, and never another position**; in particular
no fees give more equity or return than a run without any. -/
theorem fees_never_help (hN : N.DayRounding) (hreturn : Monotone (N.round 2))
    {points : List NavPoint} (hlen : 5 ≤ points.length) (hpos : ∀ p ∈ points, 0 < p.nav)
    (strategy : Strategy) (short long : ℤ) {f g : Fees} (hfg : f.Componentwise g)
    (hg : g.managementFee ≤ 252) :
    ∃ low high gross, run N points strategy short long f = .ok low ∧
      run N points strategy short long g = .ok high ∧ low.position = high.position ∧
      List.Forall₂ (· ≤ ·) high.equity low.equity ∧ high.gross = some gross ∧
      List.Forall₂ (· ≤ ·) high.equity gross.grossEquity ∧
      gross.netReturn ≤ gross.grossReturn := by
  refine ⟨_, _, _, run_eq_ok N hlen hpos strategy short long f,
    run_eq_ok N hlen hpos strategy short long g, ?_, ?_, rfl, ?_, ?_⟩
  · exact position_runOnce_eq points strategy short long f g
  · exact equity_le hN hpos strategy short long hfg.atMost hg
  · rw [runOnce_clamp]
    exact equity_le hN hpos strategy short long g.zero_atMost hg
  · rw [runOnce_clamp]
    exact totalReturn_le_gross hN hreturn (by omega) hpos strategy short long hg

/-- The fees of the signature, and ten times as much. -/
theorem fees_never_help_fiveDays :
    ∃ low high gross, run Numerics.runnable (fiveDays 2) .momentum 2 20 {} = .ok low ∧
      run Numerics.runnable (fiveDays 2) .momentum 2 20 { feeBps := 150 } = .ok high ∧
      low.position = high.position ∧ List.Forall₂ (· ≤ ·) high.equity low.equity ∧
      high.gross = some gross ∧ List.Forall₂ (· ≤ ·) high.equity gross.grossEquity ∧
      gross.netReturn ≤ gross.grossReturn :=
  fees_never_help (Numerics.python_monotoneRounding _ _).dayRounding
    ((Numerics.python_monotoneRounding _ _).mono 2) (by decide) (by decide +kernel) .momentum 2 20
    ⟨by decide +kernel, by decide +kernel, by decide +kernel, by decide +kernel,
      by decide +kernel⟩ (by decide +kernel)

end Backtest

end QuantFlow
