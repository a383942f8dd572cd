/-
**The backtest in floats.**

`Backtest` has the engine of `backend/app/backtest.py` in exact numbers.  What a run does
at the edges — a return that rounds to a total loss, a NAV quotient that overflows, an average that
is no number — is decided by the floats it computes with, and these are here: the signals, the loop
with its equity and its position, and the marks.

The crossover rule reads averages that `ma` gives as `None` when they are infinite or NaN.  On such a
day the signal is 0 and the carried state is kept.

Main definitions:

* `signalsMa`, `rawPos` — the daily signals;
* `dayStep`, `run` — the loop, and the run;
* `CrossedUp` — the last strict comparison has the short average above.

Main results:

* `position_eq` — the position is the signal of the day before;
* `signalsMa_last_comparison` — **the crossover signal is the last strict
  comparison of averages that are numbers**.
-/

import QuantFlow.Backtest
import QuantFlow.FloatIndicators
import QuantFlow.FloatRank

namespace QuantFlow

namespace FloatValue

instance : Zero FloatValue := ⟨.finite 0⟩

instance : LT FloatValue := ⟨fun a b => lt a b = true⟩

instance : DecidableLT FloatValue := fun a b => inferInstanceAs (Decidable (lt a b = true))

end FloatValue

namespace FloatBacktest

open FloatValue
open Backtest (Strategy Fees Day days maStep signalsMomentum clampShort clampLong MarkType RunError)

variable (np : NumPy)

/-! ### The run -/

/-- The averages of the two windows, day by day. -/
def averages (navs : List FloatValue) (short long : ℕ) :
    List (Option FloatValue × Option FloatValue) :=
  (FloatIndicators.ma np navs short).zip (FloatIndicators.ma np navs long)

/-- `_signals_ma`. -/
def signalsMa (navs : List FloatValue) (short long : ℕ) : List ℤ :=
  Causal.mapAccum maStep 0 (averages np navs short long)

def rawPos (strategy : Strategy) (navs : List FloatValue) (short long : ℤ) : List ℤ :=
  match strategy with
  | .momentum => signalsMomentum navs short.toNat
  | .buyHold => List.replicate navs.length 1
  | _ => signalsMa np navs short.toNat long.toNat

def transaction (fees : Fees) : FloatValue :=
  add (pyMax (.finite 0) (.finite fees.transactionCost)) (div (.finite fees.feeBps) (.finite 10000))

/-- `min(max(one_time_fee, 0.0), 0.99)`. -/
def oneTime (fees : Fees) (target : ℤ) : FloatValue :=
  let fee := if target = 1 then fees.subscriptionFee else fees.redemptionFee
  pyMin (pyMax (add (transaction fees) (.finite fee)) (.finite 0)) (fl (99 / 100))

def daily (fees : Fees) : FloatValue :=
  div (pyMax (.finite 0) (.finite fees.managementFee)) (.finite 252)

structure LoopState where
  equity : FloatValue
  holding : ℤ

/-- `1 + ret * holding`. -/
def growth (holding : ℤ) (prev nav : FloatValue) : FloatValue :=
  add (.finite 1) (mul (sub (div nav prev) (.finite 1)) (.finite holding))

/-- `equity[-1] * (1 + ret * holding) * (1 - daily_management_fee)`. -/
def accrued (fees : Fees) (s : LoopState) (prev nav : FloatValue) : FloatValue :=
  mul (mul s.equity (growth s.holding prev nav)) (sub (.finite 1) (daily fees))

/-- The body of the loop of `run` for one day. -/
def dayStep (fees : Fees) (s : LoopState) (day : Day FloatValue) : LoopState :=
  let eq := accrued fees s day.2.1.nav day.2.2.nav
  if day.1 = s.holding then { s with equity := round 6 eq }
  else
    { equity := round 6 (mul eq (sub (.finite 1) (oneTime fees day.1)))
      holding := if day.1 = 1 then 1 else 0 }

def LoopState.init : LoopState := { equity := .finite 1, holding := 0 }

def states (fees : Fees) (raw : List ℤ) (points : List FloatPoint) : List LoopState :=
  (days raw points).scanl (dayStep fees) LoopState.init

/-- The marks: the days on which the position changes. -/
def marks (dates : List String) (position : List ℤ) : List (String × MarkType) :=
  (dates.tail.zip (position.zip position.tail)).filterMap fun day =>
    if day.2.2 = day.2.1 then none
    else some (day.1, if day.2.2 = 1 then .buy else .sell)

structure Result where
  equity : List FloatValue
  position : List ℤ
  marks : List (String × MarkType)

/-- The signals of a run, with the windows cut to their ranges. -/
def signals (points : List FloatPoint) (strategy : Strategy) (short long : ℤ) : List ℤ :=
  rawPos np strategy (navsOf points) (clampShort short) (clampLong (clampShort short) long)

/-- `run`.  The loop divides by every NAV but the last; it has no effect outside itself, so a zero
among them is found up front. -/
def run (points : List FloatPoint) (strategy : Strategy) (short long : ℤ) (fees : Fees) :
    Except RunError Result :=
  if points.length < 5 then .error (.reported "历史数据不足，无法回测")
  else if points.dropLast.any fun p => isZero p.nav then .error (.raised .zeroDivision)
  else
    let sts := states fees (signals np points strategy short long) points
    let position := sts.map LoopState.holding
    .ok { equity := sts.map LoopState.equity, position := position
          marks := marks (points.map NavPoint.date) position }

/-! ### The position -/

theorem length_averages (navs : List FloatValue) (short long : ℕ) :
    (averages np navs short long).length = navs.length := by
  simp [averages, FloatIndicators.ma]

theorem length_signals (points : List FloatPoint) (strategy : Strategy) (short long : ℤ) :
    (signals np points strategy short long).length = points.length := by
  cases strategy <;> simp [signals, rawPos, signalsMa, signalsMomentum, length_averages, navsOf]

theorem signalsMa_zero_or_one (navs : List FloatValue) (short long : ℕ) :
    ∀ x ∈ signalsMa np navs short long, x = 0 ∨ x = 1 :=
  Causal.forall_mem_mapAccum (I := fun cur => cur = 0 ∨ cur = 1)
    (fun cur sl _ => Backtest.maStep_zero_or_one cur sl) (Or.inl rfl)

theorem signal_zero_or_one (points : List FloatPoint) (strategy : Strategy) (short long : ℤ) :
    ∀ x ∈ signals np points strategy short long, x = 0 ∨ x = 1 := by
  cases strategy with
  | maCross | other _ => exact signalsMa_zero_or_one np _ _ _
  | buyHold =>
    intro x hx
    exact Or.inr (List.eq_of_mem_replicate hx)
  | momentum =>
    intro x hx
    obtain ⟨i, -, rfl⟩ := List.mem_map.1 hx
    split_ifs <;> simp

theorem dayStep_holding (fees : Fees) (s : LoopState) {day : Day FloatValue}
    (hday : day.1 = 0 ∨ day.1 = 1) : (dayStep fees s day).holding = day.1 := by
  simp only [dayStep]
  split_ifs with hstay hbuy
  · exact hstay.symm
  · exact hbuy.symm
  · exact (hday.resolve_right hbuy).symm

/-- **The position is the signal of the day before.** -/
theorem position_eq (fees : Fees) (points : List FloatPoint) (strategy : Strategy)
    (short long : ℤ) :
    (states fees (signals np points strategy short long) points).map LoopState.holding =
      0 :: (signals np points strategy short long).dropLast := by
  rw [states, ← Backtest.map_fst_days (length_signals np points strategy short long)]
  refine Causal.map_scanl_eq (f := dayStep fees) (g := Prod.fst) (fun s d hd => ?_) LoopState.init
  exact dayStep_holding fees s
    (signal_zero_or_one np points strategy short long d.1 (List.of_mem_zip hd).1)

/-- The result of a run that succeeds. -/
def resultOf (points : List FloatPoint) (strategy : Strategy) (short long : ℤ) (fees : Fees) :
    Result :=
  { equity := (states fees (signals np points strategy short long) points).map LoopState.equity
    position := 0 :: (signals np points strategy short long).dropLast
    marks := marks (points.map NavPoint.date)
      (0 :: (signals np points strategy short long).dropLast) }

theorem run_eq_ok {points : List FloatPoint} (hlen : 5 ≤ points.length)
    (hpos : ∀ p ∈ points, Positive p.nav) (strategy : Strategy) (short long : ℤ) (fees : Fees) :
    run np points strategy short long fees = .ok (resultOf np points strategy short long fees) := by
  have hzero : ¬ points.dropLast.any fun p => isZero p.nav := by
    simp only [List.any_eq_true, not_exists, not_and, Bool.not_eq_true]
    intro p hp
    rcases (hpos p (List.dropLast_subset _ hp)).inf_or_finite with h | ⟨q, h, hq⟩
    · rw [h]
      rfl
    · rw [h]
      exact decide_eq_false hq.ne'
  rw [run, if_neg (not_lt.2 hlen), if_neg hzero]
  simp only [resultOf, position_eq]

/-! ### The crossover rule -/

section Crossing

variable {V : Type} [LT V] [DecidableLT V] (ps : List (Option V × Option V))

/-- Both averages of day `j` are numbers, and the short one is above. -/
def Above (j : ℕ) : Prop := ∃ a b, ps[j]? = some (some a, some b) ∧ b < a

/-- Day `m` decides nothing: an average is missing, or neither is above the other. -/
def Quiet (m : ℕ) : Prop := ∀ a b, ps[m]? = some (some a, some b) → ¬ b < a ∧ ¬ a < b

/-- Among the first `n` days, the last one with a strict comparison has the short average above. -/
def CrossedUp (n : ℕ) : Prop := ∃ j, j < n ∧ Above ps j ∧ ∀ m, j < m → m < n → Quiet ps m

variable {ps}

omit [DecidableLT V] in
theorem crossedUp_succ {i : ℕ} :
    CrossedUp ps (i + 1) ↔ Above ps i ∨ Quiet ps i ∧ CrossedUp ps i := by
  constructor
  · rintro ⟨j, hji, habove, hquiet⟩
    rcases Nat.lt_or_eq_of_le (Nat.le_of_lt_succ hji) with hlt | rfl
    · exact Or.inr ⟨hquiet i hlt (by omega), j, hlt, habove, fun k hjk hki => hquiet k hjk (by omega)⟩
    · exact Or.inl habove
  · rintro (habove | ⟨hday, j, hji, habove, hquiet⟩)
    · exact ⟨i, by omega, habove, fun k hk hk' => by omega⟩
    · refine ⟨j, by omega, habove, fun k hjk hki => ?_⟩
      rcases Nat.lt_or_eq_of_le (Nat.le_of_lt_succ hki) with hlt | rfl
      · exact hquiet k hjk hlt
      · exact hday

/-- The loop carries the verdict of the days before.  The induction is on the day. -/
theorem carried_crossedUp {i : ℕ} (hi : i ≤ ps.length) :
    let cur := Causal.carried maStep 0 ps i
    cur = 1 ∧ CrossedUp ps i ∨ cur = 0 ∧ ¬ CrossedUp ps i := by
  induction i with
  | zero => exact Or.inr ⟨rfl, fun ⟨j, hj, _⟩ => absurd hj (Nat.not_lt_zero j)⟩
  | succ i ih =>
    have hday := List.getElem?_eq_getElem (show i < ps.length by omega)
    have hbefore := ih (by omega)
    simp only [Causal.carried_succ maStep 0 hday]
    rw [crossedUp_succ]
    unfold Above Quiet
    rw [hday]
    rcases hpair : ps[i] with ⟨_ | s, _ | l⟩
    · simpa [maStep, hpair] using hbefore
    · simpa [maStep, hpair] using hbefore
    · simpa [maStep, hpair] using hbefore
    · by_cases habove : l < s
      · simp [maStep, habove]
      · by_cases hbelow : s < l
        · simp [maStep, habove, hbelow]
        · simpa [maStep, habove, hbelow] using hbefore

theorem signal_of_missing {i : ℕ} {a b : Option V} (h : ps[i]? = some (a, b))
    (hnone : a = none ∨ b = none) : (Causal.mapAccum maStep 0 ps)[i]? = some 0 := by
  rw [Causal.getElem?_mapAccum, h, Option.map_some]
  rcases hnone with rfl | rfl
  · rfl
  · cases a <;> rfl

/-- The signal of a day on which both averages are numbers is the verdict of the days up to it. -/
theorem signal_eq_one_iff {i : ℕ} {a b : V} (h : ps[i]? = some (some a, some b)) :
    (Causal.mapAccum maStep 0 ps)[i]? = some 1 ↔ CrossedUp ps (i + 1) := by
  have hout : ∀ cur : ℤ, (maStep cur (some a, some b)).2 = (maStep cur (some a, some b)).1 :=
    fun _ => rfl
  have hi := (List.getElem?_eq_some_iff.1 h).1
  rw [Causal.getElem?_mapAccum, h, Option.map_some, hout, ← Causal.carried_succ maStep 0 h,
    Option.some_inj]
  rcases carried_crossedUp (Nat.succ_le_of_lt hi) with ⟨hone, hcrossed⟩ | ⟨hzero, hnot⟩
  · exact ⟨fun _ => hcrossed, fun _ => hone⟩
  · exact ⟨fun hone => absurd (hzero.symm.trans hone) (by decide), fun hcrossed => absurd hcrossed hnot⟩

end Crossing

/-! ### The averages of floats -/

variable {np} {navs : List FloatValue}

theorem getElem?_ma (np : NumPy) (w : ℕ) {i : ℕ} (hi : i < navs.length) :
    (FloatIndicators.ma np navs w)[i]? = some (if i + 1 < w then none
      else FloatIndicators.r 4 (FloatIndicators.mean np (FloatIndicators.window navs w i))) := by
  simp [FloatIndicators.ma, hi]

theorem ma_ne_nan {w i : ℕ} {a : FloatValue}
    (h : (FloatIndicators.ma np navs w)[i]? = some (some a)) : a ≠ .nan := by
  have hi : i < navs.length := by
    simpa [FloatIndicators.ma] using (List.getElem?_eq_some_iff.1 h).1
  rw [getElem?_ma np w hi, Option.some_inj] at h
  split_ifs at h
  cases hmean : FloatIndicators.mean np (FloatIndicators.window navs w i) with
  | finite q =>
    rw [hmean, FloatIndicators.r, Option.some_inj] at h
    rw [← h, fl]
    split_ifs <;> simp
  | inf s => rw [hmean] at h; cases h
  | nan => rw [hmean] at h; cases h

/-- Two values that are not NaN are equal if neither is below the other. -/
theorem eq_of_not_lt {a b : FloatValue} (ha : a ≠ .nan) (hb : b ≠ .nan) (hba : ¬ b < a)
    (hab : ¬ a < b) : a = b := by
  change ¬ lt b a = true at hba
  change ¬ lt a b = true at hab
  cases a with
  | nan => exact absurd rfl ha
  | finite p =>
    cases b with
    | nan => exact absurd rfl hb
    | finite q =>
      simp only [lt, decide_eq_true_eq, not_lt] at hab hba
      rw [le_antisymm hba hab]
    | inf t => cases t <;> simp [lt] at hab hba
  | inf s =>
    cases b with
    | nan => exact absurd rfl hb
    | finite q => cases s <;> simp [lt] at hab hba
    | inf t => cases s <;> cases t <;> simp [lt] at hab hba ⊢

/-- The days on which nothing is decided, in terms of the two series. -/
theorem quiet_iff {short long m : ℕ} (hm : m < navs.length) :
    Quiet (averages np navs short long) m ↔
      (FloatIndicators.ma np navs short)[m]? = (FloatIndicators.ma np navs long)[m]? ∨
        (FloatIndicators.ma np navs short)[m]? = some none ∨
        (FloatIndicators.ma np navs long)[m]? = some none := by
  have hirrefl : ∀ a : FloatValue, ¬ a < a := by
    intro a h
    change lt a a = true at h
    cases a with
    | finite q => simp [lt] at h
    | inf s => cases s <;> simp [lt] at h
    | nan => simp [lt] at h
  have hs := getElem?_ma np short hm
  have hl := getElem?_ma np long hm
  generalize (if m + 1 < short then none else FloatIndicators.r 4 _) = s at hs
  generalize (if m + 1 < long then none else FloatIndicators.r 4 _) = l at hl
  have hpair : (averages np navs short long)[m]? = some (s, l) :=
    List.getElem?_zip_eq_some.2 ⟨hs, hl⟩
  rw [Quiet, hpair, hs, hl]
  cases s with
  | none => simp
  | some a =>
    cases l with
    | none => simp
    | some b =>
      simp only [Option.some.injEq, Prod.mk.injEq, reduceCtorEq, or_false]
      constructor
      · intro h
        exact eq_of_not_lt (ma_ne_nan hs) (ma_ne_nan hl) (h a b ⟨rfl, rfl⟩).1 (h a b ⟨rfl, rfl⟩).2
      · rintro rfl _ _ ⟨rfl, rfl⟩
        exact ⟨hirrefl a, hirrefl a⟩

theorem above_iff {short long j : ℕ} :
    Above (averages np navs short long) j ↔
      ∃ x y, (FloatIndicators.ma np navs short)[j]? = some (some x) ∧
        (FloatIndicators.ma np navs long)[j]? = some (some y) ∧ y < x := by
  simp only [Above, averages, List.getElem?_zip_eq_some, and_assoc]

/-- **The crossover signal is the last strict comparison of the two averages that is one of
numbers.**  Where an average is missing the signal is 0, and the comparisons before count on. -/
theorem signalsMa_last_comparison (np : NumPy) (navs : List FloatValue) (short long : ℕ) :
    let ms := FloatIndicators.ma np navs short
    let ml := FloatIndicators.ma np navs long
    let signal := signalsMa np navs short long
    signal.length = navs.length ∧
    (∀ i, i < navs.length → i < long - 1 → signal[i]? = some 0) ∧
    ∀ i, i < navs.length →
      (ms[i]? = some none ∨ ml[i]? = some none → signal[i]? = some 0) ∧
      (ms[i]? ≠ some none → ml[i]? ≠ some none →
        (signal[i]? = some 0 ∨ signal[i]? = some 1) ∧
        (signal[i]? = some 1 ↔
          ∃ j, long - 1 ≤ j ∧ j ≤ i ∧
            (∃ x y, ms[j]? = some (some x) ∧ ml[j]? = some (some y) ∧ y < x) ∧
            ∀ m, j < m → m ≤ i → ms[m]? = ml[m]? ∨ ms[m]? = some none ∨ ml[m]? = some none)) := by
  intro ms ml signal
  have hmissing : ∀ i, i < navs.length → ms[i]? = some none ∨ ml[i]? = some none →
      signal[i]? = some 0 := by
    intro i hi hnone
    have hs := getElem?_ma np short hi
    have hl := getElem?_ma np long hi
    refine signal_of_missing (List.getElem?_zip_eq_some.2 ⟨hs, hl⟩) ?_
    rcases hnone with hnone | hnone
    · exact Or.inl (Option.some_inj.1 (hs.symm.trans hnone))
    · exact Or.inr (Option.some_inj.1 (hl.symm.trans hnone))
  have hwarm : ∀ i, i < navs.length → i < long - 1 → ml[i]? = some none := by
    intro i hi hlong
    rw [getElem?_ma np long hi, if_pos (by omega)]
  have hlength : signal.length = navs.length := by
    rw [show signal = Causal.mapAccum maStep 0 (averages np navs short long) from rfl,
      Causal.length_mapAccum, length_averages]
  refine ⟨hlength, fun i hi hlong => hmissing i hi (Or.inr (hwarm i hi hlong)), fun i hi =>
    ⟨hmissing i hi, fun hs hl => ⟨?_, ?_⟩⟩⟩
  · have hlt : i < signal.length := by omega
    rw [List.getElem?_eq_getElem hlt, Option.some_inj, Option.some_inj]
    exact signalsMa_zero_or_one np navs short long _ (List.getElem_mem hlt)
  · have hpair : ∃ a b, (averages np navs short long)[i]? = some (some a, some b) := by
      obtain ⟨a, ha⟩ : ∃ a, ms[i]? = some a := ⟨_, getElem?_ma np short hi⟩
      obtain ⟨b, hb⟩ : ∃ b, ml[i]? = some b := ⟨_, getElem?_ma np long hi⟩
      obtain ⟨x, rfl⟩ := Option.ne_none_iff_exists'.1 (show a ≠ none by rintro rfl; exact hs ha)
      obtain ⟨y, rfl⟩ := Option.ne_none_iff_exists'.1 (show b ≠ none by rintro rfl; exact hl hb)
      exact ⟨x, y, List.getElem?_zip_eq_some.2 ⟨ha, hb⟩⟩
    obtain ⟨a, b, hpair⟩ := hpair
    rw [show signal[i]? = some 1 ↔ _ from signal_eq_one_iff hpair, CrossedUp]
    constructor
    · rintro ⟨j, hji, habove, hquiet⟩
      obtain ⟨x, y, hx, hy, hyx⟩ := above_iff.1 habove
      have hj : long - 1 ≤ j := by
        by_contra hlt
        have hnone := hwarm j (by omega) (by omega)
        rw [show ml[j]? = some (some y) from hy] at hnone
        cases hnone
      exact ⟨j, hj, by omega, ⟨x, y, hx, hy, hyx⟩, fun m hjm hmi =>
        (quiet_iff (by omega)).1 (hquiet m hjm (by omega))⟩
    · rintro ⟨j, -, hji, habove, hquiet⟩
      exact ⟨j, by omega, above_iff.2 habove, fun m hjm hmi =>
        (quiet_iff (by omega)).2 (hquiet m hjm (by omega))⟩

/-- A rise that the long average catches up with on the last day: the tie keeps the position. -/
theorem signalsMa_last_comparison_rise :
    (signalsMa .inOrder ([1, 1, 1, 2, 2, 2].map .finite) 2 3)[5]? = some 1 := by
  have h := signalsMa_last_comparison .inOrder ([1, 1, 1, 2, 2, 2].map .finite) 2 3
  refine ((h.2.2 5 (by decide)).2 (by decide +kernel) (by decide +kernel)).2.2
    ⟨4, by decide, by decide, ?_, ?_⟩
  · exact ⟨.finite 2, fl (16667 / 10000), by decide +kernel, by decide +kernel, by decide +kernel⟩
  · intro m hm hm'
    obtain rfl : m = 5 := by omega
    exact Or.inl (by decide +kernel)

/-- Five NAVs, the last two of which have no sum. -/
def overflowing : List FloatValue := [1, 1, 2, 2 ^ 1023, 2 ^ 1023].map .finite

/-- On the last day both averages are missing, and so the same, after a day with the short average
above: the signal is 0. -/
theorem missing_averages_are_no_tie :
    let ms := FloatIndicators.ma .inOrder overflowing 2
    let ml := FloatIndicators.ma .inOrder overflowing 3
    let signal := signalsMa .inOrder overflowing 2 3
    ms[4]? = some none ∧ ml[4]? = some none ∧ signal[4]? = some 0 ∧
      ¬ (signal[4]? = some 1 ↔
        ∃ j, 3 - 1 ≤ j ∧ j ≤ 4 ∧
          (∃ x y, ms[j]? = some (some x) ∧ ml[j]? = some (some y) ∧ y < x) ∧
          ∀ m, j < m → m ≤ 4 → ms[m]? = ml[m]?) := by
  intro ms ml signal
  have hs : ms[4]? = some none := by decide +kernel
  have hl : ml[4]? = some none := by decide +kernel
  have hzero : signal[4]? = some 0 := by decide +kernel
  refine ⟨hs, hl, hzero, fun h => ?_⟩
  have hone : signal[4]? = some 1 := by
    refine h.2 ⟨3, by decide, by decide, ⟨.finite (2 ^ 1022), fl (2 ^ 1023 / 3), by decide +kernel,
      by decide +kernel, by decide +kernel⟩, fun m hm hm' => ?_⟩
    obtain rfl : m = 4 := by omega
    rw [hs, hl]
  exact absurd (hzero.symm.trans hone) (by decide)

end FloatBacktest

end QuantFlow
