/-
**The books of an investment plan.**

Every period of `loop` moves a sum into the account or out of it at the NAV of its
point: the shares change by the sum over the NAV, the principal by the sum, and the difference of
gross investment and redemption by the sum again.  A sale is capped by the value of the account, so
the shares stay non-negative.  The steps are fair in the sense of `SelfFinancing.FairStep`, and the
profit of the plan is what the market pays on its shares.

Value averaging trades to a target.  The fee is taken from the trade, so the account misses the
target by the fee's part of what was needed; since the target is positive, a sale never reaches its
cap.

Main definitions:

* `moved` — the sum a period moves into the account;
* `Books` — the invariant of the loop.

Main results:

* `books_loop` — the books are in order after every number of periods;
* `profit_eq_gains` — **the plan's profit is the market's**;
* `value_eq_target` — **value averaging misses its target by the fee of its trade**.
-/

import Mathlib.Tactic.FieldSimp
import QuantFlow.Dca
import QuantFlow.SelfFinancing

namespace QuantFlow

namespace Dca

variable (N : Numerics)

/-! ### What a period does -/

/-- The sum a period moves into the account, negative for a sale. -/
def moved (strategy : Strategy) (amount fee : ℚ) (s : State) (nav : ℚ) : ℚ :=
  match strategy with
  | .valueAvg =>
    let need := s.valueTarget + amount - s.shares * nav
    if 0 ≤ need then need * (1 - fee) else -(min (-need) (s.shares * nav) * (1 - fee))
  | _ => amount * (1 - fee)

/-- Shares, principal and the net of purchases and sales all move by the one sum. -/
theorem period_moved (strategy : Strategy) (amount fee : ℚ) (s : State) (p : NavPoint) :
    let q := moved strategy amount fee s p.nav
    let t := period N strategy amount fee s p
    t.shares = s.shares + q / p.nav ∧ t.principal = s.principal + q ∧
      t.grossIn - t.redeemed = s.grossIn - s.redeemed + q := by
  have hbuy : ∀ u : State, ∀ b : ℚ, let t := (u.buy N b p.nav).record N p
      t.shares = u.shares + b / p.nav ∧ t.principal = u.principal + b ∧
        t.grossIn - t.redeemed = u.grossIn - u.redeemed + b := by
    intro u b
    exact ⟨rfl, rfl, by simp only [State.record, State.buy]; ring⟩
  cases strategy with
  | normal => exact hbuy s _
  | other name => exact hbuy s _
  | valueAvg =>
    simp only [moved, period, trade]
    split
    · exact hbuy _ _
    · refine ⟨?_, ?_, ?_⟩
      · simp only [State.record, State.sell]; ring
      · simp only [State.record, State.sell]; ring
      · simp only [State.record, State.sell]; ring

/-- No more is taken out of the account than it is worth. -/
theorem neg_value_le_moved (strategy : Strategy) {amount fee nav : ℚ} {s : State}
    (ha : 0 ≤ amount) (h0 : 0 ≤ fee) (h1 : fee ≤ 1) (hv : 0 ≤ s.shares * nav) :
    -(s.shares * nav) ≤ moved strategy amount fee s nav := by
  have hbuy : ∀ b : ℚ, 0 ≤ b → -(s.shares * nav) ≤ b * (1 - fee) := by
    intro b hb
    have hcut : 0 ≤ b * (1 - fee) := mul_nonneg hb (by linarith)
    linarith
  cases strategy with
  | normal => exact hbuy amount ha
  | other name => exact hbuy amount ha
  | valueAvg =>
    simp only [moved]
    split
    case isTrue hneed => exact hbuy _ hneed
    case isFalse hneed =>
      have hmin : 0 ≤ min (-(s.valueTarget + amount - s.shares * nav)) (s.shares * nav) :=
        le_min (by linarith) hv
      have hcap := min_le_right (-(s.valueTarget + amount - s.shares * nav)) (s.shares * nav)
      have hcut := mul_le_of_le_one_right hmin (show 1 - fee ≤ 1 by linarith)
      linarith

/-! ### The invariant -/

/-- The books of the account: the principal is what was paid in less what was taken out, and no
share is owed. -/
structure Books (s : State) : Prop where
  net : s.principal = s.grossIn - s.redeemed
  held : 0 ≤ s.shares

variable {N}

theorem books_init : Books {} := ⟨by norm_num, le_refl 0⟩

theorem books_period {strategy : Strategy} {amount fee : ℚ} (ha : 0 ≤ amount) (h0 : 0 ≤ fee)
    (h1 : fee ≤ 1) {s : State} (hs : Books s) {p : NavPoint} (hp : 0 < p.nav) :
    Books (period N strategy amount fee s p) := by
  obtain ⟨hshares, hprincipal, hnet⟩ := period_moved N strategy amount fee s p
  refine ⟨by rw [hprincipal, hnet, hs.net], ?_⟩
  have hv : 0 ≤ s.shares * p.nav := mul_nonneg hs.held hp.le
  have hle := neg_value_le_moved strategy ha h0 h1 hv
  rw [hshares]
  have hq : -s.shares ≤ moved strategy amount fee s p.nav / p.nav := by
    rw [le_div_iff₀ hp]
    linarith
  linarith

/-- After any number of periods the books are in order. -/
theorem books_loop {strategy : Strategy} {amount fee : ℚ} (ha : 0 ≤ amount) (h0 : 0 ≤ fee)
    (h1 : fee ≤ 1) {pts : List NavPoint} (hpos : ∀ p ∈ pts, 0 < p.nav) :
    Books (loop N strategy amount fee pts) := by
  refine SelfFinancing.foldl_prefix_induction (I := fun _ s => Books s) books_init ?_
  intro pre p post s hpts hs
  exact books_period ha h0 h1 hs (hpos p (by simp [hpts]))

/-- A trade at the NAV of its point changes value and principal alike. -/
theorem fairStep_period (strategy : Strategy) (amount fee : ℚ) (s : State) {p : NavPoint}
    (hp : p.nav ≠ 0) :
    SelfFinancing.FairStep (period N strategy amount fee) NavPoint.nav State.shares
      State.principal s p := by
  obtain ⟨hshares, hprincipal, -⟩ := period_moved N strategy amount fee s p
  rw [SelfFinancing.FairStep, hshares, hprincipal]
  field_simp
  ring

/-! ### The profit of a plan -/

/-- **The profit of a plan is the market's.**  The principal is gross investment less redemption,
the shares never become negative, and the final value exceeds the principal by the sum, over the
trades, of the shares after the trade times the change of the NAV until the next trade, after the
last trade until the end of the history. -/
theorem profit_eq_gains (strptime : String → Option ℤ) {points : List NavPoint}
    (hlen : 10 ≤ points.length) (hpos : ∀ p ∈ points, 0 < p.nav) {amount : ℚ} (ha : 0 < amount)
    {feeBps : ℚ} (h0 : 0 ≤ feeBps / 10000) (h1 : feeBps / 10000 < 1) (freq : Freq)
    (strategy : Strategy) :
    let pts := investPoints points freq
    let after := loop N strategy amount (feeBps / 10000)
    run N strptime points amount freq strategy feeBps =
        .ok (report N strptime points amount freq strategy feeBps) ∧
      (after pts).principal = (after pts).grossIn - (after pts).redeemed ∧
      (∀ done, done <+: pts → 0 ≤ (after done).shares) ∧
      (after pts).shares * finalNav points - (after pts).principal =
        SelfFinancing.gains
          (SelfFinancing.holdings (period N strategy amount (feeBps / 10000)) State.shares {} pts)
          (navsOf pts) (finalNav points) := by
  intro pts after
  have hpts : ∀ p ∈ pts, 0 < p.nav := nav_pos_of_mem hpos
  have hbooks : ∀ done, done <+: pts → Books (after done) := fun done hdone =>
    books_loop ha.le h0 h1.le fun p hp => hpts p (hdone.subset hp)
  refine ⟨run_eq_ok N hlen hpos strptime amount freq strategy feeBps,
    (hbooks pts (List.prefix_refl pts)).net, fun done hdone => (hbooks done hdone).held, ?_⟩
  have hfair : ∀ s, ∀ p ∈ pts, SelfFinancing.FairStep (period N strategy amount (feeBps / 10000))
      NavPoint.nav State.shares State.principal s p :=
    fun s p hp => fairStep_period strategy amount (feeBps / 10000) s (hpts p hp).ne'
  have hprofit := SelfFinancing.profit_foldl hfair {} (finalNav points)
  rw [zero_mul, sub_zero, zero_add] at hprofit
  exact hprofit

/-- Ten days. -/
def sampleDates : List String :=
  ["2024-01-01", "2024-01-02", "2024-01-03", "2024-01-04", "2024-01-05", "2024-01-06",
    "2024-01-07", "2024-01-08", "2024-01-09", "2024-01-10"]

/-- The number of each of the ten days, counted from the first day of year 1. -/
def sampleDay (date : String) : Option ℤ := (sampleDates.idxOf? date).map fun i => 738886 + i

/-- The ten days with their NAVs; both frequencies trade on the first and the sixth. -/
def sampleHistory (navs : List ℚ) : List NavPoint :=
  List.zipWith (fun date nav => { date := date, nav := nav }) sampleDates navs

/-- The NAV triples for a day. -/
def jumpHistory : List NavPoint := sampleHistory [1, 1, 1, 1, 1, 3, 1, 1, 1, 2]

theorem jumpHistory_pos : ∀ p ∈ jumpHistory, 0 < p.nav := by decide +kernel

theorem profit_eq_gains_jump :
    let after := loop Numerics.runnable .valueAvg 1000 (15 / 10000)
      (investPoints jumpHistory .monthly)
    10 ≤ jumpHistory.length ∧ (∀ p ∈ jumpHistory, 0 < p.nav) ∧ 0 < after.redeemed ∧
      after.principal = after.grossIn - after.redeemed :=
  ⟨by decide, jumpHistory_pos, by decide +kernel,
    (profit_eq_gains (N := Numerics.runnable) sampleDay (by decide) jumpHistory_pos
      (show (0 : ℚ) < 1000 by norm_num) (show (0 : ℚ) ≤ 15 / 10000 by norm_num) (by norm_num)
      .monthly .valueAvg).2.1⟩

/-! ### Value averaging -/

/-- The target grows by the amount with every period. -/
theorem valueTarget_loop (amount fee : ℚ) (pts : List NavPoint) :
    (loop N .valueAvg amount fee pts).valueTarget = pts.length * amount := by
  refine SelfFinancing.foldl_prefix_induction
    (I := fun pre (s : State) => s.valueTarget = (pre.length : ℚ) * amount) (by simp) ?_
  intro pre p post s hpts hs
  have hstep : (period N .valueAvg amount fee s p).valueTarget = s.valueTarget + amount := by
    simp only [period, trade]
    split <;> rfl
  rw [hstep, hs, List.length_append, List.length_singleton]
  push_cast
  ring

theorem loop_append (strategy : Strategy) (amount fee : ℚ) (pts : List NavPoint) (p : NavPoint) :
    loop N strategy amount fee (pts ++ [p]) =
      period N strategy amount fee (loop N strategy amount fee pts) p := by
  rw [loop, List.foldl_append, List.foldl_cons, List.foldl_nil, loop]

/-- A sale down to a non-negative target is no more than the account is worth. -/
theorem sale_uncapped {target value : ℚ} (ht : 0 ≤ target) :
    min (-(target - value)) value = -(target - value) :=
  min_eq_left (by linarith)

/-- After a trade to a target the account misses it by the fee's part of what was needed. -/
theorem value_period {amount : ℚ} (fee : ℚ) {s : State} (ht : 0 ≤ s.valueTarget + amount)
    {p : NavPoint} (hp : p.nav ≠ 0) :
    (period N .valueAvg amount fee s p).shares * p.nav =
      s.valueTarget + amount - fee * (s.valueTarget + amount - s.shares * p.nav) := by
  obtain ⟨hshares, -, -⟩ := period_moved N .valueAvg amount fee s p
  have hmoved : moved .valueAvg amount fee s p.nav =
      (s.valueTarget + amount - s.shares * p.nav) * (1 - fee) := by
    simp only [moved]
    split
    · rfl
    · rw [sale_uncapped ht]
      ring
  rw [hshares, hmoved]
  field_simp
  ring

theorem target_loop (amount fee : ℚ) (done : List NavPoint) :
    (loop N .valueAvg amount fee done).valueTarget + amount =
      ((done.length + 1 : ℕ) : ℚ) * amount := by
  rw [valueTarget_loop]
  push_cast
  ring

section Target

variable {amount fee : ℚ} (ha : 0 < amount) (done : List NavPoint) (p : NavPoint)
include ha

theorem value_loop_append (hp : p.nav ≠ 0) :
    let target := ((done.length + 1 : ℕ) : ℚ) * amount
    (loop N .valueAvg amount fee (done ++ [p])).shares * p.nav =
      target - fee * (target - (loop N .valueAvg amount fee done).shares * p.nav) := by
  intro target
  have htarget : (loop N .valueAvg amount fee done).valueTarget + amount = target :=
    target_loop amount fee done
  have htpos : 0 ≤ target := mul_nonneg (Nat.cast_nonneg _) ha.le
  have hmiss := value_period (N := N) fee (htarget ▸ htpos) hp
  rw [htarget] at hmiss
  rw [loop_append]
  exact hmiss

/-- What is left of the target after the fee is positive, and the fee leaves a part of the rest. -/
theorem shares_loop_append_pos (h0 : 0 ≤ fee) (h1 : fee < 1)
    (hpts : ∀ q ∈ done ++ [p], 0 < q.nav) :
    0 < (loop N .valueAvg amount fee (done ++ [p])).shares := by
  have hp : 0 < p.nav := hpts p (by simp)
  have hheld : 0 ≤ (loop N .valueAvg amount fee done).shares :=
    (books_loop ha.le h0 h1.le fun q hq => hpts q (List.mem_append_left [p] hq)).held
  have htarget : 0 < ((done.length + 1 : ℕ) : ℚ) * amount := mul_pos (by positivity) ha
  have hrest : 0 < ((done.length + 1 : ℕ) : ℚ) * amount * (1 - fee) :=
    mul_pos htarget (by linarith)
  have hkept : 0 ≤ fee * ((loop N .valueAvg amount fee done).shares * p.nav) :=
    mul_nonneg h0 (mul_nonneg hheld hp.le)
  have hvalue : 0 < (loop N .valueAvg amount fee (done ++ [p])).shares * p.nav := by
    rw [value_loop_append ha done p hp.ne']
    linarith
  exact (mul_pos_iff_of_pos_right hp).1 hvalue

end Target

/-- **Value averaging tracks its target.**  After the `k`-th trade the account is worth `k` times
the amount less the fee's part of what was needed before it, no sale reaches its cap, and shares
are left. -/
theorem value_eq_target (strptime : String → Option ℤ) {points : List NavPoint}
    (hlen : 10 ≤ points.length) (hpos : ∀ p ∈ points, 0 < p.nav) {amount : ℚ} (ha : 0 < amount)
    {feeBps : ℚ} (h0 : 0 ≤ feeBps / 10000) (h1 : feeBps / 10000 < 1) (freq : Freq) :
    run N strptime points amount freq .valueAvg feeBps =
        .ok (report N strptime points amount freq .valueAvg feeBps) ∧
      ∀ done p, done ++ [p] <+: investPoints points freq →
        let before := loop N .valueAvg amount (feeBps / 10000) done
        let after := loop N .valueAvg amount (feeBps / 10000) (done ++ [p])
        let target := ((done.length + 1 : ℕ) : ℚ) * amount
        let need := target - before.shares * p.nav
        before.valueTarget + amount = target ∧
          after.shares * p.nav = target - feeBps / 10000 * need ∧
          (feeBps = 0 → after.shares * p.nav = target) ∧
          (need < 0 → min (-need) (before.shares * p.nav) = -need) ∧
          0 < after.shares := by
  refine ⟨run_eq_ok N hlen hpos strptime amount freq .valueAvg feeBps, ?_⟩
  intro done p hdone before after target need
  have hpts : ∀ q ∈ done ++ [p], 0 < q.nav := fun q hq =>
    nav_pos_of_mem hpos q (hdone.subset hq)
  have hvalue : after.shares * p.nav = target - feeBps / 10000 * need :=
    value_loop_append ha done p (hpts p (by simp)).ne'
  refine ⟨target_loop amount (feeBps / 10000) done, hvalue, ?_, ?_,
    shares_loop_append_pos ha done p h0 h1 hpts⟩
  · intro hfee
    rw [hvalue, hfee]
    ring
  · exact fun _ => sale_uncapped (mul_nonneg (Nat.cast_nonneg _) ha.le)

theorem value_eq_target_jump :
    (jumpHistory.take 1) ++ [{ date := "2024-01-06", nav := 3 }] <+:
        investPoints jumpHistory .monthly ∧
      (loop Numerics.runnable .valueAvg 1000 0
        (jumpHistory.take 1 ++ [{ date := "2024-01-06", nav := 3 }])).shares * 3 =
        ((1 + 1 : ℕ) : ℚ) * 1000 := by
  have hdone : (jumpHistory.take 1) ++ [{ date := "2024-01-06", nav := 3 }] <+:
      investPoints jumpHistory .monthly := by decide +kernel
  have htracks := (value_eq_target (N := Numerics.runnable) sampleDay (by decide)
    jumpHistory_pos (show (0 : ℚ) < 1000 by norm_num) (show (0 : ℚ) ≤ 0 / 10000 by norm_num)
    (by norm_num) .monthly).2 _ _ hdone
  refine ⟨hdone, ?_⟩
  have hvalue := htracks.2.2.1 rfl
  rw [zero_div] at hvalue
  exact hvalue

end Dca

end QuantFlow
