/-
**What a normal plan reports: its return and its cash flows.**

A normal plan buys for the same sum at each of its points, so its state after the loop has a closed
form (`loop_normal`).  Two reported numbers follow from it.

The total return sets the final value against the principal.  The loop books what is left of the
amount after the fee, both as the principal and as the sum the shares are bought for; the fee is a
common factor of the two and drops out of the quotient.

The rate of return comes from the flows `run` passes to `_xirr`.  The final value is computed at the
last NAV of the history, but dated on the day of the last investment.  On a history that grows at
one rate the flows therefore discount to zero at that rate exactly when the fund does not grow from
the last investment to the end of the history.

Main definitions:

* `plainReturn` — the return of equal purchases, in percent;
* `unroundedReturn` — the return a run reports, before it is rounded.

Main results:

* `totalReturn_normal` — **below a fee of the whole amount the return does not depend on the fee**;
* `unroundedReturn_lt_iff` — when a higher fee lowers the reported return;
* `presentValue_flows_eq_zero_iff` — **when the flows of a plan in a fund of constant
  growth discount to zero**.
-/

import Mathlib.Algebra.BigOperators.Ring.List
import QuantFlow.DcaLedger
import QuantFlow.ListSums

namespace QuantFlow

namespace Dca

variable {N : Numerics}

/-! ### The normal plan in closed form -/

theorem loop_normal (amount fee : ℚ) (pts : List NavPoint) :
    let s := loop N .normal amount fee pts
    s.shares = (pts.map fun p => amount * (1 - fee) / p.nav).sum ∧
      s.principal = pts.length * (amount * (1 - fee)) ∧
      s.investCf = pts.map (fun _ => -N.round 2 (amount * (1 - fee))) ∧
      s.dateSeries = pts.map NavPoint.date := by
  refine SelfFinancing.foldl_prefix_induction
    (I := fun pre (s : State) =>
      s.shares = (pre.map fun p => amount * (1 - fee) / p.nav).sum ∧
      s.principal = (pre.length : ℚ) * (amount * (1 - fee)) ∧
      s.investCf = pre.map (fun _ => -N.round 2 (amount * (1 - fee))) ∧
      s.dateSeries = pre.map NavPoint.date) ?_ ?_
  · exact ⟨rfl, by simp, rfl, rfl⟩
  rintro pre p post s - ⟨hshares, hprincipal, hflows, hdates⟩
  refine ⟨?_, ?_, ?_, ?_⟩
  · simp [period, trade, State.buy, State.record, hshares]
  · simp only [period, trade, State.buy, State.record, hprincipal, List.length_append,
      List.length_singleton]
    push_cast
    ring
  · simp [period, trade, State.buy, State.record, hflows]
  · simp [period, trade, State.buy, State.record, hdates]

/-! ### The reported return -/

/-- The return, in percent, of buying for the same sum at each point and selling at the end. -/
def plainReturn (pts : List NavPoint) (final : ℚ) : ℚ :=
  ((pts.map fun p => final / p.nav).sum / pts.length - 1) * 100

variable (N) in
/-- The `total_return` of `run`, before it is rounded. -/
def unroundedReturn (points : List NavPoint) (amount : ℚ) (freq : Freq) (strategy : Strategy)
    (feeBps : ℚ) : ℚ :=
  let s := loop N strategy amount (feeBps / 10000) (investPoints points freq)
  totalReturn s (s.shares * finalNav points)

/-- **The fee drops out of the return**, unless it takes the whole amount: then nothing is invested
and the return is reported as zero. -/
theorem totalReturn_normal {amount : ℚ} (ha : 0 < amount) (fee : ℚ) {pts : List NavPoint}
    (hne : pts ≠ []) (final : ℚ) :
    let s := loop N .normal amount fee pts
    totalReturn s (s.shares * final) = if fee < 1 then plainReturn pts final else 0 := by
  intro s
  obtain ⟨hshares, hprincipal, -, -⟩ := loop_normal (N := N) amount fee pts
  have hcount : (0 : ℚ) < pts.length := by exact_mod_cast List.length_pos_iff.2 hne
  have hpays : 0 < s.principal ↔ fee < 1 := by
    rw [hprincipal, mul_pos_iff_of_pos_left hcount, mul_pos_iff_of_pos_left ha, sub_pos]
  have hvalue : s.shares * final =
      amount * (1 - fee) * (pts.map fun p => final / p.nav).sum := by
    rw [hshares, ← List.sum_map_mul_right, ← List.sum_map_mul_left]
    congr 1
    apply List.map_congr_left
    intro p _
    ring
  by_cases hfee : fee < 1
  · rw [totalReturn, if_pos (hpays.2 hfee), if_pos hfee, plainReturn, hvalue, hprincipal]
    have hsum : amount * (1 - fee) ≠ 0 := (mul_pos ha (sub_pos.2 hfee)).ne'
    generalize amount * (1 - fee) = b at hsum
    field_simp
  · rw [totalReturn, if_neg fun h => hfee (hpays.1 h), if_neg hfee]

theorem investPoints_ne_nil {points : List NavPoint} (hlen : 10 ≤ points.length) (freq : Freq) :
    investPoints points freq ≠ [] := by
  cases points with
  | nil => simp at hlen
  | cons p ps =>
    obtain ⟨rest, hrest⟩ := investPoints_cons p ps freq
    rw [hrest]
    exact List.cons_ne_nil p rest

theorem plainReturn_pos_iff {pts : List NavPoint} (hne : pts ≠ []) (final : ℚ) :
    0 < plainReturn pts final ↔ 0 < (pts.map fun p => final / p.nav - 1).sum := by
  have hcount : (0 : ℚ) < pts.length := by exact_mod_cast List.length_pos_iff.2 hne
  have hones : (pts.map fun _ => (1 : ℚ)).sum = pts.length := by simp
  rw [plainReturn, mul_pos_iff_of_pos_right (by norm_num), sub_pos, one_lt_div hcount,
    ListSums.sum_map_sub, hones, sub_pos]

/-- **When a higher fee lowers the return a normal plan reports.**  As long as something is
invested the two returns are equal; a return is lowered only by a fee that takes the whole amount,
when the other fee does not and the purchases gain on the whole. -/
theorem unroundedReturn_lt_iff (strptime : String → Option ℤ) {points : List NavPoint}
    (hlen : 10 ≤ points.length) (hpos : ∀ p ∈ points, 0 < p.nav) {amount : ℚ} (ha : 0 < amount)
    (freq : Freq) {f₁ f₂ : ℚ} (h₁₂ : f₁ < f₂) :
    let reported := unroundedReturn N points amount freq .normal
    (∀ f, run N strptime points amount freq .normal f =
        .ok (report N strptime points amount freq .normal f) ∧
      (report N strptime points amount freq .normal f).totalReturnPct = N.round 2 (reported f)) ∧
    (f₂ < 10000 → reported f₂ = reported f₁) ∧
    (reported f₂ < reported f₁ ↔ f₁ < 10000 ∧ 10000 ≤ f₂ ∧
      0 < ((investPoints points freq).map fun p => finalNav points / p.nav - 1).sum) := by
  intro reported
  have hne := investPoints_ne_nil hlen freq
  have hreported : ∀ f, reported f =
      if f < 10000 then plainReturn (investPoints points freq) (finalNav points) else 0 := by
    intro f
    have hfee : f / 10000 < 1 ↔ f < 10000 := div_lt_one (by norm_num)
    rw [← ite_congr (propext hfee) (fun _ => rfl) fun _ => rfl]
    exact totalReturn_normal ha (f / 10000) hne (finalNav points)
  refine ⟨fun f => ⟨run_eq_ok N hlen hpos strptime amount freq .normal f, rfl⟩, ?_, ?_⟩
  · intro h₂
    rw [hreported, hreported, if_pos h₂, if_pos (h₁₂.trans h₂)]
  · rw [hreported, hreported, ← plainReturn_pos_iff hne]
    by_cases h₂ : f₂ < 10000
    · rw [if_pos h₂, if_pos (h₁₂.trans h₂)]
      constructor
      · exact fun h => absurd h (lt_irrefl _)
      · exact fun h => absurd h₂ (not_lt.2 h.2.1)
    · rw [if_neg h₂]
      by_cases h₁ : f₁ < 10000
      · rw [if_pos h₁]
        exact ⟨fun h => ⟨h₁, not_lt.1 h₂, h⟩, fun h => h.2.2⟩
      · rw [if_neg h₁]
        constructor
        · exact fun h => absurd h (lt_irrefl _)
        · exact fun h => absurd h.1 h₁

/-- The NAV doubles in the middle of the ten days. -/
def risingHistory : List NavPoint := sampleHistory [1, 1, 1, 1, 1, 2, 2, 2, 2, 3]

theorem risingHistory_pos : ∀ p ∈ risingHistory, 0 < p.nav := by decide +kernel

theorem unroundedReturn_lt_iff_rising :
    (10 ≤ risingHistory.length ∧ ∀ p ∈ risingHistory, 0 < p.nav) ∧
      unroundedReturn Numerics.runnable risingHistory 1000 .weekly .normal 15 =
        unroundedReturn Numerics.runnable risingHistory 1000 .weekly .normal 0 :=
  ⟨⟨by decide, risingHistory_pos⟩,
    (unroundedReturn_lt_iff (N := Numerics.runnable) sampleDay (by decide) risingHistory_pos
      (show (0 : ℚ) < 1000 by norm_num) .weekly (show (0 : ℚ) < 15 by norm_num)).2.1
      (by norm_num)⟩

/-- A fee of 15 basis points does not lower the return below that of a plan without a fee. -/
theorem fee_without_effect :
    10 ≤ risingHistory.length ∧ (∀ p ∈ risingHistory, 0 < p.nav) ∧
      ((0 : ℚ) ≤ 0 ∧ (0 : ℚ) < 15 ∧ (15 : ℚ) ≤ 200) ∧
      ¬ unroundedReturn Numerics.runnable risingHistory 1000 .weekly .normal 15 <
        unroundedReturn Numerics.runnable risingHistory 1000 .weekly .normal 0 := by
  refine ⟨by decide, risingHistory_pos, by norm_num, ?_⟩
  decide +kernel

/-! ### The flows of a plan in a fund of constant growth -/

theorem mapM_strptime {strptime : String → Option ℤ} {day : NavPoint → ℤ} {pts : List NavPoint}
    (hday : ∀ p ∈ pts, strptime p.date = some (day p)) :
    (pts.map NavPoint.date).mapM strptime = some (pts.map day) := by
  induction pts with
  | nil => rfl
  | cons p ps ih =>
    have hrest := ih fun q hq => hday q (List.mem_cons_of_mem p hq)
    rw [List.map_cons, List.mapM_cons, hday p List.mem_cons_self, hrest]
    rfl

/-- The flows of a normal plan: the purchases on their days, and the final value on the day of the
last one. -/
theorem xirrArgs_normal {strptime : String → Option ℤ} {day : NavPoint → ℤ}
    {pts : List NavPoint} (hday : ∀ p ∈ pts, strptime p.date = some (day p)) {final : NavPoint}
    (hfinal : pts.getLast? = some final) (amount fee value : ℚ) :
    xirrArgs N strptime (loop N .normal amount fee pts) value =
      some (pts.map day ++ [day final],
        pts.map (fun _ => -N.round 2 (amount * (1 - fee))) ++ [N.round 2 value]) := by
  obtain ⟨-, -, hflows, hdates⟩ := loop_normal (N := N) amount fee pts
  have hlast : (pts.map day).getLast? = some (day final) := by
    rw [List.getLast?_map, hfinal, Option.map_some]
  rw [xirrArgs, hflows, hdates, mapM_strptime hday]
  simp only [Option.bind_eq_bind, Option.bind_some, hlast, Option.pure_def]

/-- Flows at the dates of a list of points, and one more. -/
theorem presentValue_map_append (growth : ℤ → ℚ) (day : NavPoint → ℤ) (flow : NavPoint → ℚ)
    (p : NavPoint) (ps : List NavPoint) (d : ℤ) (a : ℚ) :
    presentValue growth ((p :: ps).map day ++ [d]) ((p :: ps).map flow ++ [a]) =
      ((p :: ps).map fun q => flow q / growth (day q - day p)).sum + a / growth (d - day p) := by
  rw [presentValue, List.zipWith_append (by simp), List.sum_append, List.zipWith_map,
    List.zipWith_self]
  simp

section Growth

variable {growth : ℤ → ℚ} (hg : ∀ t, 0 < growth t)
  (hmul : ∀ s t, growth (s + t) = growth s * growth t)
include hg hmul

theorem growth_sub (s t : ℤ) : growth (t - s) = growth t / growth s := by
  rw [eq_div_iff (hg s).ne', ← hmul, sub_add_cancel]

/-- Equal purchases in a fund of constant growth, and their value at `last` dated at `d`: the
discounted sum is the discounted purchases times the growth from `d` to `last`, less one. -/
theorem presentValue_purchases {day : NavPoint → ℤ} {first : NavPoint} (hfirst : 0 < first.nav)
    {rest : List NavPoint} (amount : ℚ)
    (hnav : ∀ p ∈ first :: rest, p.nav = first.nav * growth (day p - day first))
    (last d : ℤ) :
    presentValue growth ((first :: rest).map day ++ [d])
        ((first :: rest).map (fun _ => -amount) ++
          [((first :: rest).map fun p => amount / p.nav).sum *
            (first.nav * growth (last - day first))]) =
      ((first :: rest).map fun p => amount / growth (day p - day first)).sum *
        (growth (last - d) - 1) := by
  have hshares : ((first :: rest).map fun p => amount / p.nav).sum * first.nav =
      ((first :: rest).map fun p => amount / growth (day p - day first)).sum := by
    rw [← List.sum_map_mul_right]
    congr 1
    apply List.map_congr_left
    intro p hp
    have hp' := (hg (day p - day first)).ne'
    rw [hnav p hp]
    field_simp
  have hpaid : ((first :: rest).map fun p => -amount / growth (day p - day first)).sum =
      -1 * ((first :: rest).map fun p => amount / growth (day p - day first)).sum := by
    rw [← List.sum_map_mul_left]
    congr 1
    apply List.map_congr_left
    intro p _
    ring
  have hstretch : growth (last - day first) / growth (d - day first) = growth (last - d) := by
    rw [← growth_sub hg hmul]
    congr 1
    ring
  rw [presentValue_map_append, hpaid, ← mul_assoc, hshares, mul_div_assoc, hstretch]
  ring

end Growth

/-- **When the flows of a plan in a fund of constant growth discount to zero.**  With flows left
unrounded and no fee, the arguments of `_xirr` discount to zero at the fund's own growth exactly
when the fund does not grow from the last investment to the end of the history. -/
theorem presentValue_flows_eq_zero_iff (hround : ∀ x, N.round 2 x = x) {growth : ℤ → ℚ}
    (hg : ∀ t, 0 < growth t) (hmul : ∀ s t, growth (s + t) = growth s * growth t)
    {strptime : String → Option ℤ} {day : NavPoint → ℤ} {points : List NavPoint}
    (hlen : 10 ≤ points.length) (hday : ∀ p ∈ points, strptime p.date = some (day p))
    {first last : NavPoint} (hfirst : points.head? = some first)
    (hlast : points.getLast? = some last) (hnav₀ : 0 < first.nav)
    (hnav : ∀ p ∈ points, p.nav = first.nav * growth (day p - day first)) {amount : ℚ}
    (ha : 0 < amount) (freq : Freq) :
    let s := loop N .normal amount (0 / 10000) (investPoints points freq)
    run N strptime points amount freq .normal 0 =
        .ok (report N strptime points amount freq .normal 0) ∧
      ∃ final dates flows, (investPoints points freq).getLast? = some final ∧
        xirrArgs N strptime s (s.shares * finalNav points) = some (dates, flows) ∧
        (presentValue growth dates flows = 0 ↔ growth (day last - day final) = 1) := by
  intro s
  have hpos : ∀ p ∈ points, 0 < p.nav := fun p hp => hnav p hp ▸ mul_pos hnav₀ (hg _)
  refine ⟨run_eq_ok N hlen hpos strptime amount freq .normal 0, ?_⟩
  obtain ⟨tail, rfl⟩ : ∃ tail, points = first :: tail := List.head?_eq_some_iff.1 hfirst
  obtain ⟨rest, hrest⟩ := investPoints_cons first tail freq
  have hsub : ∀ p ∈ first :: rest, p ∈ first :: tail := fun p hp =>
    mem_of_mem_investPoints (hrest ▸ hp)
  obtain ⟨final, hfinal⟩ : ∃ final, (first :: rest).getLast? = some final :=
    ⟨_, List.getLast?_cons⟩
  obtain ⟨hshares, -, -, -⟩ := loop_normal (N := N) amount (0 / 10000) (first :: rest)
  have hfee : amount * (1 - 0 / 10000) = amount := by ring
  have hend : finalNav (first :: tail) = first.nav * growth (day last - day first) := by
    rw [finalNav_eq hlast, hnav last (List.mem_of_getLast? hlast)]
  have hargs := xirrArgs_normal (N := N) (fun p hp => hday p (hsub p hp)) hfinal amount (0 / 10000)
    ((loop N .normal amount (0 / 10000) (first :: rest)).shares * finalNav (first :: tail))
  rw [hround, hround] at hargs
  have hpv := presentValue_purchases hg hmul hnav₀ amount (fun p hp => hnav p (hsub p hp))
    (day last) (day final)
  have hpaid : 0 < ((first :: rest).map fun p => amount / growth (day p - day first)).sum := by
    refine List.sum_pos _ ?_ (by simp)
    intro x hx
    obtain ⟨p, -, rfl⟩ := List.mem_map.1 hx
    exact div_pos ha (hg _)
  have hs : s = loop N .normal amount (0 / 10000) (first :: rest) := by rw [← hrest]
  refine ⟨final, _, _, by rw [hrest, hfinal], hs ▸ hargs, ?_⟩
  rw [hs, hshares, hfee, hend, hpv, mul_eq_zero, sub_eq_zero]
  exact or_iff_right hpaid.ne'

/-- The ten days of a fund that doubles every day. -/
def doublingHistory : List NavPoint := sampleHistory ((List.range 10).map fun i => 2 ^ i / 100)

theorem presentValue_flows_doubling :
    let s := loop Numerics.unrounded .normal 1000 (0 / 10000)
      (investPoints doublingHistory .monthly)
    ∃ final dates flows, (investPoints doublingHistory .monthly).getLast? = some final ∧
      xirrArgs Numerics.unrounded sampleDay s (s.shares * finalNav doublingHistory) =
        some (dates, flows) ∧
      (presentValue (fun t => 2 ^ t) dates flows = 0 ↔
        (2 : ℚ) ^ (738895 - (sampleDay final.date).getD 0) = 1) := by
  have hg : ∀ t : ℤ, (0 : ℚ) < 2 ^ t := fun t => zpow_pos (by norm_num) t
  have hmul : ∀ s t : ℤ, (2 : ℚ) ^ (s + t) = 2 ^ s * 2 ^ t := fun s t =>
    zpow_add₀ (by norm_num) s t
  have hday : ∀ p ∈ doublingHistory,
      sampleDay p.date = some ((sampleDay p.date).getD 0) := by decide +kernel
  have hfirst : doublingHistory.head? = some { date := "2024-01-01", nav := 1 / 100 } := by
    decide +kernel
  have hlast : doublingHistory.getLast? = some { date := "2024-01-10", nav := 512 / 100 } := by
    decide +kernel
  have hnav : ∀ p ∈ doublingHistory, p.nav = 1 / 100 *
      2 ^ ((sampleDay p.date).getD 0 - (sampleDay "2024-01-01").getD 0) := by decide +kernel
  exact (presentValue_flows_eq_zero_iff (N := Numerics.unrounded) (fun _ => rfl) hg hmul
    (by decide) hday hfirst hlast (by norm_num) hnav (show (0 : ℚ) < 1000 by norm_num) .monthly).2

/-- The plan invests on the first and the sixth day; the value of the tenth day is dated on the
sixth. -/
theorem flows_misdated :
    let s := loop Numerics.unrounded .normal 1000 (0 / 10000)
      (investPoints doublingHistory .monthly)
    (10 ≤ doublingHistory.length ∧ ∀ p ∈ doublingHistory, p.nav =
        1 / 100 * 2 ^ ((sampleDay p.date).getD 0 - 738886)) ∧
      ∃ dates flows, xirrArgs Numerics.unrounded sampleDay s (s.shares * finalNav doublingHistory) =
          some (dates, flows) ∧
        presentValue (fun t => 2 ^ t) dates flows ≠ 0 := by
  refine ⟨by decide +kernel, [738886, 738891, 738891], [-1000, -1000, 528000], ?_, ?_⟩
  · decide +kernel
  · decide +kernel

end Dca

end QuantFlow
