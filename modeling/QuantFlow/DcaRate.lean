/-
**The bracket of the internal rate of return.**

`_xirr` of `backend/app/dca.py` looks for the rate at which the cash flows discount to zero by a
bisection of [-0.99, 20].  It stores the values at both ends and starts only if they have no common
strict sign.  The loop is that of `QuantFlow/Bisection.lean`: it keeps the bracket if the value at
-0.99 is not zero.  A plan whose first payment lost 99 % in a year has its root there; the loop leaves
it behind and answers with a rate near 2000 %.

Main definitions:

* `xirrRounds` — the variables of the loop after a number of its rounds;
* `KeepsBracket` — every interval of the loop is a bracket, and so is the last one.

Main results:

* `bisect_eq_answer` — the loop of `xirr` is this bisection;
* `keepsBracket_iff` — **when the loop keeps its bracket**.
-/

import QuantFlow.Bisection
import QuantFlow.Dca

namespace QuantFlow

namespace Dca

open Bisection (Outcome Bracket rounds)

/-- `1e-7`. -/
def xirrTolerance : ℚ := 1 / 10 ^ 7

/-- The variables `lo`, `hi`, `f_lo` and `f_hi` before the loop. -/
def xirrStart (f : ℚ → ℚ) : Bisection.State ℚ := .start f (-99 / 100) 20

/-- The variables after `n` rounds, or the rate that was returned before. -/
def xirrRounds (f : ℚ → ℚ) (n : ℕ) : Outcome ℚ := rounds f xirrTolerance n (xirrStart f)

/-- The loop needs no value at the right end, so it may be stored or not. -/
theorem bisect_eq_answer (f : ℚ → ℚ) (n : ℕ) (s : Bisection.State ℚ) :
    bisect f n s.lo s.hi s.fLo = (rounds f xirrTolerance n s).answer := by
  induction n generalizing s with
  | zero => rfl
  | succ n ih =>
    rcases Bisection.step_cases f xirrTolerance s with ⟨hsmall, heq⟩ | ⟨hlarge, hneg, heq⟩ |
      ⟨hlarge, hsame, heq⟩
    · rw [Bisection.rounds_succ_of_found heq]
      exact if_pos hsmall
    · rw [Bisection.rounds_succ_of_interval heq, ← ih]
      exact (if_neg (not_lt.2 hlarge)).trans (if_pos hneg)
    · rw [Bisection.rounds_succ_of_interval heq, ← ih]
      exact (if_neg (not_lt.2 hlarge)).trans (if_neg (not_lt.2 hsame))

/-- After every number of rounds the loop has a bracket; so the rate it returns is one where `f` is
small, or it lies in an interval of width `20.99 / 2 ^ 200` whose ends have no common strict sign. -/
structure KeepsBracket (f : ℚ → ℚ) : Prop where
  bracket : ∀ n s, xirrRounds f n = .interval s →
    s.lo < s.hi ∧ s.fLo = f s.lo ∧ s.fHi = f s.hi ∧ s.fLo * s.fHi ≤ 0
  rate : let r := bisect f 200 (-99 / 100) 20 (f (-99 / 100))
    |f r| < 1 / 10 ^ 7 ∨ ∃ lo hi, lo ≤ r ∧ r ≤ hi ∧ hi - lo = (2099 / 100) / 2 ^ 200 ∧
      f lo * f hi ≤ 0

/-- What the loop returns, when all its intervals are brackets. -/
theorem rate_of_brackets {f : ℚ → ℚ}
    (h : ∀ s, xirrRounds f 200 = .interval s → Bracket f s) :
    let r := bisect f 200 (-99 / 100) 20 (f (-99 / 100))
    |f r| < 1 / 10 ^ 7 ∨ ∃ lo hi, lo ≤ r ∧ r ≤ hi ∧ hi - lo = (2099 / 100) / 2 ^ 200 ∧
      f lo * f hi ≤ 0 := by
  intro r
  have hr : r = (xirrRounds f 200).answer := bisect_eq_answer f 200 (xirrStart f)
  cases hrounds : xirrRounds f 200 with
  | found x =>
    rw [hrounds] at hr
    rw [hr]
    exact .inl (Bisection.small_of_found hrounds)
  | interval s =>
    rw [hrounds] at hr
    have hs := h s hrounds
    have hwidth := Bisection.width_rounds hrounds
    refine .inr ⟨s.lo, s.hi, ?_, ?_, ?_, ?_⟩
    · rw [hr]
      exact (Bisection.State.lo_lt_mid hs.lt).le
    · rw [hr]
      exact (Bisection.State.mid_lt_hi hs.lt).le
    · rw [hwidth, xirrStart, Bisection.State.start]
      norm_num
    · rw [← hs.fLo, ← hs.fHi]
      exact hs.sign

/-- **The loop keeps its bracket exactly if the value at -0.99 is not zero**, or the first midpoint
is a root, or it brackets the right end. -/
theorem keepsBracket_iff {f : ℚ → ℚ} (hsign : f (-99 / 100) * f 20 ≤ 0) :
    KeepsBracket f ↔ f (-99 / 100) ≠ 0 ∨ |f (1901 / 200)| < 1 / 10 ^ 7 ∨
      f (1901 / 200) * f 20 ≤ 0 := by
  have hstart : Bracket f (xirrStart f) :=
    ⟨⟨by simp only [xirrStart, Bisection.State.start]; norm_num, rfl, rfl⟩, hsign⟩
  have hmid : (xirrStart f).mid = 1901 / 200 := by
    simp only [xirrStart, Bisection.State.start, Bisection.State.mid]
    norm_num
  have htol : 0 < xirrTolerance := by norm_num [xirrTolerance]
  have hiff := Bisection.bracket_rounds_iff htol hstart
  rw [hmid] at hiff
  refine Iff.trans ?_ hiff
  constructor
  · intro h n s hrounds
    obtain ⟨hlt, hlo, hhi, hs⟩ := h.bracket n s hrounds
    exact ⟨⟨hlt, hlo, hhi⟩, hs⟩
  · intro h
    refine ⟨?_, rate_of_brackets (h 200)⟩
    intro n s hrounds
    have hs := h n s hrounds
    exact ⟨hs.lt, hs.fLo, hs.fHi, hs.sign⟩

/-- A flow out and a flow in after a year, discounted by whole powers. -/
def yearNpv (final : ℚ) : ℚ → ℚ := npv .runnable [0, 365] [-1, final]

theorem keepsBracket_iff_gain :
    yearNpv (11 / 10) (-99 / 100) * yearNpv (11 / 10) 20 ≤ 0 ∧
      (KeepsBracket (yearNpv (11 / 10)) ↔ yearNpv (11 / 10) (-99 / 100) ≠ 0 ∨
        |yearNpv (11 / 10) (1901 / 200)| < 1 / 10 ^ 7 ∨
          yearNpv (11 / 10) (1901 / 200) * yearNpv (11 / 10) 20 ≤ 0) :=
  ⟨by decide +kernel, keepsBracket_iff (by decide +kernel)⟩

/-- Two payments of 1000, a year apart, that are worth 1010 at the end. -/
def lossNpv : ℚ → ℚ := npv .runnable [0, 365, 365] [-1000, -1000, 1010]

/-- Of what the first payment was 99 % is lost: the rate is -0.99, the loop starts, its first round
leaves an interval without a root, and the rate it returns is above 1900 %. -/
theorem bracket_lost :
    lossNpv (-99 / 100) = 0 ∧ lossNpv (-99 / 100) * lossNpv 20 ≤ 0 ∧ ¬ KeepsBracket lossNpv ∧
      19 < xirr .runnable [0, 365, 365] [-1000, -1000, 1010] := by
  have hsign : lossNpv (-99 / 100) * lossNpv 20 ≤ 0 := by decide +kernel
  refine ⟨by decide +kernel, hsign, ?_, by decide +kernel⟩
  intro hkeeps
  have hround : xirrRounds lossNpv 1 =
      .interval ⟨1901 / 200, 20, lossNpv (1901 / 200), lossNpv 20⟩ := by
    decide +kernel
  have hone := hkeeps.bracket 1 _ hround
  exact absurd hone.2.2.2 (by decide +kernel)

end Dca

end QuantFlow
