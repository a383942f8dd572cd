/-
**Bisection with stored values.**

A bisection keeps two points and the values of a function there, and replaces one of the points by
the midpoint until the function is small at a midpoint.  Which point is replaced is read off the
sign of the product of the value at the left point and the value at the midpoint alone.

The values at the two points have no common strict sign as long as the left one is not zero.  A zero
at the left point makes that product zero whatever lies to the right of it, so the left point moves
on and the root it stood on is lost; from then on the value at the left point is not zero any more.

Main definitions:

* `State` — the two points with their values;
* `step`, `rounds` — one round, and a number of them;
* `Tracks`, `Bracket` — the stored values are those of the points; and they have
  no common strict sign.

Main results:

* `tracks_step`, `width_rounds` — every round keeps the values and halves the interval;
* `bracket_step` — **a round keeps the bracket if the value at the left point is not zero**;
* `bracket_rounds_iff` — **and over any number of rounds the bracket is kept exactly if the
  first round keeps it**.
-/

import Mathlib.Algebra.Order.Field.Basic
import Mathlib.Tactic.Linarith
import Mathlib.Tactic.Ring

namespace Bisection

/-- Two points, and the values there. -/
structure State (K : Type) where
  lo : K
  hi : K
  fLo : K
  fHi : K
  deriving DecidableEq

/-- What rounds lead to: a point where the function is small, or a smaller interval. -/
inductive Outcome (K : Type)
  | found (x : K)
  | interval (s : State K)
  deriving DecidableEq

variable {K : Type} [Field K] [LinearOrder K]

def State.start (f : K → K) (lo hi : K) : State K := { lo := lo, hi := hi, fLo := f lo, fHi := f hi }

def State.mid (s : State K) : K := (s.lo + s.hi) / 2

def step (f : K → K) (tol : K) (s : State K) : Outcome K :=
  if |f s.mid| < tol then .found s.mid
  else if s.fLo * f s.mid < 0 then .interval { s with hi := s.mid, fHi := f s.mid }
  else .interval { s with lo := s.mid, fLo := f s.mid }

def rounds (f : K → K) (tol : K) : ℕ → State K → Outcome K
  | 0, s => .interval s
  | n + 1, s =>
    match step f tol s with
    | .found x => .found x
    | .interval s' => rounds f tol n s'

/-- The point a bisection answers with. -/
def Outcome.answer : Outcome K → K
  | .found x => x
  | .interval s => s.mid

/-- The stored values are those of the points. -/
structure Tracks (f : K → K) (s : State K) : Prop where
  lt : s.lo < s.hi
  fLo : s.fLo = f s.lo
  fHi : s.fHi = f s.hi

/-- And they have no common strict sign. -/
structure Bracket (f : K → K) (s : State K) : Prop extends Tracks f s where
  sign : s.fLo * s.fHi ≤ 0

variable {f : K → K} {tol : K} {s s' : State K} {n : ℕ}

/-! ### One round -/

/-- **What a round can do.** -/
theorem step_cases (f : K → K) (tol : K) (s : State K) :
    (|f s.mid| < tol ∧ step f tol s = .found s.mid) ∨
      (tol ≤ |f s.mid| ∧ s.fLo * f s.mid < 0 ∧
        step f tol s = .interval { s with hi := s.mid, fHi := f s.mid }) ∨
      (tol ≤ |f s.mid| ∧ 0 ≤ s.fLo * f s.mid ∧
        step f tol s = .interval { s with lo := s.mid, fLo := f s.mid }) := by
  by_cases hsmall : |f s.mid| < tol
  · exact .inl ⟨hsmall, if_pos hsmall⟩
  · by_cases hsign : s.fLo * f s.mid < 0
    · refine .inr (.inl ⟨not_lt.1 hsmall, hsign, ?_⟩)
      rw [step, if_neg hsmall, if_pos hsign]
    · refine .inr (.inr ⟨not_lt.1 hsmall, not_lt.1 hsign, ?_⟩)
      rw [step, if_neg hsmall, if_neg hsign]

theorem rounds_succ_of_interval (h : step f tol s = .interval s') :
    rounds f tol (n + 1) s = rounds f tol n s' := by
  rw [rounds, h]

theorem rounds_succ_of_found {x : K} (h : step f tol s = .found x) :
    rounds f tol (n + 1) s = .found x := by
  rw [rounds, h]

/-- **A property that every round keeps holds of every interval a bisection comes to.** -/
theorem rounds_invariant {P : State K → Prop}
    (hstep : ∀ s s', P s → step f tol s = .interval s' → P s') (hs : P s)
    (h : rounds f tol n s = .interval s') : P s' := by
  induction n generalizing s with
  | zero =>
    cases h
    exact hs
  | succ n ih =>
    cases hround : step f tol s with
    | found x =>
      rw [rounds_succ_of_found hround] at h
      cases h
    | interval mid =>
      rw [rounds_succ_of_interval hround] at h
      exact ih (hstep s mid hs hround) h

/-- A point that was found is one where the function is small. -/
theorem small_of_found {x : K} (h : rounds f tol n s = .found x) : |f x| < tol := by
  induction n generalizing s with
  | zero => cases h
  | succ n ih =>
    rcases step_cases f tol s with ⟨hsmall, hround⟩ | ⟨-, -, hround⟩ | ⟨-, -, hround⟩
    · rw [rounds_succ_of_found hround] at h
      cases h
      exact hsmall
    · rw [rounds_succ_of_interval hround] at h
      exact ih h
    · rw [rounds_succ_of_interval hround] at h
      exact ih h

variable [IsStrictOrderedRing K]

theorem State.lo_lt_mid (h : s.lo < s.hi) : s.lo < s.mid := left_lt_add_div_two.2 h

theorem State.mid_lt_hi (h : s.lo < s.hi) : s.mid < s.hi := add_div_two_lt_right.2 h

theorem tracks_step (h : Tracks f s) (hround : step f tol s = .interval s') : Tracks f s' := by
  rcases step_cases f tol s with ⟨-, heq⟩ | ⟨-, -, heq⟩ | ⟨-, -, heq⟩
  · rw [heq] at hround
    cases hround
  · rw [heq] at hround
    cases hround
    exact ⟨State.lo_lt_mid h.lt, h.fLo, rfl⟩
  · rw [heq] at hround
    cases hround
    exact ⟨State.mid_lt_hi h.lt, rfl, h.fHi⟩

theorem width_step (hround : step f tol s = .interval s') :
    s'.hi - s'.lo = (s.hi - s.lo) / 2 := by
  rcases step_cases f tol s with ⟨-, heq⟩ | ⟨-, -, heq⟩ | ⟨-, -, heq⟩
  · rw [heq] at hround
    cases hround
  · rw [heq] at hround
    cases hround
    show (s.lo + s.hi) / 2 - s.lo = (s.hi - s.lo) / 2
    ring
  · rw [heq] at hround
    cases hround
    show s.hi - (s.lo + s.hi) / 2 = (s.hi - s.lo) / 2
    ring

theorem width_rounds (h : rounds f tol n s = .interval s') :
    s'.hi - s'.lo = (s.hi - s.lo) / 2 ^ n := by
  induction n generalizing s with
  | zero =>
    cases h
    rw [pow_zero, div_one]
  | succ n ih =>
    cases hround : step f tol s with
    | found x =>
      rw [rounds_succ_of_found hround] at h
      cases h
    | interval next =>
      rw [rounds_succ_of_interval hround] at h
      rw [ih h, width_step hround, div_div, pow_succ']

/-! ### The bracket -/

theorem ne_zero_of_le_abs (htol : 0 < tol) {y : K} (h : tol ≤ |y|) : y ≠ 0 :=
  abs_pos.1 (htol.trans_le h)

/-- The right end takes over the sign of a value on the same side as the left one. -/
theorem mul_nonpos_of_same_side {a b c : K} (ha : a ≠ 0) (hab : 0 ≤ a * b) (hac : a * c ≤ 0) :
    b * c ≤ 0 := by
  rcases ha.lt_or_gt with hneg | hpos
  · have hb : b ≤ 0 := by
      by_contra hb
      exact absurd (mul_neg_of_neg_of_pos hneg (not_le.1 hb)) (not_lt.2 hab)
    have hc : 0 ≤ c := by
      by_contra hc
      exact absurd (mul_pos_of_neg_of_neg hneg (not_le.1 hc)) (not_lt.2 hac)
    exact mul_nonpos_of_nonpos_of_nonneg hb hc
  · have hb : 0 ≤ b := by
      by_contra hb
      exact absurd (mul_neg_of_pos_of_neg hpos (not_le.1 hb)) (not_lt.2 hab)
    have hc : c ≤ 0 := by
      by_contra hc
      exact absurd (mul_pos hpos (not_le.1 hc)) (not_lt.2 hac)
    exact mul_nonpos_of_nonneg_of_nonpos hb hc

/-- **A round keeps the bracket if the value at the left point is not zero**, and leaves such a
value there again. -/
theorem bracket_step (htol : 0 < tol) (h : Bracket f s ∧ s.fLo ≠ 0)
    (hround : step f tol s = .interval s') : Bracket f s' ∧ s'.fLo ≠ 0 := by
  have htracks := tracks_step h.1.toTracks hround
  rcases step_cases f tol s with ⟨-, heq⟩ | ⟨-, hneg, heq⟩ | ⟨hlarge, hsame, heq⟩
  · rw [heq] at hround
    cases hround
  · rw [heq] at hround
    cases hround
    exact ⟨⟨htracks, hneg.le⟩, h.2⟩
  · rw [heq] at hround
    cases hround
    exact ⟨⟨htracks, mul_nonpos_of_same_side h.2 hsame h.1.sign⟩, ne_zero_of_le_abs htol hlarge⟩

theorem bracket_rounds (htol : 0 < tol) (h : Bracket f s) (hne : s.fLo ≠ 0)
    (hrounds : rounds f tol n s = .interval s') : Bracket f s' :=
  (rounds_invariant (fun _ _ => bracket_step htol) ⟨h, hne⟩ hrounds).1

/-- **Over any number of rounds the bracket is kept exactly if the first round keeps it**: the value
at the left point is not zero, or the midpoint is found, or the left point moves to one whose value
brackets the right one. -/
theorem bracket_rounds_iff (htol : 0 < tol) (h : Bracket f s) :
    (∀ n s', rounds f tol n s = .interval s' → Bracket f s') ↔
      s.fLo ≠ 0 ∨ |f s.mid| < tol ∨ f s.mid * s.fHi ≤ 0 := by
  constructor
  · intro hall
    by_contra hnone
    simp only [not_or, not_not, not_lt, not_le] at hnone
    obtain ⟨hzero, hlarge, hsame⟩ := hnone
    have hround : step f tol s = .interval { s with lo := s.mid, fLo := f s.mid } := by
      rw [step, if_neg (not_lt.2 hlarge), if_neg (by rw [hzero, zero_mul]; exact lt_irrefl 0)]
    have hone := hall 1 _ (rounds_succ_of_interval hround)
    exact absurd hone.sign (not_le.2 hsame)
  · intro hfirst n s' hrounds
    by_cases hne : s.fLo ≠ 0
    · exact bracket_rounds htol h hne hrounds
    cases n with
    | zero =>
      cases hrounds
      exact h
    | succ n =>
      rw [not_not] at hne
      -- the left value is zero, so the first round finds the midpoint or moves the left point
      rcases step_cases f tol s with ⟨-, heq⟩ | ⟨-, hneg, -⟩ | ⟨hlarge, -, heq⟩
      · rw [rounds_succ_of_found heq] at hrounds
        cases hrounds
      · rw [hne, zero_mul] at hneg
        exact absurd hneg (lt_irrefl 0)
      · rw [rounds_succ_of_interval heq] at hrounds
        have hsign : f s.mid * s.fHi ≤ 0 :=
          (hfirst.resolve_left (not_not.2 hne)).resolve_left (not_lt.2 hlarge)
        exact bracket_rounds htol ⟨tracks_step h.toTracks heq, hsign⟩
          (ne_zero_of_le_abs htol hlarge) hrounds

end Bisection
