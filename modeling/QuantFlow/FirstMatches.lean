/-
**The first matches of a walk along the integers.**

A walk visits the integers from a start and keeps those that match, until it has kept a given number.
If matches are never more than a fixed distance apart it ends, and it ends within the first integers
it visits exactly if all of those match: each one that does not is made up for by one further on.

Main definitions:

* `pick` — the first `need` matches from `d` on, with `fuel` bounding the walk.

Main results:

* `le_of_mem_pick`, `pairwise_pick` — the walk goes forward;
* `length_pick` — **with enough fuel it keeps as many as it needs**;
* `pick_within_iff` — **when it ends within the first integers it visits**.
-/

import Mathlib.Data.List.Basic
import Mathlib.Tactic.Linarith
import Mathlib.Tactic.Ring

namespace FirstMatches

variable {p : ℤ → Bool}

/-- The first `need` matches from `d` on. -/
def pick (p : ℤ → Bool) : ℕ → ℕ → ℤ → List ℤ
  | 0, _, _ => []
  | _ + 1, 0, _ => []
  | fuel + 1, need + 1, d =>
    if p d then d :: pick p fuel need (d + 1) else pick p fuel (need + 1) (d + 1)

@[simp] theorem pick_zero (fuel : ℕ) (d : ℤ) : pick p fuel 0 d = [] := by
  cases fuel <;> rfl

theorem pick_of_match {fuel need : ℕ} {d : ℤ} (h : p d = true) :
    pick p (fuel + 1) (need + 1) d = d :: pick p fuel need (d + 1) := if_pos h

theorem pick_of_not_match {fuel need : ℕ} {d : ℤ} (h : p d = false) :
    pick p (fuel + 1) (need + 1) d = pick p fuel (need + 1) (d + 1) := by
  rw [pick, h, if_neg Bool.false_ne_true]

theorem le_of_mem_pick {fuel need : ℕ} {d x : ℤ} (h : x ∈ pick p fuel need d) :
    d ≤ x ∧ p x = true := by
  induction fuel generalizing need d with
  | zero => cases h
  | succ fuel ih =>
    cases need with
    | zero => cases h
    | succ need =>
      cases hd : p d with
      | true =>
        rw [pick_of_match hd] at h
        rcases List.mem_cons.1 h with rfl | h
        · exact ⟨le_rfl, hd⟩
        · have hrest := ih h
          exact ⟨by omega, hrest.2⟩
      | false =>
        rw [pick_of_not_match hd] at h
        have hrest := ih h
        exact ⟨by omega, hrest.2⟩

theorem pairwise_pick (p : ℤ → Bool) (fuel need : ℕ) (d : ℤ) :
    (pick p fuel need d).Pairwise (· < ·) := by
  induction fuel generalizing need d with
  | zero => exact .nil
  | succ fuel ih =>
    cases need with
    | zero => exact .nil
    | succ need =>
      cases hd : p d with
      | true =>
        rw [pick_of_match hd]
        refine .cons ?_ (ih need (d + 1))
        intro x hx
        have hle := (le_of_mem_pick hx).1
        omega
      | false =>
        rw [pick_of_not_match hd]
        exact ih (need + 1) (d + 1)

/-- The induction is on the fuel; `k` is the distance to a match ahead. -/
theorem length_pick_succ {g : ℕ} (hgap : ∀ d, ∃ k : ℕ, k ≤ g ∧ p (d + k) = true) {fuel need k : ℕ}
    {d : ℤ} (hk : p (d + k) = true) (hfuel : k + (g + 1) * need + 1 ≤ fuel) :
    (pick p fuel (need + 1) d).length = need + 1 := by
  induction fuel generalizing need k d with
  | zero => omega
  | succ fuel ih =>
    cases hd : p d with
    | true =>
      rw [pick_of_match hd, List.length_cons, Nat.add_right_cancel_iff]
      cases need with
      | zero => rw [pick_zero, List.length_nil]
      | succ need =>
        obtain ⟨k', hk', hmatch⟩ := hgap (d + 1)
        refine ih hmatch ?_
        have hexpand : (g + 1) * (need + 1) = (g + 1) * need + (g + 1) := by ring
        omega
    | false =>
      rw [pick_of_not_match hd]
      cases k with
      | zero =>
        rw [Nat.cast_zero, add_zero, hd] at hk
        cases hk
      | succ k =>
        refine ih (k := k) ?_ (by omega)
        rwa [show d + 1 + (k : ℤ) = d + ((k + 1 : ℕ) : ℤ) by push_cast; ring]

/-- **With enough fuel the walk keeps as many as it needs.** -/
theorem length_pick {g : ℕ} (hgap : ∀ d, ∃ k : ℕ, k ≤ g ∧ p (d + k) = true) {fuel need : ℕ} {d : ℤ}
    (hfuel : (g + 1) * need ≤ fuel) : (pick p fuel need d).length = need := by
  cases need with
  | zero => rw [pick_zero, List.length_nil]
  | succ need =>
    obtain ⟨k, hk, hmatch⟩ := hgap d
    have hexpand : (g + 1) * (need + 1) = (g + 1) * need + (g + 1) := by ring
    exact length_pick_succ hgap hmatch (by omega)

/-- Increasing integers from `d` on reach at least as far as there are of them. -/
theorem exists_ge_of_pairwise {xs : List ℤ} {d : ℤ} (hxs : xs.Pairwise (· < ·))
    (hd : ∀ x ∈ xs, d ≤ x) (hne : xs ≠ []) : ∃ x ∈ xs, d + xs.length ≤ x + 1 := by
  induction xs generalizing d with
  | nil => exact absurd rfl hne
  | cons a xs ih =>
    rw [List.pairwise_cons] at hxs
    rw [List.forall_mem_cons] at hd
    by_cases hnil : xs = []
    · subst hnil
      exact ⟨a, List.mem_cons_self, by simpa using hd.1⟩
    · obtain ⟨x, hx, hfar⟩ := ih (d := d + 1) hxs.2 (fun x hx => by have := hxs.1 x hx; omega) hnil
      refine ⟨x, List.mem_cons_of_mem a hx, ?_⟩
      rw [List.length_cons]
      push_cast
      omega

/-- **The walk ends within the first integers it visits exactly if all of those match.** -/
theorem pick_within_iff {fuel need : ℕ} {d : ℤ} (hlength : (pick p fuel need d).length = need) :
    (∀ x ∈ pick p fuel need d, x < d + need) ↔ ∀ k < need, p (d + (k : ℕ)) = true := by
  induction fuel generalizing need d with
  | zero =>
    obtain rfl : need = 0 := hlength.symm
    simp
  | succ fuel ih =>
    cases need with
    | zero => simp
    | succ need =>
      cases hd : p d with
      | true =>
        rw [pick_of_match hd] at hlength ⊢
        have hrest := ih (d := d + 1) (Nat.succ.inj hlength)
        have hshift : ∀ k : ℕ, d + 1 + (k : ℤ) = d + ((k + 1 : ℕ) : ℤ) := by
          intro k
          push_cast
          ring
        rw [List.forall_mem_cons]
        constructor
        · rintro ⟨-, hall⟩ k hk
          cases k with
          | zero => rwa [Nat.cast_zero, add_zero]
          | succ k =>
            rw [← hshift]
            refine hrest.1 (fun x hx => ?_) k (by omega)
            rw [hshift]
            exact hall x hx
        · intro hall
          refine ⟨by push_cast; omega, fun x hx => ?_⟩
          rw [← hshift]
          refine hrest.2 (fun k hk => ?_) x hx
          rw [hshift]
          exact hall (k + 1) (by omega)
      | false =>
        -- the start does not match, so the last one kept lies beyond the first integers
        have hstart : ¬ ∀ k < need + 1, p (d + (k : ℕ)) = true := by
          intro hall
          have hzero := hall 0 (Nat.succ_pos need)
          rw [Nat.cast_zero, add_zero, hd] at hzero
          cases hzero
        rw [pick_of_not_match hd] at hlength ⊢
        have hne : pick p fuel (need + 1) (d + 1) ≠ [] := by
          intro hnil
          rw [hnil] at hlength
          cases hlength
        obtain ⟨x, hx, hfar⟩ := exists_ge_of_pairwise (pairwise_pick p fuel (need + 1) (d + 1))
          (fun x hx => (le_of_mem_pick hx).1) hne
        refine iff_of_false (fun hall => ?_) hstart
        have hnear := hall x hx
        rw [hlength] at hfar
        omega

end FirstMatches
