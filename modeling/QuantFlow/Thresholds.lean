/-
**The least start from which a chain of steps is survived.**

Steps that keep an order are applied one after another, and a state is lost for good when it is no
longer alive.  Larger states stay alive where smaller ones do, so among the marked states of a grid
there is a least one that survives all the steps, or there is none.  It is found from the last step
to the first, without running the chain: before a step one needs the least marked state that the step
takes to what is needed after it.

Main definitions:

* `Lives` — every state along the chain is alive;
* `need` — the number of the least marked state that survives.

Main results:

* `lives_iff` — **a marked state survives exactly if it is not below the least one**.
-/

import Mathlib.Data.ENat.Lattice

namespace Thresholds

variable {E L : Type} [Preorder L]

/-- Every state along the steps `fs` is alive. -/
def Lives (alive : E → Prop) : List (E → E) → E → Prop
  | [], e => alive e
  | f :: fs, e => alive e ∧ Lives alive fs (f e)

/-- The least `k` such that the `k`-th mark survives the steps, computed from the last one. -/
noncomputable def need (rank : E → L) (alive : E → Prop) (mark : ℕ → E) : List (E → E) → ℕ∞
  | [] => ⨅ k ∈ {k : ℕ | alive (mark k)}, (k : ℕ∞)
  | f :: fs =>
    ⨅ k ∈ {k : ℕ | alive (mark k) ∧
      ∃ j : ℕ, need rank alive mark fs ≤ j ∧ rank (mark j) ≤ rank (f (mark k))}, (k : ℕ∞)

/-- What the steps are required to be: they keep the order, and take what lives to a mark. -/
structure Steps (rank : E → L) (alive : E → Prop) (mark : ℕ → E) (fs : List (E → E)) : Prop where
  mono : ∀ f ∈ fs, ∀ a b, rank a ≤ rank b → rank (f a) ≤ rank (f b)
  marked : ∀ f ∈ fs, ∀ e, alive (f e) → ∃ j, rank (f e) = rank (mark j)

theorem iInf_le_natCast_iff (S : Set ℕ) (n : ℕ) :
    (⨅ k ∈ S, (k : ℕ∞)) ≤ n ↔ ∃ k ∈ S, k ≤ n := by
  constructor
  · intro h
    by_contra hnone
    push Not at hnone
    have hle : ((n + 1 : ℕ) : ℕ∞) ≤ ⨅ k ∈ S, (k : ℕ∞) :=
      le_iInf₂ fun k hk => Nat.cast_le.2 (hnone k hk)
    exact absurd (Nat.cast_le.1 (hle.trans h)) (by omega)
  · rintro ⟨k, hk, hkn⟩
    exact (iInf₂_le k hk).trans (Nat.cast_le.2 hkn)

variable {rank : E → L} {alive : E → Prop} {mark : ℕ → E} {fs : List (E → E)}

theorem Steps.tail {f : E → E} (h : Steps rank alive mark (f :: fs)) : Steps rank alive mark fs :=
  ⟨fun g hg => h.mono g (List.mem_cons_of_mem f hg),
    fun g hg => h.marked g (List.mem_cons_of_mem f hg)⟩

theorem Lives.start {e : E} (h : Lives alive fs e) : alive e := by
  cases fs with
  | nil => exact h
  | cons f fs => exact h.1

/-- Larger states survive what smaller ones survive. -/
theorem Lives.mono (halive : ∀ a b, rank a ≤ rank b → alive a → alive b)
    (hfs : Steps rank alive mark fs) {a b : E} (hab : rank a ≤ rank b) (ha : Lives alive fs a) :
    Lives alive fs b := by
  induction fs generalizing a b with
  | nil => exact halive a b hab ha
  | cons f fs ih =>
    exact ⟨halive a b hab ha.1, ih hfs.tail (hfs.mono f (List.mem_cons_self ..) a b hab) ha.2⟩

/-- **A marked state survives exactly if its number is not below what is needed.**  The induction is
on the steps; after the first one the state is again at a mark. -/
theorem lives_iff (halive : ∀ a b, rank a ≤ rank b → alive a → alive b)
    (hmark : Monotone fun k => rank (mark k)) (hfs : Steps rank alive mark fs) (n : ℕ) :
    Lives alive fs (mark n) ↔ need rank alive mark fs ≤ n := by
  induction fs generalizing n with
  | nil =>
    rw [need, iInf_le_natCast_iff]
    constructor
    · exact fun h => ⟨n, h, le_rfl⟩
    · rintro ⟨k, hk, hkn⟩
      exact halive _ _ (hmark hkn) hk
  | cons f fs ih =>
    have hmem : f ∈ f :: fs := List.mem_cons_self ..
    rw [need, iInf_le_natCast_iff]
    constructor
    · rintro ⟨halive', hlives⟩
      obtain ⟨j, hj⟩ := hfs.marked f hmem _ hlives.start
      have hlives' : Lives alive fs (mark j) := hlives.mono halive hfs.tail hj.le
      exact ⟨n, ⟨halive', j, (ih hfs.tail j).1 hlives', hj.ge⟩, le_rfl⟩
    · rintro ⟨k, ⟨hk, j, hj, hle⟩, hkn⟩
      have hstep : rank (mark j) ≤ rank (f (mark n)) :=
        hle.trans (hfs.mono f hmem _ _ (hmark hkn))
      exact ⟨halive _ _ (hmark hkn) hk, ((ih hfs.tail j).2 hj).mono halive hfs.tail hstep⟩

theorem lives_iff_scanl (e : E) :
    Lives alive fs e ↔ ∀ x ∈ fs.scanl (fun e f => f e) e, alive x := by
  induction fs generalizing e with
  | nil => simp [Lives]
  | cons f fs ih => rw [Lives, List.scanl_cons, List.forall_mem_cons, ih]

/-- If every step leaves a mark alive, that mark survives. -/
theorem need_le_of_kept (halive : ∀ a b, rank a ≤ rank b → alive a → alive b)
    (hmark : Monotone fun k => rank (mark k)) (hfs : Steps rank alive mark fs) {n : ℕ}
    (hn : alive (mark n)) (hkept : ∀ f ∈ fs, rank (mark n) ≤ rank (f (mark n))) :
    need rank alive mark fs ≤ n := by
  rw [← lives_iff halive hmark hfs]
  clear hmark
  induction fs with
  | nil => exact hn
  | cons f fs ih =>
    have hlives := ih hfs.tail fun g hg => hkept g (List.mem_cons_of_mem f hg)
    exact ⟨hn, hlives.mono halive hfs.tail (hkept f (List.mem_cons_self ..))⟩

end Thresholds
