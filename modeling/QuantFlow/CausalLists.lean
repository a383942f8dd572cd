/-
**List transformers that cannot look ahead.**

A program that reads a series front to back and writes one output per input may use, for its
`i`-th output, the inputs up to `i` and no later one.  This module names that property and gives
the rules by which it is established piece by piece: for a pointwise map, for a loop that carries a
state along the list, for an output computed from an index and the prefix up to it, and for
compositions and pairings of these.

Main definitions:

* `IsCausal` — two inputs that agree on their first `k` entries have outputs that agree on
  their first `k` entries;
* `mapAccum` — a loop with a carried state, one output per input;
* `carried` — the state it carries into a step.

Main results:

* `isCausal_map`, `isCausal_mapAccum`, `isCausal_rangeMap` — the three ways of producing a list;
* `IsCausal.comp`, `IsCausal.zip` — closure;
* `getElem?_mapAccum` — an output is that of a step on the carried state;
* `take_scanl_congr` — the states of a loop before step `k` depend on the first `k` inputs.
-/

import Mathlib.Data.List.Basic

namespace Causal

variable {α β γ σ : Type*}

/-! ### Agreement on a prefix -/

/-- Lists that agree on `k` entries agree on fewer. -/
theorem take_eq_of_le {xs ys : List α} {j k : ℕ} (h : xs.take k = ys.take k) (hj : j ≤ k) :
    xs.take j = ys.take j := by
  have := congrArg (List.take j) h
  rwa [List.take_take, List.take_take, Nat.min_eq_left hj] at this

/-- Lists that agree on `k` entries have the same entry at each place below `k`. -/
theorem getElem?_eq_of_take {xs ys : List α} {i k : ℕ} (h : xs.take k = ys.take k) (hi : i < k) :
    xs[i]? = ys[i]? := by
  rw [← List.getElem?_take_of_lt hi, h, List.getElem?_take_of_lt hi]

theorem getD_eq_of_take {xs ys : List α} {i k : ℕ} (d : α) (h : xs.take k = ys.take k)
    (hi : i < k) : xs.getD i d = ys.getD i d := by
  rw [List.getD_eq_getElem?_getD, List.getD_eq_getElem?_getD, getElem?_eq_of_take h hi]

theorem min_length_eq_of_take {xs ys : List α} {k : ℕ} (h : xs.take k = ys.take k) :
    min k xs.length = min k ys.length := by
  have := congrArg List.length h
  simpa only [List.length_take] using this

/-! ### Causal transformers -/

/-- **A transformer that cannot look ahead.** -/
def IsCausal (f : List α → List β) : Prop :=
  ∀ (k : ℕ) (xs ys : List α), xs.take k = ys.take k → (f xs).take k = (f ys).take k

theorem isCausal_map (g : α → β) : IsCausal (List.map g) := by
  intro k xs ys h
  rw [← List.map_take, h, List.map_take]

theorem isCausal_const_replicate (b : β) :
    IsCausal fun xs : List α => List.replicate xs.length b := by
  intro k xs ys h
  rw [List.take_replicate, List.take_replicate, min_length_eq_of_take h]

theorem IsCausal.comp {g : List β → List γ} {f : List α → List β} (hg : IsCausal g)
    (hf : IsCausal f) : IsCausal fun xs => g (f xs) :=
  fun k xs ys h => hg k _ _ (hf k xs ys h)

theorem IsCausal.zip {f : List α → List β} {g : List α → List γ} (hf : IsCausal f)
    (hg : IsCausal g) : IsCausal fun xs => (f xs).zip (g xs) := by
  intro k xs ys h
  simp only [List.zip, List.take_zipWith]
  rw [hf k xs ys h, hg k xs ys h]

/-- An output per index, each computed from the prefix up to that index. -/
theorem isCausal_rangeMap {h : List α → ℕ → β}
    (hp : ∀ xs ys i, xs.take (i + 1) = ys.take (i + 1) → h xs i = h ys i) :
    IsCausal fun xs => (List.range xs.length).map (h xs) := by
  intro k xs ys hk
  simp only [← List.map_take, List.take_range]
  rw [min_length_eq_of_take hk]
  refine List.map_congr_left fun i hi => hp xs ys i ?_
  have hik : i < k := Nat.lt_of_lt_of_le (List.mem_range.1 hi) (Nat.min_le_left _ _)
  exact take_eq_of_le hk hik

/-! ### Loops with a carried state -/

/-- A loop that carries a state along the list and writes one output per entry. -/
def mapAccum (step : σ → α → σ × β) : σ → List α → List β
  | _, [] => []
  | s, x :: xs => (step s x).2 :: mapAccum step (step s x).1 xs

@[simp] theorem length_mapAccum (step : σ → α → σ × β) (s : σ) (xs : List α) :
    (mapAccum step s xs).length = xs.length := by
  induction xs generalizing s with
  | nil => rfl
  | cons x xs ih => simp only [mapAccum, List.length_cons, ih]

theorem take_mapAccum (step : σ → α → σ × β) (s : σ) (xs : List α) (k : ℕ) :
    (mapAccum step s xs).take k = mapAccum step s (xs.take k) := by
  induction xs generalizing s k with
  | nil => simp [mapAccum]
  | cons x xs ih =>
    cases k with
    | zero => rfl
    | succ k => simp only [mapAccum, List.take_succ_cons, ih]

theorem isCausal_mapAccum (step : σ → α → σ × β) (s : σ) : IsCausal (mapAccum step s) := by
  intro k xs ys h
  rw [take_mapAccum, h, take_mapAccum]

/-- What every output of a loop satisfies, from what one step does under an invariant of the
carried state. -/
theorem forall_mem_mapAccum {step : σ → α → σ × β} {I : σ → Prop} {P : β → Prop} {xs : List α}
    (hstep : ∀ s, ∀ x ∈ xs, I s → I (step s x).1 ∧ P (step s x).2) {s : σ} (hs : I s) :
    ∀ b ∈ mapAccum step s xs, P b := by
  induction xs generalizing s with
  | nil => intro b hb; simp [mapAccum] at hb
  | cons x xs ih =>
    intro b hb
    obtain ⟨hI, hP⟩ := hstep s x List.mem_cons_self hs
    rcases List.mem_cons.1 hb with rfl | hb
    · exact hP
    · exact ih (fun s x' hx' => hstep s x' (List.mem_cons_of_mem x hx')) hI b hb

/-- The state a loop carries into its step `i`. -/
def carried (step : σ → α → σ × β) (s : σ) (xs : List α) (i : ℕ) : σ :=
  (xs.take i).foldl (fun s x => (step s x).1) s

theorem carried_succ (step : σ → α → σ × β) (s : σ) {xs : List α} {i : ℕ} {x : α}
    (h : xs[i]? = some x) :
    carried step s xs (i + 1) = (step (carried step s xs i) x).1 := by
  rw [carried, List.take_add_one, h, List.foldl_append]
  rfl

/-- An output is that of a step on the carried state. -/
theorem getElem?_mapAccum (step : σ → α → σ × β) (s : σ) (xs : List α) (i : ℕ) :
    (mapAccum step s xs)[i]? = xs[i]?.map fun x => (step (carried step s xs i) x).2 := by
  induction xs generalizing s i with
  | nil => rfl
  | cons x xs ih =>
    cases i with
    | zero => rfl
    | succ i =>
      rw [mapAccum, List.getElem?_cons_succ, List.getElem?_cons_succ, ih]
      rfl

/-- The states a loop goes through before its `k`-th step depend on the first `k` inputs only. -/
theorem take_scanl_congr (f : σ → α → σ) (s : σ) {xs ys : List α} {k : ℕ}
    (h : xs.take k = ys.take k) :
    (xs.scanl f s).take (k + 1) = (ys.scanl f s).take (k + 1) := by
  rw [List.take_scanl, List.take_scanl, h]

/-- What every step keeps holds of every state of a loop. -/
theorem forall_mem_scanl {f : σ → α → σ} {P : σ → Prop} {xs : List α}
    (hstep : ∀ s, ∀ x ∈ xs, P s → P (f s x)) {s : σ} (hs : P s) : ∀ t ∈ xs.scanl f s, P t := by
  induction xs generalizing s with
  | nil => simpa using hs
  | cons x xs ih =>
    rw [List.scanl_cons, List.forall_mem_cons]
    exact ⟨hs, ih (fun s y hy => hstep s y (List.mem_cons_of_mem x hy))
      (hstep s x (List.mem_cons_self ..) hs)⟩

/-- What the states of a loop show, where each step decides it from its input alone. -/
theorem map_scanl_eq {f : σ → α → σ} {shown : σ → β} {g : α → β} {xs : List α}
    (h : ∀ s, ∀ x ∈ xs, shown (f s x) = g x) (s : σ) :
    (xs.scanl f s).map shown = shown s :: xs.map g := by
  induction xs generalizing s with
  | nil => simp
  | cons x xs ih =>
    rw [List.scanl_cons, List.map_cons, ih (fun s y hy => h s y (List.mem_cons_of_mem x hy)),
      h s x (List.mem_cons_self ..), List.map_cons]

end Causal
