/-
**Caches that reload what is missing or no longer fresh.**

A cache is a partial map.  A lookup answers from the map when the stored value is fresh, and
otherwise loads a new value, stores it and answers with it; the loader may see the value it
replaces, and it may fail.  A property of stored values that every load establishes is a property
of every value a cache ever answers with, along any sequence of operations.

Main definitions:

* `lookup`, `tryLookup` — a lookup whose loader succeeds, or may fail;
* `Holds` — every stored value has a property of its key;
* `exec` — a sequence of operations.

Main results:

* `Holds.lookup`, `Holds.tryLookup` — lookups keep a property that loads
  establish, and answer with values that have it;
* `exec_invariant` — **what every operation keeps, every run keeps**.
-/

import Mathlib.Logic.Function.Basic

namespace KeyedCache

variable {K V E σ α : Type} [DecidableEq K]

/-! ### Lookups -/

/-- Answer from the store when the value there is fresh, else load one and store it. -/
def lookup (fresh : V → Bool) (load : Option V → V) (store : K → Option V) (k : K) :
    V × (K → Option V) :=
  match store k with
  | some v =>
    if fresh v then (v, store)
    else (load (some v), Function.update store k (some (load (some v))))
  | none => (load none, Function.update store k (some (load none)))

/-- A lookup whose loader may fail; a failure leaves the store as it was. -/
def tryLookup (fresh : V → Bool) (load : Except E V) (store : K → Option V) (k : K) :
    Except E V × (K → Option V) :=
  match (store k).filter fresh, load with
  | some v, _ => (.ok v, store)
  | none, .ok v => (.ok v, Function.update store k (some v))
  | none, .error e => (.error e, store)

section Lookup

variable {fresh : V → Bool} {load : Option V → V} {store : K → Option V} {k : K}

theorem lookup_of_fresh {v : V} (hs : store k = some v) (hf : fresh v = true) :
    lookup fresh load store k = (v, store) := by
  simp [lookup, hs, hf]

theorem lookup_of_stale (h : ∀ v, store k = some v → fresh v = false) :
    lookup fresh load store k =
      (load (store k), Function.update store k (some (load (store k)))) := by
  cases hs : store k with
  | none => simp [lookup, hs]
  | some v => simp [lookup, hs, h v hs]

theorem lookup_cases (fresh : V → Bool) (load : Option V → V) (store : K → Option V) (k : K) :
    (∃ v, store k = some v ∧ fresh v = true ∧ lookup fresh load store k = (v, store)) ∨
      ((∀ v, store k = some v → fresh v = false) ∧ lookup fresh load store k =
        (load (store k), Function.update store k (some (load (store k))))) := by
  by_cases h : ∃ v, store k = some v ∧ fresh v = true
  · obtain ⟨v, hs, hf⟩ := h
    exact .inl ⟨v, hs, hf, lookup_of_fresh hs hf⟩
  · have hstale : ∀ v, store k = some v → fresh v = false := by
      intro v hs
      by_contra hf
      exact h ⟨v, hs, by simpa using hf⟩
    exact .inr ⟨hstale, lookup_of_stale hstale⟩

theorem lookup_stored (fresh : V → Bool) (load : Option V → V) (store : K → Option V) (k : K) :
    (lookup fresh load store k).2 k = some (lookup fresh load store k).1 := by
  rcases lookup_cases fresh load store k with ⟨v, hs, -, he⟩ | ⟨-, he⟩
  · rw [he]
    exact hs
  · rw [he]
    exact Function.update_self k _ store

end Lookup

section TryLookup

variable {fresh : V → Bool} {load : Except E V} {store : K → Option V} {k : K} {v : V}

/-- A successful lookup is a hit, which changes nothing, or a load, which is stored. -/
theorem tryLookup_cases (h : (tryLookup fresh load store k).1 = .ok v) :
    (store k = some v ∧ fresh v = true ∧ (tryLookup fresh load store k).2 = store) ∨
      ((∀ w, store k = some w → fresh w = false) ∧ load = .ok v ∧
        (tryLookup fresh load store k).2 = Function.update store k (some v)) := by
  cases hf : (store k).filter fresh with
  | some w =>
    simp only [tryLookup, hf] at h ⊢
    cases h
    obtain ⟨hs, hw⟩ := Option.filter_eq_some_iff.1 hf
    exact .inl ⟨hs, hw, trivial⟩
  | none =>
    have hstale : ∀ w, store k = some w → fresh w = false := by
      intro w hs
      simpa [hs] using hf
    cases hl : load with
    | ok w =>
      simp only [tryLookup, hf, hl] at h ⊢
      cases h
      exact .inr ⟨hstale, rfl, rfl⟩
    | error e =>
      simp only [tryLookup, hf, hl] at h
      cases h

theorem tryLookup_error {e : E} (h : (tryLookup fresh load store k).1 = .error e) :
    (tryLookup fresh load store k).2 = store := by
  unfold tryLookup at h ⊢
  split at h
  · rfl
  · cases h
  · rfl

end TryLookup

/-! ### Properties of everything stored -/

/-- Every stored value has the property at its key. -/
def Holds (I : K → V → Prop) (store : K → Option V) : Prop := ∀ k v, store k = some v → I k v

variable {I : K → V → Prop} {store : K → Option V}

omit [DecidableEq K] in
theorem holds_empty : Holds I (fun _ => none) := by
  intro k v h
  cases h

theorem Holds.update {k : K} {v : V} (h : Holds I store) (hv : I k v) :
    Holds I (Function.update store k (some v)) := by
  intro k' v' hk'
  by_cases hk : k' = k
  · subst hk
    rw [Function.update_self] at hk'
    cases hk'
    exact hv
  · rw [Function.update_of_ne hk] at hk'
    exact h k' v' hk'

omit [DecidableEq K] in
/-- Removing entries keeps a property of all of them. -/
theorem Holds.mono {store' : K → Option V} (h : Holds I store)
    (hsub : ∀ k v, store' k = some v → store k = some v) : Holds I store' :=
  fun k v hk => h k v (hsub k v hk)

/-- A lookup keeps a property that loads establish, and answers with a value that has it. -/
theorem Holds.lookup {fresh : V → Bool} {load : Option V → V} {k : K} (h : Holds I store)
    (hload : I k (load (store k))) :
    I k (lookup fresh load store k).1 ∧ Holds I (lookup fresh load store k).2 := by
  rcases lookup_cases fresh load store k with ⟨v, hs, -, he⟩ | ⟨-, he⟩
  · rw [he]
    exact ⟨h k v hs, h⟩
  · rw [he]
    exact ⟨hload, h.update hload⟩

theorem Holds.tryLookup {fresh : V → Bool} {load : Except E V} {k : K} (h : Holds I store)
    (hload : ∀ v, load = .ok v → I k v) : Holds I (tryLookup fresh load store k).2 := by
  cases hr : (KeyedCache.tryLookup fresh load store k).1 with
  | error e =>
    rw [tryLookup_error hr]
    exact h
  | ok v =>
    rcases tryLookup_cases hr with ⟨-, -, he⟩ | ⟨-, hl, he⟩
    · rw [he]
      exact h
    · rw [he]
      exact h.update (hload v hl)

/-! ### Runs -/

/-- The state after a sequence of operations. -/
def exec (step : σ → α → σ) (s : σ) (ops : List α) : σ := ops.foldl step s

/-- **What every operation keeps, every run keeps.** -/
theorem exec_invariant {step : σ → α → σ} {P : σ → Prop} (hstep : ∀ s a, P s → P (step s a))
    {s : σ} (hs : P s) (ops : List α) : P (exec step s ops) := by
  induction ops generalizing s with
  | nil => exact hs
  | cons a ops ih => exact ih (hstep s a hs)

end KeyedCache
