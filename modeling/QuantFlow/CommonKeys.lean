/-
**Keyed values, and the keys two of them share.**

A list of keyed values is read as a dictionary made by assigning them in turn, so the last value of a
key counts.  The keys that two of them share, in ascending order, depend only on which keys each has.

Main definitions:

* `valueAt` — the last value of a key;
* `common` — the keys of both, in order.

Main results:

* `common_eq_iff` — **the common keys are known from their members**.
-/

import Mathlib.Data.List.Dedup
import Mathlib.Data.List.Sort

namespace CommonKeys

variable {κ ν : Type} [LinearOrder κ]

def keys (s : List (κ × ν)) : List κ := s.map Prod.fst

/-- The last value of a key. -/
def valueAt : List (κ × ν) → κ → Option ν
  | [], _ => none
  | (k, v) :: s, key =>
    match valueAt s key with
    | some later => some later
    | none => if k = key then some v else none

theorem isSome_valueAt_iff (s : List (κ × ν)) (k : κ) : (valueAt s k).isSome = true ↔ k ∈ keys s := by
  induction s with
  | nil => simp [valueAt, keys]
  | cons e s ih =>
    obtain ⟨k', v⟩ := e
    rw [keys, List.map_cons, List.mem_cons, valueAt]
    change _ ↔ k = k' ∨ k ∈ keys s
    rw [← ih]
    cases valueAt s k with
    | some later => simp
    | none =>
      by_cases hk : k' = k
      · simp [hk]
      · simp [hk, Ne.symm hk]

/-- A key that comes again keeps the later value. -/
theorem valueAt_cons_of_mem {k : κ} {e : κ × ν} {s : List (κ × ν)} (h : k ∈ keys s) :
    valueAt (e :: s) k = valueAt s k := by
  obtain ⟨later, hlater⟩ := Option.isSome_iff_exists.1 ((isSome_valueAt_iff s k).2 h)
  rw [valueAt, hlater]

/-- The keys of both, in ascending order. -/
def common (s t : List (κ × ν)) : List κ :=
  ((keys s).dedup.filter fun k => k ∈ keys t).mergeSort (· ≤ ·)

theorem mem_common_iff (s t : List (κ × ν)) (k : κ) : k ∈ common s t ↔ k ∈ keys s ∧ k ∈ keys t := by
  rw [common, List.mem_mergeSort, List.mem_filter, List.mem_dedup, decide_eq_true_eq]

theorem nodup_common (s t : List (κ × ν)) : (common s t).Nodup :=
  (List.mergeSort_perm _ _).nodup_iff.2 ((List.nodup_dedup _).filter _)

theorem sorted_common (s t : List (κ × ν)) : (common s t).Pairwise (· ≤ ·) := by
  have hsorted := List.pairwise_mergeSort' (· ≤ ·) ((keys s).dedup.filter fun k => k ∈ keys t)
  exact hsorted

/-- **The common keys are known from their members.** -/
theorem common_eq_iff (s t : List (κ × ν)) (ks : List κ) :
    common s t = ks ↔
      ks.Nodup ∧ ks.Pairwise (· ≤ ·) ∧ ∀ k, k ∈ ks ↔ k ∈ keys s ∧ k ∈ keys t := by
  constructor
  · rintro rfl
    exact ⟨nodup_common s t, sorted_common s t, mem_common_iff s t⟩
  · rintro ⟨hnodup, hsorted, hmem⟩
    have hperm : (common s t).Perm ks := by
      refine (List.perm_ext_iff_of_nodup (nodup_common s t) hnodup).2 fun k => ?_
      rw [mem_common_iff, hmem]
    exact hperm.eq_of_pairwise' (sorted_common s t) hsorted

theorem common_comm (s t : List (κ × ν)) : common s t = common t s := by
  refine (common_eq_iff s t _).2 ⟨nodup_common t s, sorted_common t s, fun k => ?_⟩
  rw [mem_common_iff, and_comm]

/-- Series with the same keys, in ascending order. -/
theorem common_of_keys_eq {s t : List (κ × ν)} {ks : List κ} (hs : keys s = ks) (ht : keys t = ks)
    (hsorted : ks.Pairwise (· < ·)) : common s t = ks := by
  refine (common_eq_iff s t ks).2 ⟨hsorted.imp ne_of_lt, hsorted.imp le_of_lt, fun k => ?_⟩
  rw [hs, ht, and_self]

end CommonKeys
