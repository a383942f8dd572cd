/-
**Finite maps that remember the order of insertion.**

Such a map is a partial function together with its keys in the order in which they came.  A new value
for a key changes the function only; a new key goes to the end of the order; an erased key leaves
both, and comes last if it comes back.  A list of entries follows these operations by replacing in
place, appending and filtering.

Main definitions:

* `OrderedMap` — the maps, with `upsert` and `erase`;
* `toList` — the entries in order.

Main results:

* `toList_upsert_old`, `toList_upsert_new`, `toList_erase` — **what
  the operations do to the list of entries**.
-/

import Mathlib.Data.List.Nodup
import Mathlib.Logic.Function.Basic

/-- A partial function and its keys in order. -/
structure OrderedMap (κ ν : Type) where
  order : List κ
  get : κ → Option ν
  nodup : order.Nodup
  domain : ∀ k, k ∈ order ↔ (get k).isSome = true

namespace OrderedMap

variable {κ ν : Type}

def empty : OrderedMap κ ν where
  order := []
  get := fun _ => none
  nodup := List.nodup_nil
  domain := by simp

/-- The entries in order. -/
def toList (m : OrderedMap κ ν) : List (κ × ν) :=
  m.order.filterMap fun k => (m.get k).map fun v => (k, v)

theorem mem_toList {m : OrderedMap κ ν} {e : κ × ν} : e ∈ m.toList ↔ m.get e.1 = some e.2 := by
  obtain ⟨k, v⟩ := e
  simp only [toList, List.mem_filterMap, Option.map_eq_some_iff, Prod.mk.injEq]
  constructor
  · rintro ⟨k', -, v', hget, rfl, rfl⟩
    exact hget
  · intro hget
    exact ⟨k, (m.domain k).2 (by rw [hget]; rfl), v, hget, rfl, rfl⟩

variable [DecidableEq κ]

/-- The map with a value for a key. -/
def upsert (m : OrderedMap κ ν) (k : κ) (v : ν) : OrderedMap κ ν where
  order := if k ∈ m.order then m.order else m.order ++ [k]
  get := Function.update m.get k (some v)
  nodup := by
    split
    · exact m.nodup
    · rename_i hnew
      rw [← List.concat_eq_append]
      exact m.nodup.concat hnew
  domain := by
    intro k'
    by_cases hk : k' = k
    · subst hk
      by_cases hold : k' ∈ m.order
      · simp [hold]
      · simp [hold]
    · rw [Function.update_of_ne hk, ← m.domain k']
      by_cases hold : k ∈ m.order
      · simp [hold]
      · simp [hold, hk]

/-- The map without a key. -/
def erase (m : OrderedMap κ ν) (k : κ) : OrderedMap κ ν where
  order := m.order.filter fun k' => k' ≠ k
  get := Function.update m.get k none
  nodup := m.nodup.filter _
  domain := by
    intro k'
    by_cases hk : k' = k
    · simp [hk]
    · simp [hk, m.domain k']

theorem erase_of_not_mem {m : OrderedMap κ ν} {k : κ} (h : k ∉ m.order) : m.erase k = m := by
  obtain ⟨order, get, hnodup, hdomain⟩ := m
  have hget : get k = none := by
    cases hk : get k with
    | none => rfl
    | some v => exact absurd ((hdomain k).2 (by rw [hk]; rfl)) h
  simp only [erase, mk.injEq, List.filter_eq_self]
  constructor
  · intro k' hk'
    simp only [ne_eq, decide_not, Bool.not_eq_true', decide_eq_false_iff_not]
    rintro rfl
    exact h hk'
  · rw [← hget]
    exact Function.update_eq_self k get

section Entries

variable (m : OrderedMap κ ν) (k : κ) (v : ν)

/-- A new value for a key takes the place of the old one. -/
theorem toList_upsert_old (h : k ∈ m.order) :
    (m.upsert k v).toList = m.toList.map fun e => if e.1 = k then (k, v) else e := by
  simp only [toList, upsert, if_pos h, List.map_filterMap]
  refine List.filterMap_congr fun k' hk' => ?_
  by_cases heq : k' = k
  · subst heq
    obtain ⟨v', hv'⟩ := Option.isSome_iff_exists.1 ((m.domain k').1 hk')
    simp [hv']
  · rw [Function.update_of_ne heq]
    cases m.get k' with
    | none => rfl
    | some v' => simp [heq]

theorem toList_upsert_new (h : k ∉ m.order) : (m.upsert k v).toList = m.toList ++ [(k, v)] := by
  simp only [toList, upsert, if_neg h, List.filterMap_append]
  congr 1
  · refine List.filterMap_congr fun k' hk' => ?_
    have hne : k' ≠ k := by
      rintro rfl
      exact h hk'
    rw [Function.update_of_ne hne]
  · simp

theorem toList_erase : (m.erase k).toList = m.toList.filter fun e => e.1 ≠ k := by
  simp only [toList, erase]
  induction m.order with
  | nil => rfl
  | cons k' order ih =>
    by_cases heq : k' = k
    · subst heq
      rw [List.filter_cons_of_neg (by simp), ih, List.filterMap_cons]
      cases m.get k' with
      | none => rfl
      | some v' => simp
    · rw [List.filter_cons_of_pos (by simpa using heq), List.filterMap_cons, List.filterMap_cons,
        ih, Function.update_of_ne heq]
      cases m.get k' with
      | none => rfl
      | some v' => simp [heq]

end Entries

end OrderedMap
