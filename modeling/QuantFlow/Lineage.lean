/-
**Parent maps under one root.**

A table of versions names a parent for each of its entries.  An entry is *rooted* when the walk from
parent to parent ends at a given root and visits nothing twice.  Nothing has to be known of the
whole table to keep it so: an entry that is new, differs from the root and names a rooted parent is
rooted itself, and it is on no walk that was there before.

Main definitions:

* `Walk` — a walk from parent to parent;
* `Rooted` — the walk from an entry ends at the root, and visits nothing twice.

Main results:

* `Rooted.keep`, `rooted_new` — **a new entry under a rooted parent is rooted, and
  all others stay so**.
-/

import Mathlib.Data.List.Basic
import Mathlib.Logic.Function.Basic

namespace Lineage

variable {κ : Type}

/-- Each entry of the path but the last has the next one as its parent. -/
def Walk (parent : κ → Option κ) (path : List κ) : Prop :=
  path.IsChain fun a b => parent a = some b

/-- The walk from `k` along the parents ends at the root and visits nothing twice. -/
def Rooted (parent : κ → Option κ) (root k : κ) : Prop :=
  ∃ path, path.head? = some k ∧ path.getLast? = some root ∧ Walk parent path ∧ path.Nodup

theorem rooted_root (parent : κ → Option κ) (root : κ) : Rooted parent root root :=
  ⟨[root], rfl, rfl, .singleton root, by simp⟩

/-- What is on a walk to the root is the root or has a parent. -/
theorem parent_of_mem {parent : κ → Option κ} {root k : κ} {path : List κ}
    (hlast : path.getLast? = some root) (hwalk : Walk parent path) (hk : k ∈ path) :
    k = root ∨ ∃ p, parent k = some p := by
  induction path with
  | nil => cases hk
  | cons a path ih =>
    cases path with
    | nil =>
      rw [List.getLast?_singleton] at hlast
      rw [List.mem_singleton.1 hk]
      exact .inl (Option.some.inj hlast)
    | cons b path =>
      obtain ⟨hab, hrest⟩ := List.isChain_cons_cons.1 hwalk
      rcases List.mem_cons.1 hk with rfl | hlater
      · exact .inr ⟨b, hab⟩
      · exact ih (by simpa using hlast) hrest hlater

/-- No walk to the root passes an entry without a parent. -/
theorem not_mem_walk {parent : κ → Option κ} {root v : κ} {path : List κ} (hv : parent v = none)
    (hroot : v ≠ root) (hlast : path.getLast? = some root) (hwalk : Walk parent path) : v ∉ path := by
  intro hmem
  rcases parent_of_mem hlast hwalk hmem with heq | ⟨p, hp⟩
  · exact hroot heq
  · rw [hv] at hp
    cases hp

section Extend

variable [DecidableEq κ] {parent : κ → Option κ} {root v p : κ}

/-- A walk that does not pass `v` is still a walk when `v` gets a parent. -/
theorem Walk.update {path : List κ} (h : Walk parent path) (hv : v ∉ path) :
    Walk (Function.update parent v (some p)) path := by
  induction path with
  | nil => exact .nil
  | cons a path ih =>
    cases path with
    | nil => exact .singleton a
    | cons b path =>
      obtain ⟨hab, hrest⟩ := List.isChain_cons_cons.1 h
      have hva : a ≠ v := by
        rintro rfl
        exact hv List.mem_cons_self
      refine List.isChain_cons_cons.2 ⟨?_, ih hrest fun hmem => hv (List.mem_cons_of_mem a hmem)⟩
      rw [Function.update_of_ne hva]
      exact hab

/-- A rooted entry stays rooted when a new one gets its parent. -/
theorem Rooted.keep {k : κ} (h : Rooted parent root k) (hv : parent v = none) (hroot : v ≠ root) :
    Rooted (Function.update parent v (some p)) root k := by
  obtain ⟨path, hhead, hlast, hwalk, hnodup⟩ := h
  exact ⟨path, hhead, hlast, hwalk.update (not_mem_walk hv hroot hlast hwalk), hnodup⟩

/-- **A new entry under a rooted parent is rooted.** -/
theorem rooted_new (h : Rooted parent root p) (hv : parent v = none) (hroot : v ≠ root) :
    Rooted (Function.update parent v (some p)) root v := by
  obtain ⟨path, hhead, hlast, hwalk, hnodup⟩ := h
  have hfresh := not_mem_walk hv hroot hlast hwalk
  cases path with
  | nil => cases hhead
  | cons a path =>
    cases hhead
    refine ⟨v :: p :: path, rfl, ?_, ?_, List.nodup_cons.2 ⟨hfresh, hnodup⟩⟩
    · simpa using hlast
    · refine List.isChain_cons_cons.2 ⟨?_, hwalk.update hfresh⟩
      exact Function.update_self v (some p) parent

end Extend

end Lineage
