/-
**Reading a list in pages.**

A source hands out a long list in pages of a fixed size.  The reader asks for one page after the
other and stops when it has enough, when a page is empty or shorter than the others, when it has
asked for as many pages as it may, or when a page cannot be had.  Each time it stops for one of the
first reasons it holds a prefix of the list; the prefix is long enough, or it is all there is, or it
is all it may read.

The list may grow at its front while it is read.  Then the later pages begin a little earlier than
they should: they overlap those before them, and some rows are read twice.  As long as the list does
not grow by more than a page, no row is left out, and without the rows that were read before the
reader again holds a prefix.

Main definitions:

* `collect` — the reader;
* `Serves`, `ServesGrowing` — the pages are those of a list, or of one that grows;
* `windows`, `Covers` — pieces of a list, and that they leave nothing out;
* `keepFirst`, `IsFirst` — the first row of each key.

Main results:

* `collect_eq_take` — the reader holds a prefix, and why it stopped;
* `take_of_stopped` — **what is wanted of the list, and no more than may be had, is in the
  prefix that was read**;
* `mem_keepFirst_iff` — what is kept when repetitions are dropped;
* `collect_growing`, `keepFirst_windows` — **of a list that grows the reader holds
  overlapping pieces, and without repetitions a prefix**.
-/

import Mathlib.Data.Int.Basic
import Mathlib.Data.List.Basic
import Mathlib.Data.List.Dedup
import Mathlib.Data.List.Forall2

namespace Paging

variable {α : Type}

/-- Pages are added to the rows while there are fewer than wanted and pages are left to ask for. -/
def collect (size : ℕ) (wanted : ℤ) (page : ℕ → Option (List α)) :
    ℕ → ℕ → List α → Option (List α)
  | 0, _, rows => some rows
  | left + 1, n, rows =>
    if rows.length < wanted then
      match page n with
      | none => none
      | some [] => some rows
      | some new =>
        if new.length < size then some (rows ++ new)
        else collect size wanted page left (n + 1) (rows ++ new)
    else some rows

/-- A page that is not empty is added, and a full one is not the last. -/
theorem collect_page {size : ℕ} {wanted : ℤ} {page : ℕ → Option (List α)} {left n : ℕ}
    {rows new : List α} (hpage : page n = some new) (hnew : 0 < new.length)
    (hrows : rows.length < wanted) :
    collect size wanted page (left + 1) n rows =
      if new.length < size then some (rows ++ new)
      else collect size wanted page left (n + 1) (rows ++ new) := by
  rw [collect, if_pos hrows, hpage]
  cases new with
  | nil => cases hnew
  | cons row new => rfl

/-- Nothing is asked for when nothing is wanted. -/
theorem collect_of_nonpos (size : ℕ) {wanted : ℤ} (h : wanted ≤ 0) (page : ℕ → Option (List α))
    (left n : ℕ) : collect size wanted page left n [] = some [] := by
  cases left with
  | zero => rfl
  | succ left =>
    rw [collect, if_neg]
    rw [List.length_nil]
    omega

/-- The pages are those of the list, counted from one. -/
def Serves (size : ℕ) (page : ℕ → Option (List α)) (source : List α) : Prop :=
  ∀ n, page (n + 1) = some ((source.drop (size * n)).take size)

variable {size : ℕ} {page : ℕ → Option (List α)} {source : List α}

/-- The next page extends the prefix that has been read. -/
theorem take_append_page (source : List α) (size n : ℕ) :
    source.take (size * n) ++ (source.drop (size * n)).take size = source.take (size * (n + 1)) := by
  rw [← List.take_add, Nat.mul_succ]

/-- The reader holds a prefix: enough, or all it may have, or all there is. -/
theorem collect_serves (h : Serves size page source) (wanted : ℤ) (left n : ℕ) :
    ∃ k, collect size wanted page left (n + 1) (source.take (size * n)) = some (source.take k) ∧
      k ≤ size * (n + left) ∧ (wanted ≤ k ∨ k = size * (n + left) ∨ source.length ≤ k) := by
  induction left generalizing n with
  | zero => exact ⟨size * n, rfl, le_rfl, .inr (.inl rfl)⟩
  | succ left ih =>
    have hgrow : size * n ≤ size * (n + (left + 1)) := Nat.mul_le_mul_left size (by omega)
    unfold collect
    split
    · rw [h n]
      -- the page is empty, short or full
      cases hpage : (source.drop (size * n)).take size with
      | nil =>
        refine ⟨size * n, rfl, hgrow, ?_⟩
        rcases List.take_eq_nil_iff.1 hpage with hsize | hdrop
        · simp [hsize]
        · exact .inr (.inr (List.drop_eq_nil_iff.1 hdrop))
      | cons row rows =>
        have happend := take_append_page source size n
        simp only
        split
        · rename_i hshort
          refine ⟨size * (n + 1), by rw [← hpage, happend], Nat.mul_le_mul_left size (by omega), ?_⟩
          rw [← hpage, List.length_take, List.length_drop] at hshort
          rw [Nat.mul_succ]
          omega
        · obtain ⟨k, hcollect, hbound, hstop⟩ := ih (n + 1)
          rw [Nat.add_assoc, Nat.add_comm 1 left] at hbound hstop
          refine ⟨k, ?_, hbound, hstop⟩
          rw [← hpage, happend]
          exact hcollect
    · rename_i henough
      rw [List.length_take] at henough
      exact ⟨size * n, rfl, hgrow, .inl (by omega)⟩

theorem collect_eq_take (h : Serves size page source) (wanted : ℤ) (cap : ℕ) :
    ∃ k, collect size wanted page cap 1 [] = some (source.take k) ∧ k ≤ size * cap ∧
      (wanted ≤ k ∨ k = size * cap ∨ source.length ≤ k) := by
  obtain ⟨k, hcollect, hbound, hstop⟩ := collect_serves h wanted cap 0
  rw [Nat.zero_add] at hbound hstop
  exact ⟨k, hcollect, hbound, hstop⟩

/-- **What is wanted of the list, and no more than may be had, is in the prefix that was read.** -/
theorem take_of_stopped {β : Type} {xs : List β} {k cap wanted : ℕ} (hbound : k ≤ cap)
    (hstop : wanted ≤ k ∨ k = cap ∨ xs.length ≤ k) :
    (xs.take k).take wanted = xs.take (min wanted cap) := by
  rw [List.take_take]
  rcases hstop with henough | rfl | hall
  · congr 1
    omega
  · rfl
  · rw [List.take_eq_take_iff]
    omega

/-! ### The first row of each key -/

section Keys

variable {κ : Type} [DecidableEq κ] (key : α → κ)

/-- The rows whose key is not yet among those of the output are appended to it. -/
def keepFirst : List α → List α → List α
  | out, [] => out
  | out, x :: xs => if key x ∈ out.map key then keepFirst out xs else keepFirst (out ++ [x]) xs

theorem keepFirst_append (out xs ys : List α) :
    keepFirst key out (xs ++ ys) = keepFirst key (keepFirst key out xs) ys := by
  induction xs generalizing out with
  | nil => rfl
  | cons x xs ih =>
    rw [List.cons_append, keepFirst, keepFirst]
    split
    · exact ih out
    · exact ih (out ++ [x])

theorem keepFirst_of_seen {out xs : List α} (h : ∀ x ∈ xs, x ∈ out) :
    keepFirst key out xs = out := by
  induction xs with
  | nil => rfl
  | cons x xs ih =>
    rw [keepFirst, if_pos (List.mem_map_of_mem (h x List.mem_cons_self))]
    exact ih fun y hy => h y (List.mem_cons_of_mem x hy)

theorem keepFirst_of_nodup {out xs : List α} (h : ((out ++ xs).map key).Nodup) :
    keepFirst key out xs = out ++ xs := by
  induction xs generalizing out with
  | nil => simp [keepFirst]
  | cons x xs ih =>
    have hnew : key x ∉ out.map key := by
      rw [List.map_append, List.map_cons] at h
      exact fun hmem => (List.nodup_append.1 h).2.2 _ hmem _ List.mem_cons_self rfl
    rw [List.append_cons] at h
    rw [keepFirst, if_neg hnew, ih h, ← List.append_cons]

theorem nodup_keepFirst {out xs : List α} (h : (out.map key).Nodup) :
    ((keepFirst key out xs).map key).Nodup := by
  induction xs generalizing out with
  | nil => exact h
  | cons x xs ih =>
    rw [keepFirst]
    split
    · exact ih h
    · rename_i hnew
      refine ih ?_
      rw [List.map_append, List.map_singleton]
      exact h.append (List.nodup_singleton _) (List.disjoint_singleton.2 hnew)

/-- A row before which there is none with its key. -/
def IsFirst (xs : List α) (x : α) : Prop :=
  ∃ before after, xs = before ++ x :: after ∧ key x ∉ before.map key

omit [DecidableEq κ] in
theorem isFirst_cons_iff {y x : α} {xs : List α} :
    IsFirst key (y :: xs) x ↔ x = y ∨ key x ≠ key y ∧ IsFirst key xs x := by
  constructor
  · rintro ⟨before, after, hsplit, hnew⟩
    cases before with
    | nil =>
      cases hsplit
      exact .inl rfl
    | cons z before =>
      cases hsplit
      rw [List.map_cons, List.mem_cons, not_or] at hnew
      exact .inr ⟨hnew.1, before, after, rfl, hnew.2⟩
  · rintro (rfl | ⟨hne, before, after, rfl, hnew⟩)
    · exact ⟨[], xs, rfl, List.not_mem_nil⟩
    · refine ⟨y :: before, after, rfl, ?_⟩
      rw [List.map_cons, List.mem_cons, not_or]
      exact ⟨hne, hnew⟩

/-- **What is kept is the first row of each key.** -/
theorem mem_keepFirst_iff {out xs : List α} {x : α} :
    x ∈ keepFirst key out xs ↔ x ∈ out ∨ key x ∉ out.map key ∧ IsFirst key xs x := by
  induction xs generalizing out with
  | nil => simp [keepFirst, IsFirst]
  | cons y xs ih =>
    rw [keepFirst, isFirst_cons_iff]
    split
    · rename_i hseen
      rw [ih]
      refine or_congr_right (and_congr_right fun hx => ?_)
      have hxy : key x ≠ key y := fun heq => hx (heq ▸ hseen)
      constructor
      · exact fun hfirst => .inr ⟨hxy, hfirst⟩
      · rintro (rfl | ⟨-, hfirst⟩)
        · exact absurd rfl hxy
        · exact hfirst
    · rename_i hnew
      rw [ih, List.mem_append, List.mem_singleton, List.map_append, List.map_singleton,
        List.mem_append, List.mem_singleton]
      constructor
      · rintro ((hx | rfl) | ⟨hx, hfirst⟩)
        · exact .inl hx
        · exact .inr ⟨hnew, .inl rfl⟩
        · rw [not_or] at hx
          exact .inr ⟨hx.1, .inr ⟨hx.2, hfirst⟩⟩
      · rintro (hx | ⟨hx, rfl | ⟨hne, hfirst⟩⟩)
        · exact .inl (.inl hx)
        · exact .inl (.inr rfl)
        · exact .inr ⟨not_or.2 ⟨hx, hne⟩, hfirst⟩

theorem mem_map_keepFirst_iff {out xs : List α} {k : κ} :
    k ∈ (keepFirst key out xs).map key ↔ k ∈ out.map key ∨ k ∈ xs.map key := by
  induction xs generalizing out with
  | nil => simp [keepFirst]
  | cons x xs ih =>
    rw [keepFirst, List.map_cons, List.mem_cons]
    split
    · rename_i hseen
      rw [ih]
      constructor
      · exact Or.imp_right .inr
      · rintro (hk | rfl | hk)
        · exact .inl hk
        · exact .inl hseen
        · exact .inr hk
    · rw [ih, List.map_append, List.map_singleton, List.mem_append, List.mem_singleton, or_assoc]

theorem length_keepFirst (xs : List α) :
    (keepFirst key [] xs).length = (xs.map key).dedup.length := by
  have hkept : ((keepFirst key [] xs).map key).Nodup := nodup_keepFirst key (by simp)
  have hkeys : ((keepFirst key [] xs).map key).Perm (xs.map key).dedup := by
    refine (List.perm_ext_iff_of_nodup hkept (List.nodup_dedup _)).2 fun k => ?_
    rw [mem_map_keepFirst_iff, List.mem_dedup, List.map_nil]
    simp only [List.not_mem_nil, false_or]
  rw [← hkeys.length_eq, List.length_map]

end Keys

/-! ### Pieces of a list -/

/-- The pieces of a list that begin at given places and have given lengths. -/
def windows (source : List α) (ws : List (ℕ × ℕ)) : List α :=
  ws.flatMap fun w => (source.drop w.1).take w.2

theorem windows_append (source : List α) (ws : List (ℕ × ℕ)) (b n : ℕ) :
    windows source (ws ++ [(b, n)]) = windows source ws ++ (source.drop b).take n := by
  simp [windows]

/-- Each piece begins within what is covered and ends beyond it. -/
inductive Covers : List (ℕ × ℕ) → ℕ → Prop
  | nil : Covers [] 0
  | snoc {ws : List (ℕ × ℕ)} {k b n : ℕ} (before : Covers ws k) (begins : b ≤ k)
      (ends : k ≤ b + n) : Covers (ws ++ [(b, n)]) (b + n)

theorem windows_map {β : Type} (f : α → β) (source : List α) (ws : List (ℕ × ℕ)) :
    windows (source.map f) ws = (windows source ws).map f := by
  rw [windows, windows, List.map_flatMap]
  congr 1
  funext w
  rw [List.map_take, List.map_drop]

theorem forall₂_windows {β : Type} {R : α → β → Prop} {xs : List α} {ys : List β}
    (h : List.Forall₂ R xs ys) (ws : List (ℕ × ℕ)) :
    List.Forall₂ R (windows xs ws) (windows ys ws) := by
  induction ws with
  | nil => exact List.Forall₂.nil
  | cons w ws ih => exact List.rel_append (List.forall₂_take w.2 (List.forall₂_drop w.1 h)) ih

/-- **Pieces that leave nothing out are a prefix, once repetitions are dropped.** -/
theorem keepFirst_windows {κ : Type} [DecidableEq κ] {key : α → κ} {source : List α}
    (hnodup : (source.map key).Nodup) {ws : List (ℕ × ℕ)} {k : ℕ} (h : Covers ws k) :
    keepFirst key [] (windows source ws) = source.take k := by
  induction h with
  | nil => rfl
  | @snoc ws k b n _ begins ends ih =>
    -- The piece is a part that was read before and a part that follows it.
    obtain ⟨j, rfl⟩ := Nat.exists_eq_add_of_le begins
    have hsplit : (source.drop b).take n =
        (source.drop b).take j ++ (source.drop (b + j)).take (n - j) := by
      rw [← List.drop_drop, ← List.take_add, show j + (n - j) = n by omega]
    have hold : ∀ x ∈ (source.drop b).take j, x ∈ source.take (b + j) := by
      intro x hx
      rw [List.take_add]
      exact List.mem_append_right _ hx
    have hjoin : source.take (b + j) ++ (source.drop (b + j)).take (n - j) =
        source.take (b + n) := by
      rw [← List.take_add, show b + j + (n - j) = b + n by omega]
    rw [windows_append, keepFirst_append, ih, hsplit, keepFirst_append,
      keepFirst_of_seen key hold, keepFirst_of_nodup, hjoin]
    rw [hjoin, List.map_take]
    exact hnodup.sublist (List.take_sublist _ _)

/-! ### A list that grows while it is read -/

/-- The list has grown by `added n` when the page after the first `n` is asked for: nothing at
first, never by more than a page, and always at its front. -/
structure ServesGrowing (size : ℕ) (page : ℕ → Option (List α)) (source : List α)
    (added : ℕ → List α) : Prop where
  first : added 0 = []
  grows : ∀ n, added n <:+ added (n + 1)
  few : ∀ n, (added n).length ≤ size
  pages : ∀ n, page (n + 1) = some (((added n ++ source).drop (size * n)).take size)

section Growing

variable {added : ℕ → List α}

/-- A page is a piece of the list as it was at the first request. -/
theorem ServesGrowing.page_eq (h : ServesGrowing size page source added) (n : ℕ) :
    (added n).length ≤ size * n ∧
      page (n + 1) = some ((source.drop (size * n - (added n).length)).take size) := by
  have hle : (added n).length ≤ size * n := by
    cases n with
    | zero => rw [h.first]; simp
    | succ n => exact Nat.le_trans (h.few (n + 1)) (Nat.le_mul_of_pos_right size (Nat.succ_pos n))
  refine ⟨hle, ?_⟩
  rw [h.pages n, List.drop_append, List.drop_eq_nil_of_le hle, List.nil_append]

/-- **Of a list that grows the reader holds overlapping pieces.** -/
theorem collect_growing (h : ServesGrowing size page source added) (wanted : ℤ) (left n : ℕ)
    {ws : List (ℕ × ℕ)} {k : ℕ} (hws : Covers ws k) (hlow : size * n ≤ k + (added n).length)
    (hhigh : k ≤ size * n) :
    ∃ ws' k', collect size wanted page left (n + 1) (windows source ws) =
      some (windows source ws') ∧ Covers ws' k' := by
  induction left generalizing n ws k with
  | zero => exact ⟨ws, k, rfl, hws⟩
  | succ left ih =>
    obtain ⟨hle, hpage⟩ := h.page_eq n
    have hfew := h.few n
    have hgrows := (h.grows n).length_le
    have hnext : Covers (ws ++ [(size * n - (added n).length, size)])
        (size * n - (added n).length + size) := .snoc hws (by omega) (by omega)
    have hrows := windows_append source ws (size * n - (added n).length) size
    unfold collect
    split
    · rw [hpage]
      cases hnew : (source.drop (size * n - (added n).length)).take size with
      | nil => exact ⟨ws, k, rfl, hws⟩
      | cons row rows =>
        simp only
        rw [← hnew, ← hrows]
        split
        · exact ⟨_, _, rfl, hnext⟩
        · exact ih (n + 1) hnext (by rw [Nat.mul_succ]; omega) (by rw [Nat.mul_succ]; omega)
    · exact ⟨ws, k, rfl, hws⟩

end Growing

end Paging
