/-
**Hits in classes of decreasing rank.**

A search puts the items it finds into classes, lists the classes one after the other, each in the
order of the items, and shows the first few.  If it reads only the first part of the items, the
shown places can differ from those of a full search: a later item may belong to a class that still
has a place among the shown ones.  This is the only way they differ, and it always shows when items
of different classes can be told apart.

Main definitions:

* `bucket`, `merged` — one class, and the classes one after the other;
* `Settled` — the unread items have no hit that belongs among the first places.

Main results:

* `length_merged` — how many items some classes hold;
* `settled_iff` — what that means for each class;
* `take_merged_eq_iff` — **the first places are those of a full search exactly when they
  are settled**.
-/

import Mathlib.Data.List.Basic
import Mathlib.Data.List.Flatten

namespace RankedHits

variable {α β κ : Type*} [DecidableEq κ] (cls : α → Option κ)

/-! ### Classes -/

/-- The items of a class. -/
def bucket (c : κ) (xs : List α) : List α := xs.filter fun x => cls x = some c

@[simp] theorem bucket_nil (c : κ) : bucket cls c [] = [] := rfl

theorem bucket_append (c : κ) (xs ys : List α) :
    bucket cls c (xs ++ ys) = bucket cls c xs ++ bucket cls c ys := by
  rw [bucket, List.filter_append, bucket, bucket]

theorem cls_of_mem_bucket {c : κ} {xs : List α} {x : α} (hx : x ∈ bucket cls c xs) :
    cls x = some c := by
  simpa using (List.mem_filter.1 hx).2

/-- The classes one after the other. -/
def merged (cs : List κ) (xs : List α) : List α := cs.flatMap fun c => bucket cls c xs

@[simp] theorem merged_nil (xs : List α) : merged cls [] xs = [] := rfl

@[simp] theorem merged_cons (c : κ) (cs : List κ) (xs : List α) :
    merged cls (c :: cs) xs = bucket cls c xs ++ merged cls cs xs := rfl

theorem exists_cls_of_mem_merged {cs : List κ} {xs : List α} {x : α}
    (hx : x ∈ merged cls cs xs) : ∃ c ∈ cs, cls x = some c := by
  obtain ⟨c, hc, hmem⟩ := List.mem_flatMap.1 hx
  exact ⟨c, hc, cls_of_mem_bucket cls hmem⟩

/-- Different classes have no item in common, so that together they hold the items of any of
them. -/
theorem length_merged {cs : List κ} (hcs : cs.Nodup) (xs : List α) :
    (merged cls cs xs).length = xs.countP fun x => (cls x).any fun c => c ∈ cs := by
  induction cs with
  | nil => simp
  | cons c cs ih =>
    obtain ⟨hc, hcs⟩ := List.nodup_cons.1 hcs
    rw [merged_cons, List.length_append, ih hcs, bucket, ← List.countP_eq_length_filter]
    clear ih
    induction xs with
    | nil => rfl
    | cons x xs ih =>
      rw [List.countP_cons, List.countP_cons, List.countP_cons, ← ih]
      cases hx : cls x with
      | none => simp
      | some d =>
        by_cases hd : d = c
        · subst hd
          simp +arith [hc]
        · by_cases hmem : d ∈ cs
          · simp +arith [hd, hmem]
          · simp [hd, hmem]

/-! ### The first places -/

/-- The first `n` places are filled by classes of which nothing is left in the rest. -/
def Settled (read rest : List α) : List κ → ℕ → Prop
  | [], _ => True
  | c :: cs, n => n ≤ (bucket cls c read).length ∨
      (bucket cls c rest = [] ∧ Settled read rest cs (n - (bucket cls c read).length))

/-- A class of which something is left comes after the first `n` places. -/
theorem settled_iff (read rest : List α) (cs : List κ) (n : ℕ) :
    Settled cls read rest cs n ↔ ∀ before c after, cs = before ++ c :: after →
      bucket cls c rest ≠ [] → n ≤ (merged cls (before ++ [c]) read).length := by
  induction cs generalizing n with
  | nil => simp [Settled]
  | cons c cs ih =>
    rw [Settled, ih]
    constructor
    · rintro (hfull | ⟨hnone, hlater⟩) before d after hsplit hleft
      · cases before with
        | nil =>
          obtain ⟨rfl, -⟩ := List.cons.inj hsplit
          simpa using hfull
        | cons b before =>
          obtain ⟨rfl, -⟩ := List.cons.inj hsplit
          rw [List.cons_append, merged_cons, List.length_append]
          omega
      · cases before with
        | nil =>
          obtain ⟨rfl, -⟩ := List.cons.inj hsplit
          exact absurd hnone hleft
        | cons b before =>
          obtain ⟨rfl, htail⟩ := List.cons.inj hsplit
          have hlen := hlater before d after htail hleft
          rw [List.cons_append, merged_cons, List.length_append]
          omega
    · intro hall
      by_cases hnone : bucket cls c rest = []
      · refine Or.inr ⟨hnone, fun before d after hsplit hleft => ?_⟩
        have hlen := hall (c :: before) d after (by rw [hsplit, List.cons_append]) hleft
        rw [List.cons_append, merged_cons, List.length_append] at hlen
        omega
      · refine Or.inl ?_
        simpa using hall [] c cs rfl hnone

/-- **The first places are those of a full search exactly when they are settled.**  Items of
different classes are told apart by what is shown of them. -/
theorem take_merged_eq_iff (out : α → β) {cs : List κ}
    (hout : cs.Pairwise fun c d => ∀ x y, cls x = some c → cls y = some d → out x ≠ out y)
    (read rest : List α) (n : ℕ) :
    ((merged cls cs read).map out).take n = ((merged cls cs (read ++ rest)).map out).take n ↔
      Settled cls read rest cs n := by
  induction cs generalizing n with
  | nil => simp [Settled]
  | cons c cs ih =>
    obtain ⟨hc, hcs⟩ := List.pairwise_cons.1 hout
    rw [Settled, merged_cons, merged_cons, bucket_append, List.append_assoc, List.map_append,
      List.map_append, List.take_append, List.take_append, List.append_cancel_left_eq,
      List.length_map]
    by_cases hfull : n ≤ (bucket cls c read).length
    · have hnothing : n - (bucket cls c read).length = 0 := Nat.sub_eq_zero_of_le hfull
      simp [hnothing, hfull]
    · rw [or_iff_right hfull]
      cases hleft : bucket cls c rest with
      | nil =>
        rw [List.nil_append, ih hcs]
        simp
      | cons x xs =>
        -- The next place goes to a class after `c` in the short search, to `c` in the full one.
        simp only [List.cons_ne_nil, false_and, iff_false]
        obtain ⟨k, hk⟩ : ∃ k, n - (bucket cls c read).length = k + 1 :=
          ⟨n - (bucket cls c read).length - 1, by omega⟩
        have hx : cls x = some c := cls_of_mem_bucket cls (hleft ▸ List.mem_cons_self)
        rw [hk, List.cons_append, List.map_cons, List.take_succ_cons]
        intro heq
        have hmem : out x ∈ ((merged cls cs read).map out).take (k + 1) := by
          rw [heq]
          exact List.mem_cons_self
        obtain ⟨y, hy, hxy⟩ := List.mem_map.1 (List.mem_of_mem_take hmem)
        obtain ⟨d, hd, hyd⟩ := exists_cls_of_mem_merged cls hy
        exact hc d hd x y hx hyd hxy.symm

end RankedHits
