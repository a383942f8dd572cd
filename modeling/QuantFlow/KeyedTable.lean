/-
**Tables with a unique key that may be missing.**

A table is the list of its rows in the order of their insertion.  A row may have a key; no two rows
have the same one, and any number of rows may have none.  A row is inserted if its key is free.  An
*upsert* inserts a row, or replaces the row that has its key, in its place.

Main definitions:

* `Table` — rows with distinct keys;
* `Table.insert`, `Table.upsert`, `Table.delete` — the operations;
* `Table.upserts` — several upserts, one after the other.

Main results:

* `Table.mem_insert`, `Table.mem_upsert`, `Table.mem_delete` — what the operations leave in the table;
* `Table.upserts_exact_iff` — **upserts into an empty table keep every row exactly if rows of
  one key are equal**.
-/

import Mathlib.Data.List.Nodup

namespace Keyed

variable {ρ κ : Type}

/-- Rows with distinct keys. -/
structure Table (key : ρ → Option κ) where
  rows : List ρ
  distinct : (rows.filterMap key).Nodup

namespace Table

variable {key : ρ → Option κ}

theorem ext_rows {t u : Table key} (h : t.rows = u.rows) : t = u := by
  cases t
  cases u
  cases h
  rfl

instance [DecidableEq ρ] : DecidableEq (Table key) := fun t u =>
  decidable_of_iff (t.rows = u.rows) ⟨ext_rows, fun h => h ▸ rfl⟩

def empty (key : ρ → Option κ) : Table key := ⟨[], List.nodup_nil⟩

/-- The keys of the rows. -/
def keys (t : Table key) : List κ := t.rows.filterMap key

theorem mem_keys {t : Table key} {k : κ} : k ∈ t.keys ↔ ∃ r ∈ t.rows, key r = some k :=
  List.mem_filterMap

/-- A key that is found among what is read from the rows. -/
theorem mem_keys_of_map {ι : Type} {t : Table key} {f : ρ → ι} {g : ι → Option κ} {k : κ}
    (h : ∃ i ∈ t.rows.map f, g i = some k) (hg : ∀ r, g (f r) = key r) : k ∈ t.keys := by
  obtain ⟨i, hi, hk⟩ := h
  obtain ⟨r, hr, rfl⟩ := List.mem_map.1 hi
  exact mem_keys.2 ⟨r, hr, (hg r).symm.trans hk⟩

theorem eq_of_key (t : Table key) {r r' : ρ} {k : κ} (hr : r ∈ t.rows) (hr' : r' ∈ t.rows)
    (hk : key r = some k) (hk' : key r' = some k) : r = r' := by
  obtain ⟨rows, hdistinct⟩ := t
  simp only at hr hr'
  -- a second row of the key would be its second occurrence among the keys
  induction rows with
  | nil => cases hr
  | cons x rows ih =>
    have hrest : (rows.filterMap key).Nodup := by
      cases hx : key x with
      | none => rwa [List.filterMap_cons_none hx] at hdistinct
      | some k' =>
        rw [List.filterMap_cons_some hx] at hdistinct
        exact (List.nodup_cons.1 hdistinct).2
    have hfirst : ∀ y ∈ rows, key x = some k → key y = some k → False := by
      intro y hy hx hy'
      rw [List.filterMap_cons_some hx] at hdistinct
      exact (List.nodup_cons.1 hdistinct).1 (List.mem_filterMap.2 ⟨y, hy, hy'⟩)
    rcases List.mem_cons.1 hr with rfl | hmem
    · rcases List.mem_cons.1 hr' with rfl | hmem'
      · rfl
      · exact (hfirst r' hmem' hk hk').elim
    · rcases List.mem_cons.1 hr' with rfl | hmem'
      · exact (hfirst r hmem hk' hk).elim
      · exact ih hrest hmem hmem'

variable [DecidableEq κ]

/-- No row of the table has the key. -/
def free (t : Table key) (k : Option κ) : Bool := k.all fun k => k ∉ t.keys

theorem free_iff {t : Table key} {k : Option κ} :
    t.free k = true ↔ ∀ r ∈ t.rows, key r = k → k = none := by
  cases k with
  | none => simp [free]
  | some k => simp [free, mem_keys]

/-- The table with one more row, whose key is free. -/
def append (t : Table key) (row : ρ) (h : t.free (key row) = true) : Table key where
  rows := t.rows ++ [row]
  distinct := by
    rw [List.filterMap_append]
    cases hk : key row with
    | none => simpa [hk] using t.distinct
    | some k =>
      have hnew : k ∉ t.keys := by simpa [free, hk] using h
      rw [List.filterMap_cons_some hk, List.filterMap_nil]
      exact List.nodup_append.2 ⟨t.distinct, List.nodup_singleton k, fun a ha b hb => by
        rw [List.mem_singleton.1 hb]
        rintro rfl
        exact hnew ha⟩

/-- `INSERT`: refused if the key is taken. -/
def insert (t : Table key) (row : ρ) : Option (Table key) :=
  if h : t.free (key row) = true then some (t.append row h) else none

theorem rows_insert {t t' : Table key} {row : ρ} (h : t.insert row = some t') :
    t'.rows = t.rows ++ [row] := by
  unfold insert at h
  split at h
  · cases h
    rfl
  · cases h

theorem insert_eq_none_iff {t : Table key} {row : ρ} :
    t.insert row = none ↔ t.free (key row) = false := by
  unfold insert
  split
  · rename_i hfree
    simp [hfree]
  · rename_i hfree
    simpa using hfree

/-- The row, where another one has its key. -/
def replacing (key : ρ → Option κ) (row r : ρ) : ρ := if key r = key row then row else r

theorem key_replacing (row r : ρ) : key (replacing key row r) = key r := by
  unfold replacing
  split
  · rename_i h
    exact h.symm
  · rfl

/-- `INSERT … ON CONFLICT DO UPDATE`: the row is added, or takes the place of the one with its
key. -/
def upsert (t : Table key) (row : ρ) : Table key :=
  if h : t.free (key row) = true then t.append row h
  else
    { rows := t.rows.map (replacing key row)
      distinct := by
        have hsame : (t.rows.map (replacing key row)).filterMap key =
            t.rows.filterMap key := by
          rw [List.filterMap_map]
          exact List.filterMap_congr fun r _ => key_replacing row r
        rw [hsame]
        exact t.distinct }

theorem rows_upsert_free {t : Table key} {row : ρ} (h : t.free (key row) = true) :
    (t.upsert row).rows = t.rows ++ [row] := by
  rw [upsert, dif_pos h]
  rfl

/-- A row with a key that is taken is put in its place. -/
theorem rows_upsert_taken {t : Table key} {row : ρ} (h : ¬t.free (key row) = true) :
    (t.upsert row).rows = t.rows.map (replacing key row) := by
  rw [upsert, dif_neg h]

/-- **What an upsert leaves**: the row, and the rows that do not have its key. -/
theorem mem_upsert {t : Table key} {row r : ρ} :
    r ∈ (t.upsert row).rows ↔ r = row ∨ r ∈ t.rows ∧ (key row = none ∨ key r ≠ key row) := by
  unfold upsert
  split
  · rename_i hfree
    rw [free_iff] at hfree
    simp only [append, List.mem_append, List.mem_singleton]
    constructor
    · rintro (hold | rfl)
      · refine .inr ⟨hold, ?_⟩
        by_cases hk : key r = key row
        · exact .inl (hfree r hold hk)
        · exact .inr hk
      · exact .inl rfl
    · rintro (rfl | ⟨hold, -⟩)
      · exact .inr rfl
      · exact .inl hold
  · rename_i hfree
    simp only [free_iff, not_forall] at hfree
    obtain ⟨taken, htaken, hkey, hsome⟩ := hfree
    simp only [List.mem_map, replacing]
    constructor
    · rintro ⟨r', hr', rfl⟩
      by_cases hk : key r' = key row
      · exact .inl (if_pos hk)
      · rw [if_neg hk]
        exact .inr ⟨hr', .inr hk⟩
    · rintro (rfl | ⟨hold, hnone | hk⟩)
      · exact ⟨taken, htaken, if_pos hkey⟩
      · exact absurd hnone hsome
      · exact ⟨r, hold, if_neg hk⟩

theorem upsert_ne_nil (t : Table key) (row : ρ) : (t.upsert row).rows ≠ [] :=
  List.ne_nil_of_mem (mem_upsert.2 (.inl rfl))

/-- `DELETE … WHERE key = k`. -/
def delete (t : Table key) (k : κ) : Table key where
  rows := t.rows.filter fun r => key r ≠ some k
  distinct := t.distinct.sublist (List.filter_sublist.filterMap key)

theorem mem_delete {t : Table key} {k : κ} {r : ρ} :
    r ∈ (t.delete k).rows ↔ r ∈ t.rows ∧ key r ≠ some k := by
  simp [delete]

theorem delete_ne_nil {t : Table key} {k : κ} (h : (t.rows.any fun r => key r ≠ some k) = true) :
    (t.delete k).rows ≠ [] := by
  obtain ⟨r, hr, hkey⟩ := List.any_eq_true.1 h
  exact List.ne_nil_of_mem (mem_delete.2 ⟨hr, of_decide_eq_true hkey⟩)

/-! ### Several upserts -/

/-- The rows are upserted one after the other. -/
def upserts (t : Table key) (rows : List ρ) : Table key := rows.foldl upsert t

theorem mem_of_mem_upserts {t : Table key} {rows : List ρ} {r : ρ}
    (h : r ∈ (t.upserts rows).rows) : r ∈ t.rows ∨ r ∈ rows := by
  induction rows generalizing t with
  | nil => exact .inl h
  | cons row rows ih =>
    rcases ih h with hold | hnew
    · rcases mem_upsert.1 hold with rfl | ⟨hold, -⟩
      · exact .inr List.mem_cons_self
      · exact .inl hold
    · exact .inr (List.mem_cons_of_mem _ hnew)

/-- A row that was there is still there, or another one has its key. -/
theorem upserts_keep {t : Table key} (rows : List ρ) {r : ρ} (h : r ∈ t.rows) :
    r ∈ (t.upserts rows).rows ∨ ∃ k, key r = some k ∧
      ∃ r' ∈ (t.upserts rows).rows, key r' = some k := by
  induction rows generalizing t r with
  | nil => exact .inl h
  | cons row rows ih =>
    by_cases hkept : key row = none ∨ key r ≠ key row
    · exact ih (mem_upsert.2 (.inr ⟨h, hkept⟩))
    · rw [not_or, not_not] at hkept
      obtain ⟨k, hk⟩ := Option.ne_none_iff_exists'.1 hkept.1
      have hrow : row ∈ (t.upsert row).rows := mem_upsert.2 (.inl rfl)
      rcases ih hrow with hmem | ⟨k', hk', r', hr', hkey⟩
      · exact .inr ⟨k, hkept.2.trans hk, row, hmem, hk⟩
      · exact .inr ⟨k', hkept.2.trans hk', r', hr', hkey⟩

/-- A row that is upserted is in the table, or another one has its key. -/
theorem upserts_mem {t : Table key} {rows : List ρ} {r : ρ} (h : r ∈ rows) :
    r ∈ (t.upserts rows).rows ∨ ∃ k, key r = some k ∧
      ∃ r' ∈ (t.upserts rows).rows, key r' = some k := by
  obtain ⟨earlier, later, rfl⟩ := List.append_of_mem h
  have hfold : t.upserts (earlier ++ r :: later) = ((t.upserts earlier).upsert r).upserts later := by
    simp [upserts]
  rw [hfold]
  exact upserts_keep later (mem_upsert.2 (.inl rfl))

theorem upserts_ne_nil (t : Table key) {rows : List ρ} (h : rows ≠ []) :
    (t.upserts rows).rows ≠ [] := by
  obtain ⟨row, hrow⟩ := List.exists_mem_of_ne_nil rows h
  rcases upserts_mem (t := t) hrow with hmem | ⟨-, -, r', hr', -⟩
  · exact List.ne_nil_of_mem hmem
  · exact List.ne_nil_of_mem hr'

/-- **Upserts into an empty table keep every row exactly if rows of one key are equal.** -/
theorem upserts_exact_iff (rows : List ρ) :
    (∀ r, r ∈ ((empty key).upserts rows).rows ↔ r ∈ rows) ↔
      ∀ r ∈ rows, ∀ r' ∈ rows, ∀ k, key r = some k → key r' = some k → r = r' := by
  constructor
  · intro hexact r hr r' hr' k hk hk'
    exact eq_of_key _ ((hexact r).2 hr) ((hexact r').2 hr') hk hk'
  · intro hequal r
    constructor
    · intro hmem
      rcases mem_of_mem_upserts hmem with hold | hnew
      · cases hold
      · exact hnew
    · intro hr
      rcases upserts_mem (t := empty key) hr with hmem | ⟨k, hk, r', hr', hk'⟩
      · exact hmem
      · rcases mem_of_mem_upserts hr' with hold | hnew
        · cases hold
        · rw [hequal r hr r' hnew k hk hk']
          exact hr'

end Table

end Keyed
