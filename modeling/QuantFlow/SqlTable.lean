/-
**Rows that are written by position and read by name.**

`INSERT INTO t (names) VALUES (values)` pairs two lists that are written by hand, and the table lays
the values out in the order of its own declaration; a column that is not named gets `NULL`.
`SELECT *` gives every column under its name.  Whatever the three orders are, a column reads back as
the value that was written beside its name.

Main definitions:

* `Column`, `Schema` — the declaration of a table;
* `Schema.row`, `Schema.dict` — a row as it is stored, and as it is read;
* `Schema.column` — one column of a row.

Main results:

* `Schema.column_row` — **a column reads back as it was written**.
-/

import Mathlib.Data.List.Basic

namespace Sql

variable {ν : Type}

/-- A column, and the values its constraints admit. -/
structure Column (ν : Type) where
  name : String
  admits : ν → Bool

/-- The columns of a table, in the order of its declaration. -/
structure Schema (ν : Type) where
  columns : List (Column ν)

namespace Schema

def names (s : Schema ν) : List String := s.columns.map Column.name

/-- The row that an `INSERT` of named values stores. -/
def row (s : Schema ν) (null : ν) (named : List (String × ν)) : List ν :=
  s.columns.map fun c => (named.lookup c.name).getD null

/-- `dict(row)` of a row that was selected. -/
def dict (s : Schema ν) (row : List ν) : List (String × ν) := s.names.zip row

/-- `row[name]`. -/
def column (s : Schema ν) (row : List ν) (name : String) : Option ν := (s.dict row).lookup name

/-- Every value is one its column admits. -/
def admits (s : Schema ν) (row : List ν) : Bool :=
  (s.columns.zip row).all fun cv => cv.1.admits cv.2

theorem dict_row (s : Schema ν) (null : ν) (named : List (String × ν)) :
    s.dict (s.row null named) = s.names.map fun name => (name, (named.lookup name).getD null) := by
  simp only [dict, row, names]
  rw [List.zip_map']
  simp

/-- **A column reads back as it was written.** -/
theorem column_row (s : Schema ν) (null : ν) (named : List (String × ν)) {name : String}
    (h : name ∈ s.names) :
    s.column (s.row null named) name = some ((named.lookup name).getD null) := by
  rw [column, dict_row]
  generalize s.names = names at h
  induction names with
  | nil => cases h
  | cons name' names ih =>
    rw [List.map_cons, List.lookup_cons]
    by_cases heq : name = name'
    · subst heq
      simp
    · rw [beq_eq_false_iff_ne.2 heq]
      exact ih ((List.mem_cons.1 h).resolve_left heq)

end Schema

end Sql
