/-
**The tables of the user: watchlist and portfolio.**

`backend/app/db/repository.py` keeps the watched funds and the holdings in two SQLite tables.  Each
of its functions opens a connection and runs one transaction, so each is one step of a script.

Python hands its values to SQLite, which cannot bind all of them: an integer may be too large, a
text may have no UTF-8 form, and there is no type for a list or a dictionary.  What is bound is then
stored as the column asks.  A column of text turns numbers into text.  A column of reals turns a
text into a number if it looks like one and otherwise keeps the text, which SQLite holds to be
greater than zero.  `NULL` is refused where the column says so; a primary key of text may be `NULL`,
and any number of rows may have it so.

Main definitions:

* `Failure` — the exceptions, and which of them the migration catches;
* `SqlValue`, `Sqlite` — values that are bound, and how SQLite converts them;
* `WatchRow`, `HoldingRow`, `Db` — the rows and the tables;
* `replaceWatchlist`, `upsertWatch`, `deleteWatch`,
  `upsertHolding`, `deleteHolding` — the writes of the repository;
* `migrateJsonOnce` — the migration of the JSON files.

Main results:

* `run_migrateWatchlist`, `run_migrateHoldings` — **what the migration makes of a file**.
-/

import Mathlib.Algebra.Group.Int.Defs
import QuantFlow.KeyedTable
import QuantFlow.PyValues
import QuantFlow.Scripts

namespace QuantFlow

open Py (Json Str Fields Float64)
open Scripts (Script)

/-! ### Exceptions -/

/-- The exceptions of the repository and of its callers.  `unicode` is a text without a UTF-8 form,
`decode` a file that is not UTF-8 or not JSON, and `recursion` one that is nested too deeply. -/
inductive Failure
  | osError
  | typeError
  | valueError (message : Str)
  | unicode
  | decode
  | keyError (key : String)
  | overflow
  | unsupported
  | integrity
  | recursion
  deriving DecidableEq

/-- `except (OSError, ValueError, TypeError)`; the two errors of encoding are `ValueError`s. -/
def Failure.caught : Failure → Bool
  | .osError => true
  | .typeError => true
  | .valueError _ => true
  | .unicode => true
  | .decode => true
  | _ => false

/-! ### Values -/

/-- A value as SQLite gets it. -/
inductive SqlValue
  | null
  | int (n : ℤ)
  | real (x : Float64)
  | text (s : Str)

/-- How a Python value is bound; a NaN becomes `NULL`. -/
def SqlValue.ofJson : Json → Except Failure SqlValue
  | .null => .ok .null
  | .bool b => .ok (.int (if b then 1 else 0))
  | .int n => if -(2 ^ 63) ≤ n ∧ n < 2 ^ 63 then .ok (.int n) else .error .overflow
  | .float .nan => .ok .null
  | .float x => .ok (.real x)
  | .str s => if Str.encodable s then .ok (.text s) else .error .unicode
  | .arr _ => .error .unsupported
  | .obj _ => .error .unsupported

/-- The conversions of SQLite: the text of a real, the real a text looks like, and the real nearest
to an integer. -/
structure Sqlite where
  realText : Float64 → Str
  textReal : Str → Option Float64
  intReal : ℤ → Float64

/-- What a column of reals holds: a real, or a text that looks like none. -/
inductive Cell
  | real (x : Float64)
  | text (s : Str)
  deriving DecidableEq

/-- `CHECK (column > 0)`; every text is greater than a number. -/
def Cell.positive : Cell → Bool
  | .real (.finite value _) => 0 < value
  | .real (.inf negative) => !negative
  | .real .nan => false
  | .text _ => true

/-- The cell as Python reads it. -/
def Cell.toJson : Cell → Json
  | .real x => .float x
  | .text s => .str s

section Columns

variable (sql : Sqlite)

/-- The value in a column of text; `none` is `NULL`. -/
def SqlValue.textColumn : SqlValue → Option Str
  | .null => none
  | .int n => some (Str.ofString (toString n))
  | .real x => some (sql.realText x)
  | .text s => some s

/-- The value in a column of reals. -/
def SqlValue.realColumn : SqlValue → Option Cell
  | .null => none
  | .int n => some (.real (sql.intReal n))
  | .real x => some (.real x)
  | .text s => some (((sql.textReal s).map Cell.real).getD (.text s))

end Columns

/-! ### Rows and tables -/

/-- A row of `watchlist`. -/
structure WatchRow where
  code : Option Str
  name : Str
  category : Str
  note : Str
  focus : ℤ
  deriving DecidableEq

/-- A row of `portfolio`. -/
structure HoldingRow where
  code : Option Str
  name : Str
  shares : Cell
  costNav : Cell
  positive : shares.positive = true ∧ costNav.positive = true
  deriving DecidableEq

structure Db where
  watchlist : Keyed.Table WatchRow.code
  portfolio : Keyed.Table HoldingRow.code
  deriving DecidableEq

/-- The values of an `INSERT` into `watchlist`; `focus` is `int(bool(…))`. -/
structure WatchTuple where
  code : Json
  name : Json
  category : Json
  note : Json
  focus : Bool

/-- The values of an `INSERT` into `portfolio`. -/
structure HoldingTuple where
  code : Json
  name : Json
  shares : Json
  costNav : Json

variable (sql : Sqlite)

/-- The row of the values: all are bound, and then the columns that are `NOT NULL` are checked. -/
def WatchTuple.row (t : WatchTuple) : Except Failure WatchRow := do
  let code ← SqlValue.ofJson t.code
  let name ← SqlValue.ofJson t.name
  let category ← SqlValue.ofJson t.category
  let note ← SqlValue.ofJson t.note
  match name.textColumn sql, category.textColumn sql, note.textColumn sql with
  | some name, some category, some note =>
    .ok { code := code.textColumn sql, name := name, category := category, note := note,
          focus := if t.focus then 1 else 0 }
  | _, _, _ => .error .integrity

/-- The row of the values, with the two checks. -/
def HoldingTuple.row (t : HoldingTuple) : Except Failure HoldingRow := do
  let code ← SqlValue.ofJson t.code
  let name ← SqlValue.ofJson t.name
  let shares ← SqlValue.ofJson t.shares
  let costNav ← SqlValue.ofJson t.costNav
  match name.textColumn sql, shares.realColumn sql, costNav.realColumn sql with
  | some name, some shares, some costNav =>
    if h : shares.positive = true ∧ costNav.positive = true then
      .ok { code := code.textColumn sql, name := name, shares := shares, costNav := costNav,
            positive := h }
    else .error .integrity
  | _, _, _ => .error .integrity

/-! ### The watchlist -/

/-- A watched fund as a dictionary of Python. -/
structure WatchItem where
  code : Option Str
  name : Str
  category : Str
  note : Str
  focus : Bool
  deriving DecidableEq

/-- `None` or a text. -/
def optionalText : Option Str → Json
  | none => .null
  | some s => .str s

def WatchItem.tuple (f : WatchItem) : WatchTuple :=
  { code := optionalText f.code, name := .str f.name, category := .str f.category,
    note := .str f.note, focus := f.focus }

def WatchRow.item (r : WatchRow) : WatchItem :=
  { code := r.code, name := r.name, category := r.category, note := r.note, focus := r.focus ≠ 0 }

/-- `list_watchlist()`. -/
def listWatchlist : Script Db Failure (List WatchItem) :=
  .read fun db => db.watchlist.rows.map WatchRow.item

/-- One `INSERT`; a code that is taken is refused. -/
def insertWatch (table : Keyed.Table WatchRow.code) (t : WatchTuple) :
    Except Failure (Keyed.Table WatchRow.code) := do
  let row ← t.row sql
  match table.insert row with
  | none => .error .integrity
  | some table => .ok table

/-- `executemany` into the empty table. -/
def insertAll (tuples : List WatchTuple) : Except Failure (Keyed.Table WatchRow.code) :=
  tuples.foldlM (insertWatch sql) (.empty _)

/-- `replace_watchlist(rows)`, with what the list of values made of the rows is. -/
def replaceWatchlist (tuples : Except Failure (List WatchTuple)) : Script Db Failure Unit :=
  .transaction fun db => do
    let tuples ← tuples
    let table ← insertAll sql tuples
    .ok ((), { db with watchlist := table })

/-- `upsert_watch(row)`. -/
def upsertWatch (f : WatchItem) : Script Db Failure Unit :=
  .transaction fun db => do
    let row ← f.tuple.row sql
    .ok ((), { db with watchlist := db.watchlist.upsert row })

/-- `delete_watch(code)`. -/
def deleteWatch (code : Str) : Script Db Failure Bool :=
  .transaction fun db => do
    let _ ← SqlValue.ofJson (.str code)
    .ok (decide (code ∈ db.watchlist.keys), { db with watchlist := db.watchlist.delete code })

/-! ### The portfolio -/

/-- A holding as a dictionary of Python. -/
structure HoldingItem where
  code : Option Str
  name : Str
  shares : Cell
  costNav : Cell
  deriving DecidableEq

def HoldingItem.tuple (h : HoldingItem) : HoldingTuple :=
  { code := optionalText h.code, name := .str h.name, shares := h.shares.toJson,
    costNav := h.costNav.toJson }

def HoldingRow.item (r : HoldingRow) : HoldingItem :=
  { code := r.code, name := r.name, shares := r.shares, costNav := r.costNav }

/-- `list_holdings()`. -/
def listHoldings : Script Db Failure (List HoldingItem) :=
  .read fun db => db.portfolio.rows.map HoldingRow.item

/-- `upsert_holding(row)`, with the values that were read from the row. -/
def upsertHolding (t : Except Failure HoldingTuple) : Script Db Failure Unit :=
  .transaction fun db => do
    let t ← t
    let row ← t.row sql
    .ok ((), { db with portfolio := db.portfolio.upsert row })

/-- `delete_holding(code)`. -/
def deleteHolding (code : Str) : Script Db Failure Bool :=
  .transaction fun db => do
    let _ ← SqlValue.ofJson (.str code)
    .ok (decide (code ∈ db.portfolio.keys), { db with portfolio := db.portfolio.delete code })

/-! ### The JSON files -/

/-- A file: missing, one that cannot be read, is no JSON text or nested too deeply, or a value. -/
inductive File
  | missing
  | unreadable
  | undecodable
  | tooDeep
  | json (value : Json)

/-- `json.loads(path.read_text(encoding="utf-8"))`. -/
def File.load : File → Except Failure Json
  | .missing => .error .osError
  | .unreadable => .error .osError
  | .undecodable => .error .decode
  | .tooDeep => .error .recursion
  | .json value => .ok value

/-- `path.exists()`. -/
def File.present : File → Bool
  | .missing => false
  | _ => true

/-- The two files in the data directory. -/
structure Disk where
  watchlist : File
  holdings : File

/-- `for row in rows`: a dictionary gives its keys and a text its characters. -/
def iterate : Json → Except Failure (List Json)
  | .arr elems => .ok elems
  | .obj fields => .ok (fields.map fun f => .str f.1)
  | .str s => .ok (s.map fun c => .str [c])
  | _ => .error .typeError

/-- `d[key]`. -/
def item (d : Fields) (key : String) : Except Failure Json :=
  match Fields.find d key with
  | none => .error (.keyError key)
  | some x => .ok x

/-- The values of a row of `watchlist.json`; what is no dictionary has no `["code"]`. -/
def watchTuple : Json → Except Failure WatchTuple
  | .obj d => do
    let code ← item d "code"
    .ok { code := code, name := (Fields.find d "name").getD code,
          category := (Fields.find d "category").getD (.text "其他"),
          note := (Fields.find d "note").getD (.text ""), focus := (Fields.get d "focus").truthy }
  | _ => .error .typeError

/-- The values of a row of `holdings.json`. -/
def holdingTuple : Json → Except Failure HoldingTuple
  | .obj d => do
    let code ← item d "code"
    let shares ← item d "shares"
    let costNav ← item d "cost_nav"
    .ok { code := code, name := (Fields.find d "name").getD (.text ""), shares := shares,
          costNav := costNav }
  | _ => .error .typeError

/-- The list of values that `replace_watchlist` makes of the file. -/
def watchTuples (rows : Json) : Except Failure (List WatchTuple) := do
  let elems ← iterate rows
  elems.mapM watchTuple

/-- The loop over the rows of `holdings.json`, with one transaction for each. -/
def storeHoldings (rows : Json) : Script Db Failure Unit := do
  let elems ← .lift (iterate rows)
  .each elems fun e => upsertHolding sql (holdingTuple e)

/-- One round of the migration.  The backup that follows a success touches no table, and its errors
are caught. -/
def migrateFile (count : Db → ℕ) (file : File) (store : Json → Script Db Failure Unit) :
    Script Db Failure Unit := do
  let n ← .read count
  if n ≠ 0 ∨ file.present = false then pure ()
  else
    Script.rescue Failure.caught do
      let rows ← .lift file.load
      store rows

def migrateWatchlist (file : File) : Script Db Failure Unit :=
  migrateFile (fun db => db.watchlist.rows.length) file fun rows =>
    replaceWatchlist sql (watchTuples rows)

def migrateHoldings (file : File) : Script Db Failure Unit :=
  migrateFile (fun db => db.portfolio.rows.length) file (storeHoldings sql)

/-- `migrate_json_once(data_dir)`. -/
def migrateJsonOnce (disk : Disk) : Script Db Failure Unit := do
  migrateWatchlist sql disk.watchlist
  migrateHoldings sql disk.holdings

/-! ### What the migration makes of a file -/

/-- What is left of a failure that may be caught. -/
def Failure.verdict (e : Failure) : Except Failure Unit := if e.caught then .ok () else .error e

theorem run_migrateFile {count : Db → ℕ} {file : File} {store : Json → Script Db Failure Unit}
    {db : Db} :
    (migrateFile count file store).run db =
      if count db ≠ 0 ∨ file.present = false then (.ok (), db)
      else
        match file.load with
        | .error e => (e.verdict, db)
        | .ok rows =>
          match (store rows).run db with
          | (.ok _, db') => (.ok (), db')
          | (.error e, db') => (e.verdict, db') := by
  rw [migrateFile, Script.run_bind_ok (Script.run_read count db)]
  split
  · rfl
  · rw [Script.run_rescue]
    cases file.load with
    | error e => rfl
    | ok rows =>
      rw [Script.run_bind_ok (Script.run_lift (.ok rows) db)]
      simp only
      rcases (store rows).run db with ⟨r, db'⟩
      cases r with
      | ok a => rfl
      | error e => rfl

/-- The table that a value of `watchlist.json` makes. -/
def watchTable (rows : Json) : Except Failure (Keyed.Table WatchRow.code) :=
  watchTuples rows >>= insertAll sql

theorem run_replaceWatchlist (tuples : Except Failure (List WatchTuple)) (db : Db) :
    (replaceWatchlist sql tuples).run db =
      match tuples >>= insertAll sql with
      | .ok table => (.ok (), { db with watchlist := table })
      | .error e => (.error e, db) := by
  unfold replaceWatchlist
  cases htable : tuples >>= insertAll sql with
  | error e =>
    refine Script.run_transaction_error ?_
    rw [← bind_assoc, htable]
    rfl
  | ok table =>
    refine Script.run_transaction_ok ?_
    rw [← bind_assoc, htable]
    rfl

theorem run_replaceWatchlist_ok {tuples : List WatchTuple} {table : Keyed.Table WatchRow.code}
    (db : Db) (h : insertAll sql tuples = .ok table) :
    (replaceWatchlist sql (.ok tuples)).run db = (.ok (), { db with watchlist := table }) := by
  have hbind : (Except.ok tuples >>= insertAll sql) = .ok table := h
  rw [run_replaceWatchlist, hbind]

/-- **What the migration makes of `watchlist.json`.** -/
theorem run_migrateWatchlist (file : File) (db : Db) :
    (migrateWatchlist sql file).run db =
      if db.watchlist.rows ≠ [] ∨ file.present = false then (.ok (), db)
      else
        match file.load >>= watchTable sql with
        | .error e => (e.verdict, db)
        | .ok table => (.ok (), { db with watchlist := table }) := by
  rw [migrateWatchlist, run_migrateFile]
  simp only [ne_eq, List.length_eq_zero_iff]
  split
  · rfl
  · cases file.load with
    | error e => rfl
    | ok rows =>
      have hbind : (Except.ok rows >>= watchTable sql) = watchTuples rows >>= insertAll sql := rfl
      simp only [run_replaceWatchlist, hbind]
      cases watchTuples rows >>= insertAll sql with
      | ok table => rfl
      | error e => rfl

/-- The row of an element of `holdings.json`. -/
def holdingRow (e : Json) : Except Failure HoldingRow := do
  let t ← holdingTuple e
  t.row sql

/-- The rows before the first failure in a value of `holdings.json`, and that failure. -/
def holdingRows (rows : Json) : List HoldingRow × Option Failure :=
  match iterate rows with
  | .error e => ([], some e)
  | .ok elems => Script.firstFailure (holdingRow sql) elems

theorem run_upsertHolding_ok {t : Except Failure HoldingTuple} {row : HoldingRow} (db : Db)
    (h : t >>= HoldingTuple.row sql = .ok row) :
    (upsertHolding sql t).run db =
      (.ok (), { db with portfolio := db.portfolio.upsert row }) := by
  refine Script.run_transaction_ok ?_
  rw [← bind_assoc, h]
  rfl

theorem run_upsertHolding_error {t : Except Failure HoldingTuple} {e : Failure} (db : Db)
    (h : t >>= HoldingTuple.row sql = .error e) : (upsertHolding sql t).run db = (.error e, db) := by
  refine Script.run_transaction_error ?_
  rw [← bind_assoc, h]
  rfl

theorem run_storeHoldings (rows : Json) (db : Db) :
    (storeHoldings sql rows).run db =
      (Script.verdict (holdingRows sql rows).2,
        { db with portfolio := db.portfolio.upserts (holdingRows sql rows).1 }) := by
  unfold storeHoldings holdingRows
  cases iterate rows with
  | error e => rfl
  | ok elems =>
    rw [Script.run_bind_ok (Script.run_lift (.ok elems) db),
      Script.run_each (holdingRow sql)
        (fun row db => { db with portfolio := db.portfolio.upsert row })
        (fun e row db h => run_upsertHolding_ok sql db h)
        (fun e failure db h => run_upsertHolding_error sql db h) elems db]
    refine Prod.ext rfl ?_
    generalize (Script.firstFailure (holdingRow sql) elems).1 = stored
    induction stored generalizing db with
    | nil => rfl
    | cons row stored ih => exact ih _

/-- What the loop over the rows leaves of a failure. -/
def Failure.rescued : Option Failure → Except Failure Unit
  | none => .ok ()
  | some e => e.verdict

/-- **What the migration makes of `holdings.json`.** -/
theorem run_migrateHoldings (file : File) (db : Db) :
    (migrateHoldings sql file).run db =
      if db.portfolio.rows ≠ [] ∨ file.present = false then (.ok (), db)
      else
        match file.load with
        | .error e => (e.verdict, db)
        | .ok rows => (Failure.rescued (holdingRows sql rows).2,
            { db with portfolio := db.portfolio.upserts (holdingRows sql rows).1 }) := by
  rw [migrateHoldings, run_migrateFile]
  simp only [ne_eq, List.length_eq_zero_iff, run_storeHoldings]
  split
  · rfl
  · cases file.load with
    | error e => rfl
    | ok rows =>
      simp only
      cases (holdingRows sql rows).2 with
      | none => rfl
      | some e => rfl

/-! ### Texts -/

theorem ofJson_optionalText (s : Option Str) :
    SqlValue.ofJson (optionalText s) =
      if s.all Str.encodable then .ok ((s.map SqlValue.text).getD .null) else .error .unicode := by
  cases s with
  | none => rfl
  | some s => rfl

theorem textColumn_of_optionalText {s : Option Str} {v : SqlValue}
    (h : SqlValue.ofJson (optionalText s) = .ok v) : v.textColumn sql = s := by
  rw [ofJson_optionalText] at h
  split at h
  · cases h
    cases s with
    | none => rfl
    | some s => rfl
  · cases h

/-! ### Removals -/

/-- A removal by a code, as both modules write it: the list is read, and the row is deleted only if
the list without the code is shorter.  No row has the code, or its row is deleted, or the code cannot
be bound. -/
theorem run_removal {ι : Type} {list : Script Db Failure (List ι)} {items : List ι}
    {key : ι → Option Str} {code : Str} {found : Db → Bool} {rest : Db → Db} {db current : Db}
    (delete : Script Db Failure Bool)
    (hdelete : delete = .transaction fun db => do
      let _ ← SqlValue.ofJson (.str code)
      .ok (found db, rest db))
    (hlist : list.run db = (.ok items, current))
    (hfound : (∃ i ∈ items, key i = some code) → found current = true) :
    let removal := do
      let data ← list
      let left := data.filter fun i => key i ≠ some code
      if left.length = data.length then pure false else delete
    removal.run db = (.ok false, current) ∨ removal.run db = (.ok true, rest current) ∨
      ∃ e, removal.run db = (.error e, current) := by
  simp only [Script.run_bind_ok hlist, List.length_filter_eq_length_iff]
  split
  · exact .inl rfl
  · rename_i hleft
    have hmem : found current = true := hfound (by simpa using hleft)
    subst hdelete
    cases hbind : SqlValue.ofJson (.str code) with
    | error e => exact .inr (.inr ⟨e, Script.run_transaction_error rfl⟩)
    | ok v =>
      refine .inr (.inl (Script.run_transaction_ok ?_))
      rw [← hmem]
      rfl

end QuantFlow
