/-
**The migration of the JSON files, all or nothing?**

`migrate_json_once` fills an empty table from a JSON file that an earlier version left.  The
watchlist is replaced in one transaction, so it takes all rows of the file or none.  The holdings
are written row by row, each in a transaction of its own: a row that fails leaves the rows before it
in the table, which is then no longer empty, and the file is never looked at again.  And only some
exceptions are caught.  A dictionary without a code, a row that breaks a constraint, a number that
is too large or a list in the place of a text ends the migration, and the read that asked for it.

Main definitions:

* `File.rows` — the rows of a file, if each of its elements is one;
* `AllOrNothing` — a table is unchanged, or was empty and holds the rows of its file;
* `WholeMigration` — the migration returns, and both tables are so;
* `File.watchAcceptable`, `File.holdingsAcceptable` — what a file may hold.

Main results:

* `insertAll_eq` — the watchlist that a list of values makes;
* `wholeMigration_iff` — **the migration is all or nothing exactly if the file of each
  empty table is acceptable**;
* `migrateJsonOnce_returns_iff`, `portfolio_migrated_cases` — what its callers need to know of it.
-/

import QuantFlow.UserTables

namespace QuantFlow

open Py (Json Str Fields Float64)
open Scripts (Script)

variable (sql : Sqlite)

/-! ### What all or nothing means -/

/-- The row of an element of `watchlist.json`. -/
def watchRow (e : Json) : Except Failure WatchRow := watchTuple e >>= WatchTuple.row sql

/-- The rows of a file, if each of its elements is one. -/
def File.rows {ρ : Type} (outcome : Json → Except Failure ρ) : File → Option (List ρ)
  | .json rows =>
    match iterate rows with
    | .error _ => none
    | .ok elems => elems.mapM fun e => (outcome e).toOption
  | _ => none

/-- A table is unchanged, or it was empty and holds exactly the rows of its file. -/
def AllOrNothing {ρ κ : Type} {key : ρ → Option κ} (before after : Keyed.Table key)
    (file : Option (List ρ)) : Prop :=
  after = before ∨
    before.rows = [] ∧ ∃ rows, file = some rows ∧ ∀ r, r ∈ after.rows ↔ r ∈ rows

/-- The migration returns, and each table is unchanged or holds the rows of its file. -/
structure WholeMigration (disk : Disk) (db : Db) : Prop where
  returns : ((migrateJsonOnce sql disk).run db).1 = .ok ()
  watchlist : AllOrNothing db.watchlist ((migrateJsonOnce sql disk).run db).2.watchlist
    (disk.watchlist.rows (watchRow sql))
  portfolio : AllOrNothing db.portfolio ((migrateJsonOnce sql disk).run db).2.portfolio
    (disk.holdings.rows (holdingRow sql))

/-! ### What a file may hold -/

/-- The first failure among the elements of `watchlist.json`, if there is one, is caught: first the
values of all rows are read, and then the rows are bound and inserted, where no code may come
twice. -/
def watchElementsAcceptable (elems : List Json) : Bool :=
  let read := Script.firstFailure watchTuple elems
  match read.2 with
  | some e => e.caught
  | none =>
    let bound := Script.firstFailure (WatchTuple.row sql) read.1
    decide (bound.1.filterMap WatchRow.code).Nodup && bound.2.all Failure.caught

/-- `watchlist.json` can be migrated or left alone. -/
def File.watchAcceptable : File → Bool
  | .tooDeep => false
  | .json rows =>
    match iterate rows with
    | .error _ => true
    | .ok elems => watchElementsAcceptable sql elems
  | _ => true

/-- Holdings of one code are equal. -/
def sameCodeEqual (rows : List HoldingRow) : Bool :=
  rows.all fun r => rows.all fun r' => r.code.isNone || r.code ≠ r'.code || r = r'

/-- `holdings.json` can be migrated or left alone: all its rows can be stored, and none takes the
place of another one; or not even the first can be stored, which is caught. -/
def File.holdingsAcceptable : File → Bool
  | .tooDeep => false
  | .json rows =>
    match holdingRows sql rows with
    | (stored, none) => sameCodeEqual stored
    | (stored, some e) => stored.isEmpty && e.caught
  | _ => true

theorem sameCodeEqual_iff {rows : List HoldingRow} :
    sameCodeEqual rows = true ↔ ∀ r ∈ rows, ∀ r' ∈ rows, ∀ code,
      r.code = some code → r'.code = some code → r = r' := by
  simp only [sameCodeEqual, List.all_eq_true, Bool.or_eq_true, Option.isNone_iff_eq_none,
    decide_eq_true_eq]
  constructor
  · intro h r hr r' hr' code hcode hcode'
    rcases h r hr r' hr' with (hnone | hne) | heq
    · rw [hnone] at hcode
      cases hcode
    · exact absurd (hcode.trans hcode'.symm) hne
    · exact heq
  · intro h r hr r' hr'
    cases hcode : r.code with
    | none => exact .inl (.inl rfl)
    | some code =>
      by_cases hsame : some code = r'.code
      · exact .inr (h r hr r' hr' code hcode hsame.symm)
      · exact .inl (.inr hsame)

/-! ### The watchlist -/

section Inserts

variable {sql} {table table' : Keyed.Table WatchRow.code} {t : WatchTuple} {row : WatchRow}

theorem insertWatch_error {e : Failure} (h : t.row sql = .error e) :
    insertWatch sql table t = .error e := by
  rw [insertWatch, h]
  rfl

theorem insertWatch_taken (h : t.row sql = .ok row) (hinsert : table.insert row = none) :
    insertWatch sql table t = .error .integrity := by
  rw [insertWatch, h]
  simp only [bind, Except.bind, hinsert]

theorem insertWatch_ok (h : t.row sql = .ok row) (hinsert : table.insert row = some table') :
    insertWatch sql table t = .ok table' := by
  rw [insertWatch, h]
  simp only [bind, Except.bind, hinsert]

theorem not_nodup_of_taken (hinsert : table.insert row = none) (later : List WatchRow) :
    ¬ ((table.rows ++ row :: later).filterMap WatchRow.code).Nodup := by
  intro hnodup
  have htaken := Keyed.Table.insert_eq_none_iff.1 hinsert
  refine absurd (Keyed.Table.free_iff.2 ?_) (by simpa using htaken)
  intro r hr hcode
  cases hrow : row.code with
  | none => rfl
  | some code =>
    rw [List.filterMap_append, List.filterMap_cons_some hrow] at hnodup
    have hne := (List.nodup_append.1 hnodup).2.2 code
      (List.mem_filterMap.2 ⟨r, hr, hcode.trans hrow⟩) code List.mem_cons_self
    exact absurd rfl hne

end Inserts

/-- Inserts one after the other: the rows before the first failure are added, unless a code comes
twice among them. -/
theorem foldlM_insertWatch (tuples : List WatchTuple) (table : Keyed.Table WatchRow.code) :
    tuples.foldlM (insertWatch sql) table =
      let bound := Script.firstFailure (WatchTuple.row sql) tuples
      if h : ((table.rows ++ bound.1).filterMap WatchRow.code).Nodup then
        match bound.2 with
        | none => .ok ⟨table.rows ++ bound.1, h⟩
        | some e => .error e
      else .error .integrity := by
  have hrows : table.rows ++ [] = table.rows := List.append_nil _
  induction tuples generalizing table with
  | nil =>
    simp only [Script.firstFailure, hrows, table.distinct, dif_pos]
    rfl
  | cons t tuples ih =>
    rw [List.foldlM_cons]
    cases hrow : t.row sql with
    | error e =>
      rw [insertWatch_error hrow]
      simp only [hrow, Script.firstFailure, hrows, table.distinct, dif_pos]
      rfl
    | ok row =>
      simp only [Script.firstFailure, hrow]
      cases hinsert : table.insert row with
      | none =>
        rw [insertWatch_taken hrow hinsert, dif_neg (not_nodup_of_taken hinsert _)]
        rfl
      | some table' =>
        rw [insertWatch_ok hrow hinsert]
        have hnext := ih table' (List.append_nil _)
        simp only [Keyed.Table.rows_insert hinsert, List.append_assoc,
          List.singleton_append] at hnext
        exact hnext

/-- **The watchlist that a list of values makes.** -/
theorem insertAll_eq (tuples : List WatchTuple) :
    insertAll sql tuples =
      let bound := Script.firstFailure (WatchTuple.row sql) tuples
      if h : (bound.1.filterMap WatchRow.code).Nodup then
        match bound.2 with
        | none => .ok ⟨bound.1, h⟩
        | some e => .error e
      else .error .integrity :=
  foldlM_insertWatch sql tuples (.empty _)

/-- The elements make no table exactly with a failure that is caught, if they are acceptable. -/
theorem watchElementsAcceptable_iff (elems : List Json) :
    watchElementsAcceptable sql elems = true ↔
      ∀ e, elems.mapM watchTuple >>= insertAll sql = .error e → e.caught = true := by
  simp only [watchElementsAcceptable, Script.mapM_eq_firstFailure]
  cases (Script.firstFailure watchTuple elems).2 with
  | some e => simp [bind, Except.bind]
  | none =>
    simp only [bind, Except.bind, insertAll_eq, Bool.and_eq_true, decide_eq_true_eq]
    generalize Script.firstFailure (WatchTuple.row sql)
      (Script.firstFailure watchTuple elems).1 = bound
    by_cases hnodup : (bound.1.filterMap WatchRow.code).Nodup
    · simp only [hnodup, true_and, dif_pos]
      cases bound.2 with
      | none => simp
      | some e => simp
    · simp [hnodup, Failure.caught]

/-- The table that the elements make has their rows. -/
theorem rows_of_insertAll {elems : List Json} {table : Keyed.Table WatchRow.code}
    (h : elems.mapM watchTuple >>= insertAll sql = .ok table) :
    (elems.mapM fun e => (watchRow sql e).toOption) = some table.rows := by
  simp only [Script.mapM_eq_firstFailure] at h
  cases hread : (Script.firstFailure watchTuple elems).2 with
  | some e =>
    rw [hread] at h
    cases h
  | none =>
    simp only [hread, bind, Except.bind, insertAll_eq] at h
    have hboth := Script.firstFailure_bind (WatchTuple.row sql) hread
    rw [Script.mapM_toOption_eq_some_iff]
    refine hboth.trans ?_
    split at h
    · split at h
      · rename_i hbound
        cases h
        exact Prod.ext rfl hbound
      · cases h
    · cases h

section Watchlist

variable {sql} {file : File}

theorem caught_of_iterate {rows : Json} {e : Failure} (h : iterate rows = .error e) :
    e.caught = true := by
  cases rows with
  | arr elems => cases h
  | obj fields => cases h
  | str s => cases h
  | _ =>
    cases h
    rfl

theorem watchTable_eq (rows : Json) :
    watchTable sql rows = iterate rows >>= fun elems => elems.mapM watchTuple >>= insertAll sql := by
  rw [watchTable, watchTuples, bind_assoc]

theorem watchAcceptable_iff :
    file.watchAcceptable sql = true ↔
      (file.present = true → ∀ e, file.load >>= watchTable sql = .error e → e.caught = true) := by
  cases file with
  | json rows =>
    simp only [File.watchAcceptable, File.present, File.load, bind, Except.bind, watchTable_eq,
      forall_const]
    cases hiterate : iterate rows with
    | error e => simp [caught_of_iterate hiterate]
    | ok elems => exact watchElementsAcceptable_iff sql elems
  | tooDeep => simp [File.watchAcceptable, File.present, File.load, bind, Except.bind, Failure.caught]
  | _ => simp [File.watchAcceptable, File.present, File.load, bind, Except.bind, Failure.caught]

theorem rows_of_watchTable {table : Keyed.Table WatchRow.code}
    (h : file.load >>= watchTable sql = .ok table) : file.rows (watchRow sql) = some table.rows := by
  cases file with
  | json rows =>
    simp only [File.load, bind, Except.bind, watchTable_eq] at h
    simp only [File.rows]
    cases hiterate : iterate rows with
    | error e =>
      rw [hiterate] at h
      cases h
    | ok elems =>
      rw [hiterate] at h
      exact rows_of_insertAll sql h
  | _ => cases h

theorem verdict_eq_ok_iff {e : Failure} : e.verdict = .ok () ↔ e.caught = true := by
  unfold Failure.verdict
  cases e.caught with
  | true => simp
  | false => simp

/-- **The watchlist is migrated all or nothing.** -/
theorem allOrNothing_migrateWatchlist (sql : Sqlite) (file : File) (db : Db) :
    AllOrNothing db.watchlist ((migrateWatchlist sql file).run db).2.watchlist
      (file.rows (watchRow sql)) := by
  rw [run_migrateWatchlist]
  split
  · exact .inl rfl
  · rename_i hopen
    rw [not_or, not_not] at hopen
    cases htable : file.load >>= watchTable sql with
    | error e => exact .inl rfl
    | ok table =>
      exact .inr ⟨hopen.1, table.rows, rows_of_watchTable htable, fun r => Iff.rfl⟩

/-- The migration of the watchlist returns exactly if there is something in the table, or the file
is acceptable. -/
theorem migrateWatchlist_returns_iff (sql : Sqlite) (file : File) (db : Db) :
    ((migrateWatchlist sql file).run db).1 = .ok () ↔
      (db.watchlist.rows = [] → file.watchAcceptable sql = true) := by
  rw [run_migrateWatchlist, watchAcceptable_iff]
  by_cases hfilled : db.watchlist.rows = []
  · cases hpresent : file.present with
    | false => simp
    | true =>
      simp only [hfilled, ne_eq, not_true, Bool.true_eq_false, or_false, if_false, forall_const]
      cases htable : file.load >>= watchTable sql with
      | error e => simp [verdict_eq_ok_iff]
      | ok table => simp
  · simp [hfilled]

theorem portfolio_migrateWatchlist (sql : Sqlite) (file : File) (db : Db) :
    ((migrateWatchlist sql file).run db).2.portfolio = db.portfolio := by
  rw [run_migrateWatchlist]
  split
  · rfl
  · split <;> rfl

end Watchlist

/-! ### The portfolio -/

section Portfolio

variable {sql}

/-- The rows of `holdings.json` are those before the first failure, if there is none. -/
theorem rows_holdings_eq_some_iff {rows : Json} {stored : List HoldingRow} :
    (File.json rows).rows (holdingRow sql) = some stored ↔ holdingRows sql rows = (stored, none) := by
  simp only [File.rows, holdingRows]
  cases iterate rows with
  | error e => simp
  | ok elems => exact Script.mapM_toOption_eq_some_iff

/-- An empty table takes the rows before the first failure all or nothing exactly if that is the
first row, or there is none and no row takes the place of another one. -/
theorem allOrNothing_upserts_iff {table : Keyed.Table HoldingRow.code} (hempty : table.rows = [])
    {rows : Json} {stored : List HoldingRow} {failure : Option Failure}
    (h : holdingRows sql rows = (stored, failure)) :
    AllOrNothing table (table.upserts stored) ((File.json rows).rows (holdingRow sql)) ↔
      stored = [] ∨ failure = none ∧ sameCodeEqual stored = true := by
  obtain rfl : table = .empty _ := Keyed.Table.ext_rows hempty
  simp only [AllOrNothing, rows_holdings_eq_some_iff, h, Prod.mk.injEq, sameCodeEqual_iff,
    ← Keyed.Table.upserts_exact_iff]
  constructor
  · rintro (hsame | ⟨-, rows', ⟨rfl, rfl⟩, hexact⟩)
    · left
      by_contra hne
      exact Keyed.Table.upserts_ne_nil _ hne (congrArg Keyed.Table.rows hsame)
    · exact .inr ⟨rfl, hexact⟩
  · rintro (rfl | ⟨rfl, hexact⟩)
    · exact .inl rfl
    · exact .inr ⟨hempty, stored, ⟨rfl, rfl⟩, hexact⟩

/-- The migration of the holdings returns and is all or nothing exactly if there is something in the
table, or the file is acceptable. -/
theorem migrateHoldings_whole_iff (sql : Sqlite) (file : File) (db : Db) :
    (((migrateHoldings sql file).run db).1 = .ok () ∧
      AllOrNothing db.portfolio ((migrateHoldings sql file).run db).2.portfolio
        (file.rows (holdingRow sql))) ↔
      (db.portfolio.rows = [] → file.holdingsAcceptable sql = true) := by
  rw [run_migrateHoldings]
  by_cases hempty : db.portfolio.rows = []
  · simp only [hempty, ne_eq, not_true, false_or, forall_const]
    cases file with
    | json rows =>
      simp only [File.present, File.load, File.holdingsAcceptable, Bool.true_eq_false, if_false]
      rcases hrows : holdingRows sql rows with ⟨stored, failure⟩
      rw [allOrNothing_upserts_iff hempty hrows]
      cases failure with
      | none =>
        simp only [Failure.rescued, true_and, or_iff_right_iff_imp]
        rintro rfl
        rfl
      | some e => simp [Failure.rescued, verdict_eq_ok_iff, and_comm]
    | tooDeep => simp [File.present, File.load, File.holdingsAcceptable, Failure.verdict, Failure.caught]
    | _ =>
      simp [File.present, File.load, File.holdingsAcceptable, Failure.verdict, Failure.caught,
        AllOrNothing]
  · simp [hempty, AllOrNothing]

/-- The failure of `holdings.json`, if there is one, is caught. -/
def File.holdingsReturn (sql : Sqlite) : File → Bool
  | .tooDeep => false
  | .json rows => (holdingRows sql rows).2.all Failure.caught
  | _ => true

theorem migrateHoldings_returns_iff (sql : Sqlite) (file : File) (db : Db) :
    ((migrateHoldings sql file).run db).1 = .ok () ↔
      (db.portfolio.rows = [] → file.holdingsReturn sql = true) := by
  rw [run_migrateHoldings]
  by_cases hempty : db.portfolio.rows = []
  · simp only [hempty, ne_eq, not_true, false_or, forall_const]
    cases file with
    | json rows =>
      simp only [File.present, File.load, File.holdingsReturn, Bool.true_eq_false, if_false]
      cases (holdingRows sql rows).2 with
      | none => simp [Failure.rescued]
      | some e => simp [Failure.rescued, verdict_eq_ok_iff]
    | _ => simp [File.present, File.load, File.holdingsReturn, Failure.verdict, Failure.caught]
  · simp [hempty]

theorem watchlist_migrateHoldings (sql : Sqlite) (file : File) (db : Db) :
    ((migrateHoldings sql file).run db).2.watchlist = db.watchlist := by
  rw [run_migrateHoldings]
  split
  · rfl
  · split <;> rfl

end Portfolio

/-! ### Both tables -/

/-- The database after the migration. -/
def migrated (disk : Disk) (db : Db) : Db := ((migrateJsonOnce sql disk).run db).2

/-- A script that migrates first ends with the error of the migration, or after one that returns. -/
theorem after_migration {β : Type} {sql : Sqlite} {disk : Disk} {db : Db} {script : Script Db Failure β}
    {P : Except Failure β → Db → Prop} (hraised : ∀ e, P (.error e) (migrated sql disk db))
    (hfirst : ∀ e, ((migrateJsonOnce sql disk).run db).1 = .error e →
      script.run db = (.error e, migrated sql disk db))
    (hok : ((migrateJsonOnce sql disk).run db).1 = .ok () → P (script.run db).1 (script.run db).2) :
    P (script.run db).1 (script.run db).2 := by
  cases hmigrate : ((migrateJsonOnce sql disk).run db).1 with
  | error e =>
    rw [hfirst e hmigrate]
    exact hraised e
  | ok a => exact hok hmigrate

/-- The migration of the holdings comes after that of the watchlist, if it returns. -/
theorem run_migrateJsonOnce (disk : Disk) (db : Db) :
    (∃ db', (migrateWatchlist sql disk.watchlist).run db = (.ok (), db') ∧
        (migrateJsonOnce sql disk).run db = (migrateHoldings sql disk.holdings).run db') ∨
      ∃ e db', (migrateWatchlist sql disk.watchlist).run db = (.error e, db') ∧
        (migrateJsonOnce sql disk).run db = (.error e, db') := by
  rcases hrun : (migrateWatchlist sql disk.watchlist).run db with ⟨result, db'⟩
  cases result with
  | ok a => exact .inl ⟨db', rfl, Script.run_bind_ok hrun _⟩
  | error e => exact .inr ⟨e, db', rfl, Script.run_bind_error hrun _⟩

/-- **The migration is all or nothing exactly if the file of each empty table is acceptable.** -/
theorem wholeMigration_iff (disk : Disk) (db : Db) :
    WholeMigration sql disk db ↔
      (db.watchlist.rows = [] → disk.watchlist.watchAcceptable sql = true) ∧
        (db.portfolio.rows = [] → disk.holdings.holdingsAcceptable sql = true) := by
  rw [← migrateWatchlist_returns_iff]
  have hwatch := allOrNothing_migrateWatchlist sql disk.watchlist db
  have hother := portfolio_migrateWatchlist sql disk.watchlist db
  rcases run_migrateJsonOnce sql disk db with ⟨db', hrun, hboth⟩ | ⟨e, db', hrun, hboth⟩
  · rw [hrun] at hwatch hother
    have hrest := migrateHoldings_whole_iff sql disk.holdings db'
    rw [hother] at hrest
    rw [hrun, ← hrest]
    constructor
    · intro hwhole
      exact ⟨rfl, hboth ▸ hwhole.returns, hboth ▸ hwhole.portfolio⟩
    · rintro ⟨-, hreturns, hportfolio⟩
      refine ⟨hboth ▸ hreturns, ?_, hboth ▸ hportfolio⟩
      rw [hboth, watchlist_migrateHoldings]
      exact hwatch
  · -- the holdings are not reached
    rw [hrun]
    constructor
    · intro hwhole
      have hreturns := hwhole.returns
      rw [hboth] at hreturns
      cases hreturns
    · rintro ⟨hreturns, -⟩
      cases hreturns

theorem migrateJsonOnce_returns_iff (disk : Disk) (db : Db) :
    ((migrateJsonOnce sql disk).run db).1 = .ok () ↔
      (db.watchlist.rows = [] → disk.watchlist.watchAcceptable sql = true) ∧
        (db.portfolio.rows = [] → disk.holdings.holdingsReturn sql = true) := by
  rw [← migrateWatchlist_returns_iff]
  have hother := portfolio_migrateWatchlist sql disk.watchlist db
  rcases run_migrateJsonOnce sql disk db with ⟨db', hrun, hboth⟩ | ⟨e, db', hrun, hboth⟩
  · rw [hrun] at hother ⊢
    rw [hboth, migrateHoldings_returns_iff, hother]
    simp
  · simp [hrun, hboth]

section Migrated

variable {sql} {disk : Disk} {db : Db}

theorem watchlist_migrated (h : db.watchlist.rows ≠ []) :
    (migrated sql disk db).watchlist = db.watchlist := by
  have hsame : ((migrateWatchlist sql disk.watchlist).run db).2.watchlist = db.watchlist := by
    rw [run_migrateWatchlist, if_pos (.inl h)]
  rcases run_migrateJsonOnce sql disk db with ⟨db', hrun, hboth⟩ | ⟨e, db', hrun, hboth⟩
  · rw [hrun] at hsame
    rw [migrated, hboth, watchlist_migrateHoldings, hsame]
  · rw [hrun] at hsame
    rw [migrated, hboth, hsame]

/-- The portfolio after the migration: as it was, or, if it was empty, with rows of its file. -/
theorem portfolio_migrated_cases (sql : Sqlite) (disk : Disk) (db : Db) :
    (migrated sql disk db).portfolio = db.portfolio ∨
      db.portfolio.rows = [] ∧ ∃ rows, disk.holdings = .json rows ∧
        (migrated sql disk db).portfolio = db.portfolio.upserts (holdingRows sql rows).1 := by
  have hsame := portfolio_migrateWatchlist sql disk.watchlist db
  rcases run_migrateJsonOnce sql disk db with ⟨db', hrun, hboth⟩ | ⟨e, db', hrun, hboth⟩
  · rw [hrun] at hsame
    rw [migrated, hboth, run_migrateHoldings, hsame]
    split
    · exact .inl hsame
    · rename_i hopen
      rw [not_or, not_not] at hopen
      cases hfile : disk.holdings with
      | json rows => exact .inr ⟨hopen.1, rows, rfl, rfl⟩
      | _ => exact .inl hsame
  · rw [hrun] at hsame
    rw [migrated, hboth]
    exact .inl hsame

end Migrated

/-! A file with a row and something else. -/

/-- Conversions that the rows below do not need. -/
def plainSql : Sqlite :=
  { realText := fun _ => [], textReal := fun _ => none, intReal := fun n => .finite n (toString n) }

def emptyDb : Db := { watchlist := .empty _, portfolio := .empty _ }

def noFiles : Disk := { watchlist := .missing, holdings := .missing }

/-- `{"code": …, "shares": 10.0, "cost_nav": 1.5}`. -/
def tenShares (code : String) : Json :=
  .obj [(Str.ofString "code", .text code), (Str.ofString "shares", .float (.finite 10 "10.0")),
    (Str.ofString "cost_nav", .float (.finite (3 / 2) "1.5"))]

/-- `holdings.json` holds a row and the number 5. -/
def halfFile : Disk := { watchlist := .missing, holdings := .json (.arr [tenShares "000001", .int 5]) }

/-- The row is stored before the number raises `TypeError`, which is caught. -/
theorem half_migrated : ¬ WholeMigration plainSql halfFile emptyDb := by
  intro hwhole
  rcases hwhole.portfolio with hsame | ⟨-, rows, hrows, -⟩
  · have hcount : ((migrateJsonOnce plainSql halfFile).run emptyDb).2.portfolio.rows.length = 1 := by
      decide +kernel
    rw [hsame] at hcount
    cases hcount
  · have hnone : (halfFile.holdings.rows (holdingRow plainSql)).isNone = true := by
      decide +kernel
    rw [hrows] at hnone
    cases hnone

/-- Yet the migration returns. -/
example : ((migrateJsonOnce plainSql halfFile).run emptyDb).1.isOk = true := by
  decide +kernel

end QuantFlow
