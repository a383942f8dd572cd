/-
**The holdings are a map that remembers the order of insertion.**

`upsert` of `backend/app/portfolio.py` reads the list, changes one dictionary of it and writes that
back; `remove` reads the list and deletes.  The table lists its rows by `rowid`: SQLite gives a new
row a larger one than all others have, and a row that is updated keeps its own.  Without
`holdings.json` the calls therefore do what the operations of an ordered map do.

SQLite keeps text as UTF-8.  A code or a name with a surrogate that stands alone cannot be bound; the
call raises `UnicodeEncodeError` and nothing is changed.

Main definitions:

* `Position` — what is stored under a code;
* `refusal` — why an `upsert` is refused;
* `next`, `expected` — what a call does to the map, and its answer;
* `Represents` — the table holds the map.

Main results:

* `call_follows_map` — one call follows the map;
* `holdings_follow_map` — **every sequence of calls follows the map**.
-/

import QuantFlow.OrderedMap
import QuantFlow.Portfolio

namespace QuantFlow.Portfolio

open Py (Json Str Fields Float64)
open Scripts (Script)

/-! ### The map -/

/-- What is stored under a code. -/
structure Position where
  name : Str
  shares : Float64
  costNav : Float64
  positive : (Cell.real shares).positive = true ∧ (Cell.real costNav).positive = true

/-- Why an `upsert` is refused, if it is. -/
def refusal (code : Str) (shares costNav : Float64) (name : Str) : Option Failure :=
  if code = [] then some (.valueError (Str.ofString "基金代码不能为空"))
  else if nonpositive shares || nonpositive costNav then
    some (.valueError (Str.ofString "份额与成本净值必须大于 0"))
  else if Str.encodable code && Str.encodable name then none
  else some .unicode

/-- The old name is kept exactly when the new one is empty. -/
def nextName (m : OrderedMap Str Position) (code name : Str) : Str :=
  if name = [] then ((m.get code).map Position.name).getD [] else name

/-- What a call does to the map. -/
def next (m : OrderedMap Str Position) : Call → OrderedMap Str Position
  | .listAll => m
  | .upsert code shares costNav name =>
    if h : (Cell.real shares).positive = true ∧ (Cell.real costNav).positive = true then
      if refusal code shares costNav name = none then
        m.upsert code
          { name := nextName m code name, shares := shares, costNav := costNav, positive := h }
      else m
    else m
  | .remove code => m.erase code

/-- A position as a dictionary of Python. -/
def itemOf (code : Str) (p : Position) : HoldingItem :=
  { code := some code, name := p.name, shares := .real p.shares, costNav := .real p.costNav }

def items (m : OrderedMap Str Position) : List HoldingItem := m.toList.map fun e => itemOf e.1 e.2

/-- The answer to a call. -/
def expected (m : OrderedMap Str Position) : Call → Except Failure Answer
  | .listAll => .ok (.holdings (items m))
  | .upsert code shares costNav name =>
    match refusal code shares costNav name with
    | some e => .error e
    | none => .ok (.stored
        { code := some code, name := nextName m code name, shares := .real shares,
          costNav := .real costNav })
  | .remove code => .ok (.removed (m.get code).isSome)

/-- The numbers of the call are finite. -/
def Call.finite : Call → Bool
  | .upsert _ (.finite _ _) (.finite _ _) _ => true
  | .upsert _ _ _ _ => false
  | _ => true

/-! ### The table -/

def rowOf (code : Str) (p : Position) : HoldingRow :=
  { code := some code, name := p.name, shares := .real p.shares, costNav := .real p.costNav,
    positive := p.positive }

def rowsOf (m : OrderedMap Str Position) : List HoldingRow := m.toList.map fun e => rowOf e.1 e.2

/-- The table holds the map, and its texts have a UTF-8 form. -/
structure Represents (db : Db) (m : OrderedMap Str Position) : Prop where
  rows : db.portfolio.rows = rowsOf m
  texts : ∀ code p, m.get code = some p → Str.encodable code = true ∧ Str.encodable p.name = true

section Table

variable {db : Db} {m : OrderedMap Str Position} {code : Str}

theorem Represents.items (h : Represents db m) :
    db.portfolio.rows.map HoldingRow.item = items m := by
  rw [h.rows, rowsOf, Portfolio.items, List.map_map]
  rfl

/-- A code is in the table when it is in the map. -/
theorem Represents.mem_keys (h : Represents db m) : code ∈ db.portfolio.keys ↔ code ∈ m.order := by
  rw [Keyed.Table.mem_keys, h.rows, m.domain code, Option.isSome_iff_exists]
  constructor
  · rintro ⟨r, hr, hcode⟩
    obtain ⟨⟨code', p⟩, hmem, rfl⟩ := List.mem_map.1 hr
    cases hcode
    exact ⟨p, OrderedMap.mem_toList.1 hmem⟩
  · rintro ⟨p, hp⟩
    exact ⟨rowOf code p, List.mem_map.2 ⟨(code, p), OrderedMap.mem_toList.2 hp, rfl⟩, rfl⟩

theorem rows_upsert (h : Represents db m) (code : Str) (p : Position) :
    (db.portfolio.upsert (rowOf code p)).rows = rowsOf (m.upsert code p) := by
  have hfree : db.portfolio.free (rowOf code p).code = true ↔ code ∉ m.order := by
    simp [Keyed.Table.free, rowOf, h.mem_keys]
  by_cases hold : code ∈ m.order
  · rw [Keyed.Table.rows_upsert_taken (by simpa [hfree] using hold), h.rows, rowsOf, rowsOf,
      m.toList_upsert_old code p hold, List.map_map, List.map_map]
    refine List.map_congr_left fun e he => ?_
    by_cases hcode : e.1 = code
    · simp [Keyed.Table.replacing, rowOf, hcode]
    · simp [Keyed.Table.replacing, rowOf, hcode]
  · rw [Keyed.Table.rows_upsert_free (hfree.2 hold), h.rows, rowsOf, rowsOf,
      m.toList_upsert_new code p hold, List.map_append]
    rfl

theorem rows_delete (h : Represents db m) (code : Str) :
    (db.portfolio.delete code).rows = rowsOf (m.erase code) := by
  have hdelete : (db.portfolio.delete code).rows =
      db.portfolio.rows.filter fun r => r.code ≠ some code := rfl
  rw [hdelete, h.rows, rowsOf, rowsOf, m.toList_erase, List.filter_map]
  congr 1
  refine List.filter_congr fun e he => ?_
  simp [rowOf]

theorem find_items (m : OrderedMap Str Position) (code : Str) :
    ((items m).find? fun h => h.code = some code) = (m.get code).map (itemOf code) := by
  rw [items, List.find?_map]
  -- the codes of the map differ, so the first match is the entry of the code
  cases hfind : m.toList.find? ((fun h => decide (h.code = some code)) ∘ fun e =>
      itemOf e.1 e.2) with
  | none =>
    cases hget : m.get code with
    | none => rfl
    | some p =>
      rw [List.find?_eq_none] at hfind
      have hother := hfind (code, p) (OrderedMap.mem_toList.2 hget)
      simp [itemOf] at hother
  | some e =>
    obtain ⟨code', p⟩ := e
    have hcode : code' = code := by simpa [itemOf] using List.find?_some hfind
    subst hcode
    have hget := OrderedMap.mem_toList.1 (List.mem_of_find?_eq_some hfind)
    simp only at hget
    rw [hget]
    rfl

end Table

/-! ### The migration -/

/-- There is no `holdings.json`, and the watchlist is there or its file can be migrated or left
alone. -/
structure Quiet (sql : Sqlite) (disk : Disk) (db : Db) : Prop where
  holdings : disk.holdings = .missing
  watchlist : db.watchlist.rows = [] → disk.watchlist.watchAcceptable sql = true

section Migration

variable {sql : Sqlite} {disk : Disk} {db : Db}

theorem Quiet.returns (h : Quiet sql disk db) : ((migrateJsonOnce sql disk).run db).1 = .ok () := by
  rw [migrateJsonOnce_returns_iff, h.holdings]
  exact ⟨h.watchlist, fun _ => rfl⟩

theorem Quiet.portfolio (h : Quiet sql disk db) :
    (QuantFlow.migrated sql disk db).portfolio = db.portfolio := by
  refine portfolio_migrated (.inr ?_)
  rw [h.holdings]
  rfl

theorem Quiet.migrated (h : Quiet sql disk db) : Quiet sql disk (QuantFlow.migrated sql disk db) := by
  refine ⟨h.holdings, fun hempty => h.watchlist ?_⟩
  by_contra hfilled
  rw [watchlist_migrated hfilled] at hempty
  exact hfilled hempty

/-- The list is that of the map, and the table still holds it. -/
theorem Quiet.run_listAll (h : Quiet sql disk db) {m : OrderedMap Str Position}
    (hm : Represents db m) :
    (listAll sql disk).run db = (.ok (items m), QuantFlow.migrated sql disk db) := by
  rw [run_listAll_ok h.returns, h.portfolio, hm.items]

theorem Represents.migrated {m : OrderedMap Str Position} (hm : Represents db m)
    (h : Quiet sql disk db) : Represents (QuantFlow.migrated sql disk db) m :=
  ⟨h.portfolio ▸ hm.rows, hm.texts⟩

end Migration

/-! ### Calls -/

section Calls

variable {sql : Sqlite} {disk : Disk} {db : Db} {m : OrderedMap Str Position}

theorem changed_items (m : OrderedMap Str Position) (code : Str) (shares costNav : Float64)
    (name : Str) :
    changed (items m) code shares costNav name =
      { code := some code, name := nextName m code name, shares := .real shares,
        costNav := .real costNav } := by
  unfold changed
  rw [find_items]
  cases hget : m.get code with
  | none =>
    by_cases hname : name = []
    · simp [nextName, hget, hname]
    · simp [nextName, hname]
  | some p =>
    by_cases hname : name = []
    · simp [nextName, hget, hname, itemOf]
    · simp [nextName, hname, itemOf]

/-- Finite numbers are positive unless they are refused. -/
theorem positive_iff (value : ℚ) (repr : String) :
    (Cell.real (.finite value repr)).positive = true ↔ nonpositive (.finite value repr) = false := by
  rw [Cell.positive, nonpositive, decide_eq_true_eq, decide_eq_false_iff_not, Rat.not_le]

/-- What SQLite makes of a dictionary with finite numbers. -/
theorem row_itemOf (sql : Sqlite) (code : Str) {p : Position} {v w : ℚ} {x y : String}
    (hshares : p.shares = .finite v x) (hcost : p.costNav = .finite w y) :
    (itemOf code p).tuple.row sql =
      if Str.encodable code && Str.encodable p.name then .ok (rowOf code p)
      else .error .unicode := by
  obtain ⟨name, shares, costNav, hpositive⟩ := p
  simp only at hshares hcost
  subst hshares hcost
  simp only [HoldingTuple.row, HoldingItem.tuple, itemOf, optionalText, SqlValue.ofJson,
    Cell.toJson]
  cases Str.encodable code with
  | false => rfl
  | true =>
    cases Str.encodable name with
    | false => rfl
    | true => exact dif_pos hpositive

/-- What SQLite makes of a dictionary whose new name is empty or has a UTF-8 form: the old name has
one. -/
theorem encodable_nextName (hm : Represents db m) (code name : Str) :
    Str.encodable (nextName m code name) = Str.encodable name := by
  unfold nextName
  split
  · rename_i hname
    subst hname
    cases hget : m.get code with
    | none => rfl
    | some p => exact (hm.texts code p hget).2
  · rfl

/-- One more position, or a new value of an old one. -/
theorem Represents.upsert (hm : Represents db m) {code : Str} {p : Position}
    (hcode : Str.encodable code = true) (hname : Str.encodable p.name = true) :
    Represents { db with portfolio := db.portfolio.upsert (rowOf code p) } (m.upsert code p) := by
  refine ⟨rows_upsert hm code p, ?_⟩
  intro code' p' hget
  by_cases heq : code' = code
  · subst heq
    have hp : p' = p := by simpa [OrderedMap.upsert, eq_comm] using hget
    rw [hp]
    exact ⟨hcode, hname⟩
  · refine hm.texts code' p' ?_
    simpa [OrderedMap.upsert, heq] using hget

theorem Represents.erase (hm : Represents db m) (code : Str) :
    Represents { db with portfolio := db.portfolio.delete code } (m.erase code) := by
  refine ⟨rows_delete hm code, ?_⟩
  intro code' p' hget
  by_cases heq : code' = code
  · subst heq
    simp [OrderedMap.erase] at hget
  · refine hm.texts code' p' ?_
    simpa [OrderedMap.erase, heq] using hget

/-- A call follows the map: its answer is the expected one, and the table holds the next map. -/
def Follows (sql : Sqlite) (disk : Disk) (db : Db) (m : OrderedMap Str Position) (c : Call) : Prop :=
  ∃ db', (c.script sql disk).run db = (expected m c, db') ∧ Represents db' (next m c) ∧
    Quiet sql disk db'

theorem follows_listAll (h : Quiet sql disk db) (hm : Represents db m) :
    Follows sql disk db m .listAll :=
  ⟨_, Script.run_bind_ok (h.run_listAll hm) _, hm.migrated h, h.migrated⟩

theorem follows_refused (h : Quiet sql disk db) (hm : Represents db m) {code : Str}
    {shares costNav : Float64} {name : Str} {e : Failure}
    (hrefusal : refusal code shares costNav name = some e)
    (hupsert : upsert sql disk code shares costNav name = .raise e) :
    Follows sql disk db m (.upsert code shares costNav name) := by
  have hnext : next m (.upsert code shares costNav name) = m := by simp [next, hrefusal]
  refine ⟨db, ?_, hnext.symm ▸ hm, h⟩
  simp only [Call.script, hupsert, expected, hrefusal]
  rfl

theorem follows_upsert (h : Quiet sql disk db) (hm : Represents db m) (code : Str) (v w : ℚ)
    (x y : String) (name : Str) :
    Follows sql disk db m (.upsert code (.finite v x) (.finite w y) name) := by
  by_cases hempty : code = []
  · exact follows_refused h hm (if_pos hempty) (if_pos hempty)
  by_cases hnumbers : (nonpositive (.finite v x) || nonpositive (.finite w y)) = true
  · exact follows_refused h hm ((if_neg hempty).trans (if_pos hnumbers))
      ((if_neg hempty).trans (if_pos hnumbers))
  have hpositive : (Cell.real (.finite v x)).positive = true ∧
      (Cell.real (.finite w y)).positive = true := by
    rw [positive_iff, positive_iff]
    simpa using hnumbers
  -- the dictionary that is written is that of the next position
  let p : Position :=
    { name := nextName m code name, shares := .finite v x, costNav := .finite w y,
      positive := hpositive }
  have hscript : (upsert sql disk code (.finite v x) (.finite w y) name).run db =
      (saved sql (itemOf code p)).run (migrated sql disk db) := by
    rw [upsert, if_neg hempty, if_neg hnumbers, Script.run_bind_ok (h.run_listAll hm), changed_items]
    rfl
  have hrow : (itemOf code p).tuple.row sql =
      if Str.encodable code && Str.encodable p.name then .ok (rowOf code p) else .error .unicode :=
    row_itemOf sql code rfl rfl
  have hrefusal : refusal code (.finite v x) (.finite w y) name =
      if Str.encodable code && Str.encodable p.name then none else some .unicode := by
    rw [refusal, if_neg hempty, if_neg hnumbers, encodable_nextName hm]
  cases htexts : Str.encodable code && Str.encodable p.name with
  | false =>
    rw [htexts, if_neg Bool.false_ne_true] at hrow hrefusal
    have hnext : next m (.upsert code (.finite v x) (.finite w y) name) = m := by
      simp [next, hrefusal]
    refine ⟨migrated sql disk db, ?_, hnext.symm ▸ hm.migrated h, h.migrated⟩
    simp only [Call.script, expected, hrefusal]
    exact Script.run_bind_error (hscript.trans (run_saved_error hrow _)) _
  | true =>
    rw [htexts, if_pos rfl] at hrow hrefusal
    rw [Bool.and_eq_true] at htexts
    have hnext : next m (.upsert code (.finite v x) (.finite w y) name) = m.upsert code p := by
      rw [next, dif_pos hpositive, if_pos hrefusal]
    refine ⟨{ migrated sql disk db with
        portfolio := (migrated sql disk db).portfolio.upsert (rowOf code p) }, ?_,
      hnext.symm ▸ (hm.migrated h).upsert htexts.1 htexts.2, ⟨h.holdings, h.migrated.watchlist⟩⟩
    simp only [Call.script, expected, hrefusal]
    exact Script.run_bind_ok (hscript.trans (run_saved_ok hrow _)) _

/-- The list without the code is as long as the list exactly if the code is not in the map. -/
theorem length_left_iff (m : OrderedMap Str Position) (code : Str) :
    ((items m).filter fun i => i.code ≠ some code).length = (items m).length ↔ code ∉ m.order := by
  rw [List.length_filter_eq_length_iff, m.domain code, Option.isSome_iff_exists]
  constructor
  · rintro hothers ⟨p, hp⟩
    have hother := hothers (itemOf code p)
      (List.mem_map.2 ⟨(code, p), OrderedMap.mem_toList.2 hp, rfl⟩)
    simp [itemOf] at hother
  · intro habsent i hi
    obtain ⟨⟨code', p⟩, hmem, rfl⟩ := List.mem_map.1 hi
    simp only [itemOf, ne_eq, Option.some.injEq, decide_not, Bool.not_eq_true',
      decide_eq_false_iff_not]
    rintro rfl
    exact habsent ⟨p, OrderedMap.mem_toList.1 hmem⟩

theorem follows_remove (h : Quiet sql disk db) (hm : Represents db m) (code : Str) :
    Follows sql disk db m (.remove code) := by
  have hscript : (remove sql disk code).run db =
      (if ((items m).filter fun i => i.code ≠ some code).length = (items m).length then pure false
        else deleteHolding code : Script Db Failure Bool).run (migrated sql disk db) := by
    rw [remove, Script.run_bind_ok (h.run_listAll hm)]
  have hcurrent := hm.migrated h
  by_cases hmem : code ∈ m.order
  · -- a code of the map can be bound
    rw [if_neg fun hleft => (length_left_iff m code).1 hleft hmem] at hscript
    have hsome := (m.domain code).1 hmem
    obtain ⟨p, hp⟩ := Option.isSome_iff_exists.1 hsome
    have hbind : SqlValue.ofJson (.str code) = .ok (.text code) := if_pos (hm.texts code p hp).1
    have hdelete : (deleteHolding code).run (migrated sql disk db) = (.ok true,
        { migrated sql disk db with portfolio := (migrated sql disk db).portfolio.delete code }) := by
      refine Script.run_transaction_ok ?_
      rw [hbind, ← decide_eq_true (hcurrent.mem_keys.2 hmem)]
      rfl
    refine ⟨_, ?_, hcurrent.erase code, ⟨h.holdings, h.migrated.watchlist⟩⟩
    rw [expected, hsome]
    exact Script.run_bind_ok (hscript.trans hdelete) _
  · rw [if_pos ((length_left_iff m code).2 hmem)] at hscript
    have hnone : (m.get code).isSome = false := by
      rw [m.domain code] at hmem
      simpa using hmem
    have hnext : next m (.remove code) = m := OrderedMap.erase_of_not_mem hmem
    refine ⟨migrated sql disk db, ?_, hnext.symm ▸ hcurrent, h.migrated⟩
    rw [expected, hnone]
    exact Script.run_bind_ok hscript _

/-- **One call follows the map.** -/
theorem call_follows_map (h : Quiet sql disk db) (hm : Represents db m) (c : Call)
    (hfinite : c.finite = true) : Follows sql disk db m c := by
  cases c with
  | listAll => exact follows_listAll h hm
  | remove code => exact follows_remove h hm code
  | upsert code shares costNav name =>
    cases shares with
    | finite v x =>
      cases costNav with
      | finite w y => exact follows_upsert h hm code v w x y name
      | _ => cases hfinite
    | _ => cases hfinite

end Calls

/-! ### Sequences of calls -/

/-- The database after a sequence of calls. -/
def exec (sql : Sqlite) (disk : Disk) (db : Db) (calls : List Call) : Db :=
  calls.foldl (fun db c => ((c.script sql disk).run db).2) db

section Sequences

variable {sql : Sqlite} {disk : Disk}

theorem represents_exec {db : Db} {m : OrderedMap Str Position} (h : Quiet sql disk db)
    (hm : Represents db m) (calls : List Call) (hfinite : ∀ c ∈ calls, c.finite = true) :
    Represents (exec sql disk db calls) (calls.foldl next m) ∧
      Quiet sql disk (exec sql disk db calls) := by
  induction calls generalizing db m with
  | nil => exact ⟨hm, h⟩
  | cons c calls ih =>
    obtain ⟨db', hrun, hm', h'⟩ := call_follows_map h hm c (hfinite c List.mem_cons_self)
    have hrest := ih h' hm' fun c' hc' => hfinite c' (List.mem_cons_of_mem c hc')
    have hafter : ((c.script sql disk).run db).2 = db' := by rw [hrun]
    simp only [exec, List.foldl_cons, hafter] at hrest ⊢
    exact hrest

/-- **Every sequence of calls follows the map**: the table holds the map that the calls make, every
further call answers as the map says, and all stored numbers are positive. -/
theorem holdings_follow_map {db : Db} {m : OrderedMap Str Position} (h : Quiet sql disk db)
    (hm : Represents db m) (calls : List Call) (hfinite : ∀ c ∈ calls, c.finite = true) :
    Represents (exec sql disk db calls) (calls.foldl next m) ∧
      (∀ c : Call, c.finite = true →
        answer sql disk c (exec sql disk db calls) = expected (calls.foldl next m) c) ∧
      ∀ r ∈ (exec sql disk db calls).portfolio.rows,
        r.shares.positive = true ∧ r.costNav.positive = true := by
  obtain ⟨hm', h'⟩ := represents_exec h hm calls hfinite
  refine ⟨hm', ?_, fun r _ => r.positive⟩
  intro c hc
  obtain ⟨db'', hrun, -, -⟩ := call_follows_map h' hm' c hc
  rw [answer, hrun]

end Sequences

/-! Some calls. -/

def oneUnit : Float64 := .finite 1 "1.0"

/-- Two holdings are stored, the first one is changed and the second one removed. -/
def storeChangeRemove : List Call :=
  [.upsert [.char 'a'] oneUnit oneUnit [.char 'n'], .upsert [.char 'b'] oneUnit oneUnit [],
    .upsert [.char 'a'] (.finite 2 "2.0") oneUnit [], .remove [.char 'b']]

theorem holdings_follow_map_storeChangeRemove :
    (∀ c ∈ storeChangeRemove, c.finite = true) ∧
      Represents (exec plainSql noFiles emptyDb storeChangeRemove)
        (storeChangeRemove.foldl next .empty) ∧
      (∀ c : Call, c.finite = true →
        answer plainSql noFiles c (exec plainSql noFiles emptyDb storeChangeRemove) =
          expected (storeChangeRemove.foldl next .empty) c) ∧
      ∀ r ∈ (exec plainSql noFiles emptyDb storeChangeRemove).portfolio.rows,
        r.shares.positive = true ∧ r.costNav.positive = true := by
  have hquiet : Quiet plainSql noFiles emptyDb := ⟨rfl, fun _ => rfl⟩
  have hempty : Represents emptyDb .empty := by
    refine ⟨rfl, ?_⟩
    intro code p hget
    cases hget
  have hfinite : ∀ c ∈ storeChangeRemove, c.finite = true := by
    decide
  exact ⟨hfinite, holdings_follow_map hquiet hempty storeChangeRemove hfinite⟩

/-- A code of one surrogate that stands alone. -/
def loneCode : Str := [.lone 0]

/-- The position that is asked for under that code. -/
def loneUnit : Position := { name := [], shares := oneUnit, costNav := oneUnit, positive := by decide }

/-- `watchlist.json` holds `[{}]`. -/
def badWatchlist : Disk := { watchlist := .json (.arr [.obj []]), holdings := .missing }

/-- The code is not empty and the numbers are positive, and still the list stays empty; and with a
`watchlist.json` that cannot be migrated there is no list at all. -/
theorem surrogate_not_stored :
    answer plainSql noFiles .listAll
        (exec plainSql noFiles emptyDb [.upsert loneCode oneUnit oneUnit []]) ≠
      .ok (.holdings (items (OrderedMap.empty.upsert loneCode loneUnit))) ∧
    answer plainSql badWatchlist .listAll emptyDb ≠ .ok (.holdings (items .empty)) := by
  constructor
  · decide +kernel
  · decide +kernel

end QuantFlow.Portfolio
