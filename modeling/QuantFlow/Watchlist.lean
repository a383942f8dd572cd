/-
**The watchlist, and the funds that come back to it.**

The functions of `backend/app/watchlist.py` read the whole list first, and then some of them write
one row.  The reading is not innocent: it migrates the JSON files, and when the table is empty after
that, it fills it with the default funds.  So a fund that is removed stays removed as long as the
list holds another one.  After the last removal even a read brings a list of funds back, and the one
that was removed may be among them.

Main definitions:

* `defaultFunds` — the funds of `config.py`;
* `listAll`, `get`, `add`, `remove`, `toggleFocus`, `update`, `reset` — the functions, as scripts;
* `Call`, `step` — a call, and the machine of calls;
* `StaysRemoved` — in a past, no fund is found that was removed and not added again;
* `keepsAnother` — a removal leaves another fund.

Main results:

* `run_listAll_ok` — what a read returns and leaves;
* `ran_call` — what a call can do;
* `removed_not_found` — **in every run whose removals leave another fund, a fund
  that was removed is not found until it is added again or the list is reset**.
-/

import QuantFlow.GuardedRuns
import QuantFlow.Migration
import QuantFlow.Schemas

namespace QuantFlow.Watchlist

open Py (Cp Json Str Fields Float64)
open Runs (Transition)
open Scripts (Script)

/-! ### The default funds -/

/-- A fund of `DEFAULT_FUNDS`; `focus` is missing in those that are not in focus. -/
def fund (code name category note : String) (focus : Bool) : WatchItem :=
  { code := some (Str.ofString code), name := Str.ofString name, category := Str.ofString category,
    note := Str.ofString note, focus := focus }

/-- `DEFAULT_FUNDS`. -/
def defaultFunds : List WatchItem :=
  [fund "005844" "东方人工智能主题混合A" "人工智能" "AI主题核心标的（重点关注）" true,
    fund "006265" "红土创新新科技股票" "新科技/CPO" "重仓中际旭创/新易盛/天孚通信（重点关注）" true,
    fund "008086" "华夏中证5G通信主题ETF联接A" "CPO/通信" "光模块/通信设备核心标的" false,
    fund "320007" "诺安成长混合" "半导体" "重仓半导体，高弹性" false,
    fund "519674" "银河创新成长混合A" "半导体" "科技成长风格" false,
    fund "001513" "易方达信息产业混合" "TMT" "覆盖算力/AI产业链" false,
    fund "001856" "前海开源国家比较优势混合A" "科技成长" "成长均衡" false,
    fund "011609" "国泰中证动漫游戏ETF联接A" "AI应用" "AI应用端" false]

/-! ### Texts -/

/-- `str.isspace` of a character. -/
def isSpace : Cp → Bool
  | .char c =>
    (9 ≤ c.toNat && c.toNat ≤ 13) || (28 ≤ c.toNat && c.toNat ≤ 32) ||
      (8192 ≤ c.toNat && c.toNat ≤ 8202) ||
      c.toNat ∈ [133, 160, 5760, 8232, 8233, 8239, 8287, 12288]
  | .lone _ => false

/-- `s.strip()`. -/
def strip (s : Str) : Str := ((s.dropWhile isSpace).reverse.dropWhile isSpace).reverse

/-- `x or d`. -/
def orText (x : Option Str) (d : Str) : Str :=
  match x with
  | none => d
  | some s => if s = [] then d else s

/-- `kw in name`. -/
def occursIn (kw : String) (name : Str) : Bool :=
  name.tails.any fun rest => (Str.ofString kw).isPrefixOf rest

/-- The rules of `guess_category`. -/
def categoryRules : List (List String × String) :=
  [(["人工智能", "AI", "智能"], "人工智能"), (["光", "通信", "5G", "CPO"], "CPO/通信"),
    (["半导体", "芯片", "集成电路"], "半导体"), (["科技", "新科技"], "新科技"),
    (["信息", "TMT", "软件", "计算机", "云"], "TMT/算力"), (["新能源", "光伏", "电池"], "新能源"),
    (["医药", "医疗", "生物"], "医药"), (["消费", "白酒", "食品"], "消费"), (["军工", "国防"], "军工"),
    (["游戏", "动漫", "传媒"], "AI应用/传媒"), (["债", "货币"], "固收")]

/-- `guess_category(name, ftype)`. -/
def guessCategory (name ftype : Str) : Str :=
  match categoryRules.find? fun rule => rule.1.any fun kw => occursIn kw name with
  | some rule => Str.ofString rule.2
  | none => orText (some ftype) (Str.ofString "其他")

/-! ### The functions -/

variable (sql : Sqlite) (disk : Disk)

/-- The default funds are written and returned. -/
def restore : Script Db Failure (List WatchItem) := do
  replaceWatchlist sql (.ok (defaultFunds.map WatchItem.tuple))
  pure defaultFunds

/-- `list_all()`. -/
def listAll : Script Db Failure (List WatchItem) := do
  migrateJsonOnce sql disk
  let data ← listWatchlist
  if data = [] then restore sql else pure data

/-- The first fund with the code. -/
def findCode (data : List WatchItem) (code : Str) : Option WatchItem :=
  data.find? fun f => f.code = some code

/-- `get(code)`. -/
def get (code : Str) : Script Db Failure (Option WatchItem) := do
  let data ← listAll sql disk
  pure (findCode data code)

/-- What `fund_universe.get_info` knows of a fund. -/
structure FundInfo where
  name : Str
  type : Str

/-- The arguments of `add`, and what `get_info` answers if it is asked. -/
structure AddRequest where
  code : Option Str
  category : Option Str
  note : Option Str
  focus : Bool
  name : Option Str
  info : Except Failure (Option FundInfo)

/-- `(code or "").strip()`. -/
def AddRequest.cleanCode (r : AddRequest) : Str := strip (r.code.getD [])

/-- The new fund; one that is neither known nor named is refused. -/
def AddRequest.item (r : AddRequest) (info : Option FundInfo) : Except Failure WatchItem :=
  if info.isNone && orText r.name [] = [] then
    .error (.valueError (Str.ofString "未找到基金代码 " ++ r.cleanCode ++ Str.ofString "，请确认后重试"))
  else
    let fname := orText r.name ((info.map FundInfo.name).getD [])
    let ftype := (info.map FundInfo.type).getD []
    .ok { code := some r.cleanCode, name := fname,
          category := orText r.category (guessCategory fname ftype),
          note := orText r.note
            (if ftype = [] then Str.ofString "用户添加" else ftype ++ Str.ofString " · 用户添加"),
          focus := r.focus }

/-- The fund is written and returned. -/
def saved (f : WatchItem) : Script Db Failure WatchItem := do
  upsertWatch sql f
  pure f

/-- `add(code, category, note, focus, name)`. -/
def add (r : AddRequest) : Script Db Failure WatchItem :=
  if r.cleanCode = [] then .raise (.valueError (Str.ofString "基金代码不能为空"))
  else do
    let data ← listAll sql disk
    match findCode data r.cleanCode with
    | some existing => pure existing
    | none => do
      let f ← .lift (r.info >>= r.item)
      saved sql f

/-- `remove(code)`. -/
def remove (code : Str) : Script Db Failure Bool := do
  let data ← listAll sql disk
  let left := data.filter fun f => f.code ≠ some code
  if left.length = data.length then pure false else deleteWatch code

/-- The row with the code is changed and written; nothing happens if there is none. -/
def change (code : Str) (edit : WatchItem → WatchItem) : Script Db Failure (Option WatchItem) := do
  let data ← listAll sql disk
  match findCode data code with
  | some f => do
    let f ← saved sql (edit f)
    pure (some f)
  | none => pure none

/-- `toggle_focus(code)`. -/
def toggleFocus (code : Str) : Script Db Failure (Option Bool) := do
  let f ← change sql disk code fun f => { f with focus := !f.focus }
  pure (f.map WatchItem.focus)

/-- `update(code, category, note)`. -/
def update (code : Str) (category note : Option Str) : Script Db Failure (Option WatchItem) :=
  change sql disk code fun f =>
    { f with category := category.getD f.category, note := note.getD f.note }

/-- `reset()`. -/
def reset : Script Db Failure (List WatchItem) := restore sql

/-! ### What a read leaves -/

/-- The fund as a row. -/
def asRow (f : WatchItem) : WatchRow :=
  { code := f.code, name := f.name, category := f.category, note := f.note,
    focus := if f.focus then 1 else 0 }

/-- All texts of the fund have a UTF-8 form. -/
def encodable (f : WatchItem) : Bool :=
  f.code.all Str.encodable && Str.encodable f.name && Str.encodable f.category &&
    Str.encodable f.note

@[simp] theorem item_asRow (f : WatchItem) : (asRow f).item = f := by
  obtain ⟨code, name, category, note, focus⟩ := f
  cases focus <;> simp [asRow, WatchRow.item]

theorem ofJson_str (s : Str) :
    SqlValue.ofJson (.str s) = if Str.encodable s then .ok (.text s) else .error .unicode := rfl

theorem ite_bind {α β : Type} {c : Prop} [Decidable c] (a : α) (e : Failure)
    (f : α → Except Failure β) :
    ((if c then Except.ok a else .error e) >>= f) = if c then f a else .error e := by
  split <;> rfl

/-- A fund is stored as it is, unless it has no UTF-8 form. -/
theorem row_tuple (f : WatchItem) :
    f.tuple.row sql = if encodable f then .ok (asRow f) else .error .unicode := by
  obtain ⟨code, name, category, note, focus⟩ := f
  simp only [WatchTuple.row, WatchItem.tuple, encodable, ofJson_optionalText, ofJson_str]
  simp only [ite_bind]
  by_cases hcode : code.all Str.encodable = true
  · by_cases hname : Str.encodable name = true
    · by_cases hcategory : Str.encodable category = true
      · by_cases hnote : Str.encodable note = true
        · simp only [hcode, hname, hcategory, hnote, if_true, Bool.and_self]
          cases code with
          | none => rfl
          | some code => rfl
        · simp [hnote]
      · simp [hcategory]
    · simp [hname]
  · simp [hcode]

theorem firstFailure_tuples {fs : List WatchItem} (h : ∀ f ∈ fs, encodable f = true) :
    Script.firstFailure (WatchTuple.row sql) (fs.map WatchItem.tuple) = (fs.map asRow, none) := by
  induction fs with
  | nil => rfl
  | cons f fs ih =>
    have hf : f.tuple.row sql = .ok (asRow f) := by
      rw [row_tuple, if_pos (h f List.mem_cons_self)]
    simp only [List.map_cons, Script.firstFailure, hf,
      ih fun g hg => h g (List.mem_cons_of_mem _ hg)]

/-- The table of the default funds. -/
def defaultTable : Keyed.Table WatchRow.code where
  rows := defaultFunds.map asRow
  distinct := by decide +kernel

theorem insertAll_default : insertAll sql (defaultFunds.map WatchItem.tuple) = .ok defaultTable := by
  have hencodable : ∀ f ∈ defaultFunds, encodable f = true := by
    simp [defaultFunds, fund, encodable]
  rw [insertAll_eq, firstFailure_tuples sql hencodable]
  exact dif_pos defaultTable.distinct

theorem run_restore (db : Db) :
    (restore sql).run db = (.ok defaultFunds, { db with watchlist := defaultTable }) :=
  Script.run_bind_ok (run_replaceWatchlist_ok sql db (insertAll_default sql)) _

/-- The database after a read: the default funds are filled in where there is none. -/
def current (db : Db) : Db :=
  if (migrated sql disk db).watchlist.rows = [] then
    { migrated sql disk db with watchlist := defaultTable }
  else migrated sql disk db

section Reads

variable {sql disk} {db : Db}

theorem portfolio_current : (current sql disk db).portfolio = (migrated sql disk db).portfolio := by
  unfold current
  split <;> rfl

theorem current_of_ne_nil (h : db.watchlist.rows ≠ []) :
    current sql disk db = migrated sql disk db :=
  if_neg (by rwa [watchlist_migrated h])

/-- **What a read returns and leaves.** -/
theorem run_listAll_ok (h : ((migrateJsonOnce sql disk).run db).1 = .ok ()) :
    (listAll sql disk).run db =
      (.ok ((current sql disk db).watchlist.rows.map WatchRow.item), current sql disk db) := by
  have hmigrate : (migrateJsonOnce sql disk).run db = (.ok (), migrated sql disk db) :=
    Prod.ext h rfl
  have hrows : listWatchlist.run (migrated sql disk db) =
      (.ok ((migrated sql disk db).watchlist.rows.map WatchRow.item), migrated sql disk db) := rfl
  rw [listAll, Script.run_bind_ok hmigrate, Script.run_bind_ok hrows]
  simp only [List.map_eq_nil_iff, current]
  by_cases hempty : (migrated sql disk db).watchlist.rows = []
  · simp only [hempty, if_true, run_restore]
    refine Prod.ext (congrArg Except.ok ?_) rfl
    simp [defaultTable, Function.comp_def]
  · simp only [hempty, if_false]
    rfl

theorem run_listAll_error {e : Failure} (h : ((migrateJsonOnce sql disk).run db).1 = .error e) :
    (listAll sql disk).run db = (.error e, migrated sql disk db) :=
  Script.run_bind_error (Prod.ext h rfl) _

end Reads

/-! ### Calls -/

inductive Call
  | listAll
  | get (code : Str)
  | add (r : AddRequest)
  | remove (code : Str)
  | toggleFocus (code : Str)
  | update (code : Str) (category note : Option Str)
  | reset

inductive Answer
  | funds (data : List WatchItem)
  | fund (f : Option WatchItem)
  | added (f : WatchItem)
  | removed (done : Bool)
  | focused (state : Option Bool)
  | updated (f : Option WatchItem)
  | restored (data : List WatchItem)
  deriving DecidableEq

def Call.script : Call → Script Db Failure Answer
  | .listAll => do
    let data ← Watchlist.listAll sql disk
    pure (.funds data)
  | .get code => do
    let f ← Watchlist.get sql disk code
    pure (.fund f)
  | .add r => do
    let f ← Watchlist.add sql disk r
    pure (.added f)
  | .remove code => do
    let done ← Watchlist.remove sql disk code
    pure (.removed done)
  | .toggleFocus code => do
    let state ← Watchlist.toggleFocus sql disk code
    pure (.focused state)
  | .update code category note => do
    let f ← Watchlist.update sql disk code category note
    pure (.updated f)
  | .reset => do
    let data ← Watchlist.reset sql
    pure (.restored data)

/-- The answer to a call. -/
def answer (c : Call) (db : Db) : Except Failure Answer := ((c.script sql disk).run db).1

/-- The machine of calls, one after the other. -/
def step (c : Call) (db : Db) : Option Db := some ((c.script sql disk).run db).2

/-! ### What a call can do -/

/-- The ways a call ends.  A row that is written has the code of a fund in the list, or the one that
is added. -/
inductive Ran (db : Db) : Call → Except Failure Answer → Db → Prop
  | refused (r : AddRequest) (e : Failure) : Ran db (.add r) (.error e) db
  | raised (c : Call) (e : Failure) : Ran db c (.error e) (migrated sql disk db)
  | failed (c : Call) (e : Failure) : Ran db c (.error e) (current sql disk db)
  | answered (c : Call) (a : Answer) (ha : a ≠ .removed true) : Ran db c (.ok a) (current sql disk db)
  | wrote (c : Call) (a : Answer) (row : WatchRow) (code : Str) (hcode : row.code = some code)
      (hsource : (∃ r ∈ (current sql disk db).watchlist.rows, r.code = some code) ∨
        ∃ r, c = .add r ∧ r.cleanCode = code) (ha : a ≠ .removed true) :
      Ran db c (.ok a) { current sql disk db with
        watchlist := (current sql disk db).watchlist.upsert row }
  | removed (code : Str) (hreturns : ((migrateJsonOnce sql disk).run db).1 = .ok ()) :
      Ran db (.remove code) (.ok (.removed true)) { current sql disk db with
        watchlist := (current sql disk db).watchlist.delete code }
  | restored (a : Answer) (ha : a ≠ .removed true) :
      Ran db .reset (.ok a) { db with watchlist := defaultTable }

section Calls

variable {sql disk} {db : Db}

/-- A fund is written as it is, unless it has no UTF-8 form. -/
theorem run_saved (sql : Sqlite) (f : WatchItem) (db : Db) :
    (saved sql f).run db =
        (.ok f, { db with watchlist := db.watchlist.upsert (asRow f) }) ∨
      ∃ e, (saved sql f).run db = (.error e, db) := by
  have hrow := row_tuple sql f
  split at hrow
  · left
    refine Script.run_bind_ok (Script.run_transaction_ok (a := ()) ?_) _
    rw [hrow]
    rfl
  · right
    refine ⟨.unicode, Script.run_bind_error (Script.run_transaction_error ?_) _⟩
    rw [hrow]
    rfl

theorem findCode_eq_some {rows : List WatchRow} {code : Str} {f : WatchItem}
    (h : findCode (rows.map WatchRow.item) code = some f) :
    f.code = some code ∧ ∃ r ∈ rows, r.code = some code := by
  have hcode : f.code = some code := by simpa using List.find?_some h
  obtain ⟨r, hr, rfl⟩ := List.mem_map.1 (List.mem_of_find?_eq_some h)
  exact ⟨hcode, r, hr, hcode⟩

theorem findCode_eq_none_iff {rows : List WatchRow} {code : Str} :
    findCode (rows.map WatchRow.item) code = none ↔ ∀ r ∈ rows, r.code ≠ some code := by
  simp [findCode, WatchRow.item]

/-- A change of the row with a code: the migration raises, there is no such row, or the row is written
or refused. -/
inductive Changed (sql : Sqlite) (disk : Disk) (db : Db) (code : Str) :
    Except Failure (Option WatchItem) × Db → Prop
  | raised (e : Failure) : Changed sql disk db code (.error e, migrated sql disk db)
  | failed (e : Failure) : Changed sql disk db code (.error e, current sql disk db)
  | unchanged : Changed sql disk db code (.ok none, current sql disk db)
  | wrote (f : WatchItem) (hcode : f.code = some code)
      (hsource : ∃ r ∈ (current sql disk db).watchlist.rows, r.code = some code) :
      Changed sql disk db code (.ok (some f), { current sql disk db with
        watchlist := (current sql disk db).watchlist.upsert (asRow f) })

theorem changed_change {code : Str} {edit : WatchItem → WatchItem}
    (hedit : ∀ f, (edit f).code = f.code) :
    Changed sql disk db code ((change sql disk code edit).run db) := by
  unfold change
  cases hmigrate : ((migrateJsonOnce sql disk).run db).1 with
  | error e =>
    rw [Script.run_bind_error (run_listAll_error hmigrate)]
    exact .raised e
  | ok a =>
    rw [Script.run_bind_ok (run_listAll_ok hmigrate)]
    cases hfind : findCode ((current sql disk db).watchlist.rows.map WatchRow.item) code with
    | none => exact .unchanged
    | some f =>
      obtain ⟨hcode, hsource⟩ := findCode_eq_some hfind
      simp only
      rcases run_saved sql (edit f) (current sql disk db) with hsaved | ⟨e, hsaved⟩
      · rw [Script.run_bind_ok hsaved]
        exact .wrote (edit f) ((hedit f).trans hcode) hsource
      · rw [Script.run_bind_error hsaved]
        exact .failed e

theorem Changed.ran {c : Call} {code : Str} {p : Script Db Failure (Option WatchItem)}
    (wrap : Option WatchItem → Answer) (h : Changed sql disk db code (p.run db))
    (hok : ∀ f db', p.run db = (.ok f, db') → (c.script sql disk).run db = (.ok (wrap f), db'))
    (herror : ∀ e db', p.run db = (.error e, db') → (c.script sql disk).run db = (.error e, db'))
    (hwrap : ∀ f, wrap f ≠ .removed true) :
    Ran sql disk db c (answer sql disk c db) ((c.script sql disk).run db).2 := by
  rcases hrun : p.run db with ⟨result, db'⟩
  rw [hrun] at h
  unfold answer
  cases h with
  | raised e =>
    rw [herror e _ hrun]
    exact .raised c e
  | failed e =>
    rw [herror e _ hrun]
    exact .failed c e
  | unchanged =>
    rw [hok none _ hrun]
    exact .answered c _ (hwrap none)
  | wrote f hcode hsource =>
    rw [hok (some f) _ hrun]
    exact .wrote c _ (asRow f) code hcode (.inl hsource) (hwrap (some f))

theorem ran_toggleFocus (db : Db) (code : Str) :
    Ran sql disk db (.toggleFocus code) (answer sql disk (.toggleFocus code) db)
      (((Call.toggleFocus code).script sql disk).run db).2 := by
  have hchanged : Changed sql disk db code ((change sql disk code fun f =>
    { f with focus := !f.focus }).run db) := changed_change fun f => rfl
  refine hchanged.ran (fun f => .focused (f.map WatchItem.focus)) ?_ ?_ (by simp)
  · intro f db' hrun
    exact Script.run_bind_ok (Script.run_bind_ok hrun _) _
  · intro e db' hrun
    exact Script.run_bind_error (Script.run_bind_error hrun _) _

theorem ran_update (db : Db) (code : Str) (category note : Option Str) :
    Ran sql disk db (.update code category note) (answer sql disk (.update code category note) db)
      (((Call.update code category note).script sql disk).run db).2 := by
  have hchanged : Changed sql disk db code ((update sql disk code category note).run db) :=
    changed_change fun f => rfl
  refine hchanged.ran .updated ?_ ?_ (by simp)
  · intro f db' hrun
    exact Script.run_bind_ok hrun _
  · intro e db' hrun
    exact Script.run_bind_error hrun _

theorem code_item {r : AddRequest} {info : Option FundInfo} {f : WatchItem}
    (h : r.item info = .ok f) : f.code = some r.cleanCode := by
  unfold AddRequest.item at h
  split at h
  · cases h
  · cases h
    rfl

theorem ran_add (db : Db) (r : AddRequest) :
    Ran sql disk db (.add r) (answer sql disk (.add r) db)
      (((Call.add r).script sql disk).run db).2 := by
  simp only [answer, Call.script, add]
  split
  · exact .refused r _
  · refine after_migration (.raised _) ?_ fun hmigrate => ?_
    · intro e hraised
      exact Script.run_bind_error (Script.run_bind_error (run_listAll_error hraised) _) _
    · have hread := Script.run_bind_ok (run_listAll_ok hmigrate) fun data =>
        match findCode data r.cleanCode with
        | some existing => pure existing
        | none => do
          let f ← .lift (r.info >>= r.item)
          saved sql f
      cases hfind : findCode ((current sql disk db).watchlist.rows.map WatchRow.item)
          r.cleanCode with
      | some existing =>
        rw [hfind] at hread
        rw [Script.run_bind_ok hread _]
        exact .answered _ _ (by simp)
      | none =>
        rw [hfind] at hread
        simp only at hread
        cases hitem : r.info >>= r.item with
        | error e =>
          rw [hitem, Script.run_bind_error (Script.run_lift _ _)] at hread
          rw [Script.run_bind_error hread _]
          exact .failed _ e
        | ok f =>
          rw [hitem, Script.run_bind_ok (Script.run_lift _ _)] at hread
          obtain ⟨info, -, hf⟩ := except_bind_eq_ok.1 hitem
          rcases run_saved sql f (current sql disk db) with hsaved | ⟨e, hsaved⟩
          · rw [Script.run_bind_ok (hread.trans hsaved) _]
            exact .wrote _ _ (asRow f) r.cleanCode (code_item hf) (.inr ⟨r, rfl, rfl⟩) (by simp)
          · rw [Script.run_bind_error (hread.trans hsaved) _]
            exact .failed _ e

theorem ran_remove (db : Db) (code : Str) :
    Ran sql disk db (.remove code) (answer sql disk (.remove code) db)
      (((Call.remove code).script sql disk).run db).2 := by
  simp only [answer, Call.script, remove]
  refine after_migration (.raised _) ?_ fun hmigrate => ?_
  · intro e hraised
    exact Script.run_bind_error (Script.run_bind_error (run_listAll_error hraised) _) _
  · have hfound : (∃ f ∈ (current sql disk db).watchlist.rows.map WatchRow.item,
        f.code = some code) → decide (code ∈ (current sql disk db).watchlist.keys) = true := by
      exact fun h => decide_eq_true (Keyed.Table.mem_keys_of_map h fun _ => rfl)
    rcases run_removal (deleteWatch code) rfl (run_listAll_ok hmigrate) hfound with
      hrun | hrun | ⟨e, hrun⟩
    · rw [Script.run_bind_ok hrun _]
      exact .answered _ _ (by simp)
    · rw [Script.run_bind_ok hrun _]
      exact .removed code hmigrate
    · rw [Script.run_bind_error hrun _]
      exact .failed _ e

/-- The fund that `get` finds, after a migration that returns. -/
theorem answer_get {code : Str} (h : ((migrateJsonOnce sql disk).run db).1 = .ok ()) :
    ((Call.get code).script sql disk).run db =
      (.ok (.fund (findCode ((current sql disk db).watchlist.rows.map WatchRow.item) code)),
        current sql disk db) :=
  Script.run_bind_ok (Script.run_bind_ok (run_listAll_ok h) _) _

/-- **What a call can do.** -/
theorem ran_call (sql : Sqlite) (disk : Disk) (db : Db) (c : Call) :
    Ran sql disk db c (answer sql disk c db) ((c.script sql disk).run db).2 := by
  cases c with
  | listAll =>
    simp only [answer, Call.script]
    refine after_migration (.raised _) ?_ fun hmigrate => ?_
    · intro e hraised
      exact Script.run_bind_error (run_listAll_error hraised) _
    · rw [Script.run_bind_ok (run_listAll_ok hmigrate) _]
      exact .answered _ _ (by simp)
  | get code =>
    rw [answer]
    refine after_migration (.raised _) ?_ fun hmigrate => ?_
    · intro e hraised
      exact Script.run_bind_error (Script.run_bind_error (run_listAll_error hraised) _) _
    · rw [answer_get hmigrate]
      exact .answered _ _ (by simp)
  | add r => exact ran_add db r
  | remove code => exact ran_remove db code
  | toggleFocus code => exact ran_toggleFocus db code
  | update code category note => exact ran_update db code category note
  | reset =>
    simp only [answer, Call.script, reset]
    rw [Script.run_bind_ok (run_restore sql db) _]
    exact .restored _ (by simp)

end Calls

/-! ### Removals -/

/-- A removal leaves another fund in the list that the call reads. -/
def keepsAnother (db : Db) : Call → Bool
  | .remove code => (current sql disk db).watchlist.rows.any fun r => r.code ≠ some code
  | _ => true

/-- The call may bring the fund back: it adds the code, or resets the list. -/
def Restores (code : Str) (c : Call) : Prop := c = .reset ∨ ∃ r, c = .add r ∧ r.cleanCode = code

/-- In a past, no fund is found that was removed and not added again. -/
def StaysRemoved (past : List (Transition Db Call)) : Prop :=
  ∀ code earlier removal between read later,
    past = earlier ++ removal :: (between ++ read :: later) →
      removal.action = .remove code →
      answer sql disk removal.action removal.source = .ok (.removed true) →
      (∀ x ∈ between, ¬ Restores code x.action) → read.action = .get code →
      answer sql disk read.action read.source = .ok (.fund none)

/-- The fund is not in the list, and no read brings it back or fails. -/
structure Gone (code : Str) (db : Db) : Prop where
  absent : ∀ r ∈ db.watchlist.rows, r.code ≠ some code
  filled : db.watchlist.rows ≠ []
  returns : db.portfolio.rows = [] → disk.holdings.holdingsReturn sql = true

section Removals

variable {sql disk} {db : Db} {code : Str}

/-- A migration that returned once returns again. -/
theorem holdingsReturn_current (h : db.portfolio.rows = [] → disk.holdings.holdingsReturn sql = true)
    (hempty : (current sql disk db).portfolio.rows = []) :
    disk.holdings.holdingsReturn sql = true := by
  rw [portfolio_current] at hempty
  rcases portfolio_migrated_cases sql disk db with hsame | ⟨hnone, -⟩
  · exact h (hsame ▸ hempty)
  · exact h hnone

theorem Gone.current (h : Gone sql disk code db) : Gone sql disk code (current sql disk db) := by
  have hwatch : (Watchlist.current sql disk db).watchlist = db.watchlist := by
    rw [current_of_ne_nil h.filled, watchlist_migrated h.filled]
  exact ⟨hwatch ▸ h.absent, hwatch ▸ h.filled, holdingsReturn_current h.returns⟩

theorem Gone.migrates (h : Gone sql disk code db) : ((migrateJsonOnce sql disk).run db).1 = .ok () :=
  (migrateJsonOnce_returns_iff sql disk db).2 ⟨fun hempty => absurd hempty h.filled, h.returns⟩

theorem gone_of_removed (hkeeps : keepsAnother sql disk db (.remove code) = true)
    (hanswer : answer sql disk (.remove code) db = .ok (.removed true)) :
    Gone sql disk code (((Call.remove code).script sql disk).run db).2 := by
  have hran := ran_call sql disk db (.remove code)
  rw [hanswer] at hran
  generalize (((Call.remove code).script sql disk).run db).2 = db' at hran ⊢
  cases hran with
  | answered c a ha => exact absurd rfl ha
  | wrote c a row code' hcode hsource ha => exact absurd rfl ha
  | removed code hreturns =>
    refine ⟨?_, Keyed.Table.delete_ne_nil hkeeps, ?_⟩
    · intro r hr
      exact (Keyed.Table.mem_delete.1 hr).2
    · exact holdingsReturn_current ((migrateJsonOnce_returns_iff sql disk db).1 hreturns).2

/-- A fund that is gone is gone after every call that does not bring it back. -/
theorem Gone.call {c : Call} (h : Gone sql disk code db) (hkeeps : keepsAnother sql disk db c = true)
    (hother : ¬ Restores code c) : Gone sql disk code ((c.script sql disk).run db).2 := by
  have hran := ran_call sql disk db c
  generalize ((c.script sql disk).run db).2 = db' at hran ⊢
  generalize answer sql disk c db = a at hran
  cases hran with
  | refused r e => exact h
  | raised c e =>
    have hsame : Watchlist.current sql disk db = migrated sql disk db := current_of_ne_nil h.filled
    exact hsame ▸ h.current
  | failed c e => exact h.current
  | answered c a ha => exact h.current
  | wrote c a row code' hcode hsource ha =>
    refine ⟨?_, Keyed.Table.upsert_ne_nil _ row, h.current.returns⟩
    intro r hr hgone
    rcases Keyed.Table.mem_upsert.1 hr with rfl | ⟨hold, -⟩
    · obtain rfl : code' = code := Option.some.inj (hcode.symm.trans hgone)
      rcases hsource with ⟨r, hr, hrcode⟩ | hadd
      · exact h.current.absent r hr hrcode
      · exact hother (.inr hadd)
    · exact h.current.absent r hold hgone
  | removed code' hreturns =>
    refine ⟨?_, Keyed.Table.delete_ne_nil hkeeps, h.current.returns⟩
    intro r hr
    exact h.current.absent r (Keyed.Table.mem_delete.1 hr).1
  | restored a ha => exact absurd (.inl rfl) hother

end Removals

/-- **In every run whose removals leave another fund, a fund that was removed is not found until it
is added again or the list is reset.** -/
theorem removed_not_found (db : Db) (calls : List Call) (t : Runs.Trace Db Call)
    (hkeeps : Runs.disciplined (step sql disk) (keepsAnother sql disk) calls db = true)
    (hrun : Runs.run (Runs.traced (step sql disk)) calls (.start db) = some t) :
    StaysRemoved sql disk t.past := by
  intro code earlier removal between read later hsplit hremoval hanswer hbetween hread
  have hgone : Gone sql disk code read.source := by
    refine Runs.holds_since (P := Gone sql disk code)
      (fun db c => c = .remove code ∧ answer sql disk c db = .ok (.removed true)) (Restores code)
      ?_ ?_ calls hkeeps hrun hsplit ⟨hremoval, hanswer⟩ hbetween
    · rintro s c s' hallowed hstep ⟨rfl, htrue⟩
      cases hstep
      exact gone_of_removed hallowed htrue
    · intro s c s' h hallowed hstep hother
      cases hstep
      exact h.call hallowed hother
  rw [hread, answer, answer_get hgone.migrates, findCode_eq_none_iff.2 hgone.current.absent]

/-! The last fund. -/

def firstDefault : Str := Str.ofString "005844"

def secondFund : Str := Str.ofString "2"

/-- A database whose watchlist holds one of the default funds. -/
def oneFund : Db :=
  { watchlist := ⟨[asRow (fund "005844" "东方人工智能主题混合A" "人工智能" "" false)], by decide +kernel⟩
    portfolio := .empty _ }

/-- And one with another fund besides. -/
def twoFunds : Db :=
  { oneFund with watchlist := oneFund.watchlist.upsert (asRow (fund "2" "" "" "" false)) }

/-- The first of two funds is removed, the other one toggled. -/
def removeFirst : List Call := [.remove firstDefault, .toggleFocus secondFund, .get firstDefault]

theorem removed_not_found_removeFirst :
    ∃ t, Runs.run (Runs.traced (step plainSql noFiles)) removeFirst (.start twoFunds) = some t ∧
      (t.past.any fun x => answer plainSql noFiles x.action x.source = .ok (.removed true)) ∧
      StaysRemoved plainSql noFiles t.past := by
  refine ⟨_, rfl, by decide +kernel, ?_⟩
  exact removed_not_found plainSql noFiles twoFunds removeFirst _ (by decide +kernel) rfl

/-- The database after the only fund is removed. -/
def nothingLeft : Db := (((Call.remove firstDefault).script plainSql noFiles).run oneFund).2

/-- The removal of the last fund answers `True`, and the next read finds it again, among the default
funds. -/
theorem last_fund_returns :
    ∃ t, Runs.run (Runs.traced (step plainSql noFiles)) [.remove firstDefault, .get firstDefault]
        (.start oneFund) = some t ∧ ¬ StaysRemoved plainSql noFiles t.past := by
  refine ⟨_, rfl, ?_⟩
  intro hstays
  have hnone := hstays firstDefault [] ⟨oneFund, .remove firstDefault, nothingLeft⟩ []
    ⟨nothingLeft, .get firstDefault, _⟩ [] rfl rfl (by decide +kernel) (by simp) rfl
  have hempty : (migrated plainSql noFiles nothingLeft).watchlist.rows = [] := by
    decide +kernel
  have hreturns : ((migrateJsonOnce plainSql noFiles).run nothingLeft).1 = .ok () := by
    decide +kernel
  -- the read fills in the default funds, the first of which is the one that was removed
  rw [answer, answer_get hreturns, current, if_pos hempty] at hnone
  have habsent := findCode_eq_none_iff.1 (Answer.fund.inj (Except.ok.inj hnone))
  exact habsent _ List.mem_cons_self rfl

end QuantFlow.Watchlist
