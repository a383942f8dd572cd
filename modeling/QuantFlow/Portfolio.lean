/-
**Holdings that were removed, and those that come back.**

`list_all`, `upsert` and `remove` of `backend/app/portfolio.py` each begin with the migration of the
JSON files.  The migration fills the table whenever it finds it empty, and the file it reads is
copied, not moved.  So a holding that is removed stays removed as long as the table holds another
one.  When the last one goes, the next call brings back every holding of `holdings.json`.

Main definitions:

* `listAll`, `upsert`, `remove` — the functions, as scripts;
* `Call`, `step` — a call, and the machine of calls;
* `StaysRemoved` — in a past, no list has a holding that was removed and not stored again;
* `keepsAnother` — a removal leaves another holding, or the file has none.

Main results:

* `ran_call` — what a call can do;
* `removed_stays_removed` — **in every run whose removals leave another holding,
  a holding that was removed stays removed until it is stored again**.
-/

import QuantFlow.GuardedRuns
import QuantFlow.Migration
import QuantFlow.Schemas

namespace QuantFlow.Portfolio

open Py (Json Str Fields Float64)
open Runs (Transition)
open Scripts (Script)

variable (sql : Sqlite) (disk : Disk)

/-! ### The functions -/

/-- `list_all()`. -/
def listAll : Script Db Failure (List HoldingItem) := do
  migrateJsonOnce sql disk
  listHoldings

/-- `x <= 0`, which is false for a NaN. -/
def nonpositive : Float64 → Bool
  | .finite value _ => value ≤ 0
  | .inf negative => negative
  | .nan => false

/-- The holding with its new values, or a new one. -/
def changed (data : List HoldingItem) (code : Str) (shares costNav : Float64) (name : Str) :
    HoldingItem :=
  match data.find? fun h => h.code = some code with
  | some h =>
    { h with shares := .real shares, costNav := .real costNav,
             name := if name = [] then h.name else name }
  | none => { code := some code, name := name, shares := .real shares, costNav := .real costNav }

/-- The holding is written and returned. -/
def saved (h : HoldingItem) : Script Db Failure HoldingItem := do
  upsertHolding sql (.ok h.tuple)
  pure h

/-- `upsert(code, shares, cost_nav, name)`. -/
def upsert (code : Str) (shares costNav : Float64) (name : Str) : Script Db Failure HoldingItem :=
  if code = [] then .raise (.valueError (Str.ofString "基金代码不能为空"))
  else if nonpositive shares || nonpositive costNav then
    .raise (.valueError (Str.ofString "份额与成本净值必须大于 0"))
  else do
    let data ← listAll sql disk
    saved sql (changed data code shares costNav name)

/-- `remove(code)`. -/
def remove (code : Str) : Script Db Failure Bool := do
  let data ← listAll sql disk
  let left := data.filter fun h => h.code ≠ some code
  if left.length = data.length then pure false else deleteHolding code

/-! ### Calls -/

inductive Call
  | listAll
  | upsert (code : Str) (shares costNav : Float64) (name : Str)
  | remove (code : Str)

inductive Answer
  | holdings (data : List HoldingItem)
  | stored (h : HoldingItem)
  | removed (done : Bool)
  deriving DecidableEq

def Call.script : Call → Script Db Failure Answer
  | .listAll => do
    let data ← Portfolio.listAll sql disk
    pure (.holdings data)
  | .upsert code shares costNav name => do
    let h ← Portfolio.upsert sql disk code shares costNav name
    pure (.stored h)
  | .remove code => do
    let done ← Portfolio.remove sql disk code
    pure (.removed done)

/-- The answer to a call. -/
def answer (c : Call) (db : Db) : Except Failure Answer := ((c.script sql disk).run db).1

/-- The machine of calls, one after the other. -/
def step (c : Call) (db : Db) : Option Db := some ((c.script sql disk).run db).2

/-! ### What a call can do -/

/-- The ways a call ends. -/
inductive Ran (db : Db) : Call → Except Failure Answer → Db → Prop
  | refused (code : Str) (shares costNav : Float64) (name : Str) (e : Failure) :
      Ran db (.upsert code shares costNav name) (.error e) db
  | raised (c : Call) (e : Failure) : Ran db c (.error e) (migrated sql disk db)
  | listed : Ran db .listAll
      (.ok (.holdings ((migrated sql disk db).portfolio.rows.map HoldingRow.item)))
      (migrated sql disk db)
  | stored (code : Str) (shares costNav : Float64) (name : Str) (h : HoldingItem) (row : HoldingRow)
      (hcode : row.code = some code) :
      Ran db (.upsert code shares costNav name) (.ok (.stored h))
        { migrated sql disk db with
          portfolio := (migrated sql disk db).portfolio.upsert row }
  | kept (code : Str) : Ran db (.remove code) (.ok (.removed false)) (migrated sql disk db)
  | removed (code : Str) : Ran db (.remove code) (.ok (.removed true))
      { migrated sql disk db with
        portfolio := (migrated sql disk db).portfolio.delete code }

theorem code_changed (data : List HoldingItem) (code : Str) (shares costNav : Float64) (name : Str) :
    (changed data code shares costNav name).code = some code := by
  unfold changed
  split
  · rename_i h hfind
    simpa using List.find?_some hfind
  · rfl

theorem code_row {h : HoldingItem} {row : HoldingRow} (hrow : h.tuple.row sql = .ok row) :
    row.code = h.code := by
  unfold HoldingTuple.row at hrow
  obtain ⟨code, hcode, hrow⟩ := except_bind_eq_ok.1 hrow
  obtain ⟨name, -, hrow⟩ := except_bind_eq_ok.1 hrow
  obtain ⟨shares, -, hrow⟩ := except_bind_eq_ok.1 hrow
  obtain ⟨costNav, -, hrow⟩ := except_bind_eq_ok.1 hrow
  split at hrow
  · split at hrow
    · cases hrow
      exact textColumn_of_optionalText sql hcode
    · cases hrow
  · cases hrow

section Calls

variable {sql disk} {db : Db}

theorem run_listAll_ok (h : ((migrateJsonOnce sql disk).run db).1 = .ok ()) :
    (listAll sql disk).run db =
      (.ok ((migrated sql disk db).portfolio.rows.map HoldingRow.item), migrated sql disk db) :=
  Script.run_bind_ok (Prod.ext h rfl) _

theorem run_listAll_error {e : Failure} (h : ((migrateJsonOnce sql disk).run db).1 = .error e) :
    (listAll sql disk).run db = (.error e, migrated sql disk db) :=
  Script.run_bind_error (Prod.ext h rfl) _

theorem run_saved_ok {h : HoldingItem} {row : HoldingRow} (hrow : h.tuple.row sql = .ok row)
    (db : Db) :
    (saved sql h).run db = (.ok h, { db with portfolio := db.portfolio.upsert row }) :=
  Script.run_bind_ok (run_upsertHolding_ok sql (t := .ok h.tuple) db hrow) _

theorem run_saved_error {h : HoldingItem} {e : Failure} (hrow : h.tuple.row sql = .error e)
    (db : Db) : (saved sql h).run db = (.error e, db) :=
  Script.run_bind_error (run_upsertHolding_error sql (t := .ok h.tuple) db hrow) _

end Calls

theorem ran_upsert (db : Db) (code : Str) (shares costNav : Float64) (name : Str) :
    Ran sql disk db (.upsert code shares costNav name)
      (answer sql disk (.upsert code shares costNav name) db)
      (((Call.upsert code shares costNav name).script sql disk).run db).2 := by
  simp only [answer, Call.script, upsert]
  split
  · exact .refused code shares costNav name _
  · split
    · exact .refused code shares costNav name _
    · refine after_migration (.raised _) ?_ fun hmigrate => ?_
      · intro e hraised
        exact Script.run_bind_error (Script.run_bind_error (run_listAll_error hraised) _) _
      · have hlist := run_listAll_ok hmigrate
        generalize (migrated sql disk db).portfolio.rows.map HoldingRow.item = data at hlist
        have hcode := code_changed data code shares costNav name
        cases hrow : (changed data code shares costNav name).tuple.row sql with
        | error e =>
          rw [Script.run_bind_error ((Script.run_bind_ok hlist _).trans
            (run_saved_error hrow _)) _]
          exact .raised _ e
        | ok row =>
          rw [Script.run_bind_ok ((Script.run_bind_ok hlist _).trans (run_saved_ok hrow _)) _]
          exact .stored code shares costNav name _ row ((code_row sql hrow).trans hcode)

theorem ran_remove (db : Db) (code : Str) :
    Ran sql disk db (.remove code) (answer sql disk (.remove code) db)
      (((Call.remove code).script sql disk).run db).2 := by
  simp only [answer, Call.script, remove]
  refine after_migration (.raised _) ?_ fun hmigrate => ?_
  · intro e hraised
    exact Script.run_bind_error (Script.run_bind_error (run_listAll_error hraised) _) _
  · have hfound : (∃ h ∈ (migrated sql disk db).portfolio.rows.map HoldingRow.item,
        h.code = some code) → decide (code ∈ (migrated sql disk db).portfolio.keys) = true := by
      exact fun h => decide_eq_true (Keyed.Table.mem_keys_of_map h fun _ => rfl)
    rcases run_removal (deleteHolding code) rfl (run_listAll_ok hmigrate) hfound with
      hrun | hrun | ⟨e, hrun⟩
    · rw [Script.run_bind_ok hrun _]
      exact .kept code
    · rw [Script.run_bind_ok hrun _]
      exact .removed code
    · rw [Script.run_bind_error hrun _]
      exact .raised _ e

/-- **What a call can do.** -/
theorem ran_call (db : Db) (c : Call) :
    Ran sql disk db c (answer sql disk c db) ((c.script sql disk).run db).2 := by
  cases c with
  | listAll =>
    simp only [answer, Call.script]
    refine after_migration (.raised _) ?_ fun hmigrate => ?_
    · intro e hraised
      exact Script.run_bind_error (run_listAll_error hraised) _
    · rw [Script.run_bind_ok (run_listAll_ok hmigrate) _]
      exact .listed
  | upsert code shares costNav name => exact ran_upsert sql disk db code shares costNav name
  | remove code => exact ran_remove sql disk db code

/-! ### Removals -/

/-- `holdings.json` brings no holding into an empty table. -/
def inert : File → Bool
  | .json rows => (holdingRows sql rows).1.isEmpty
  | _ => true

/-- A removal leaves another holding in the table that the call reads, or the file has none to bring
back. -/
def keepsAnother (db : Db) : Call → Bool
  | .remove code =>
    ((migrated sql disk db).portfolio.rows.any fun r => r.code ≠ some code) ||
      inert sql disk.holdings
  | _ => true

/-- In a past, no list has a holding that was removed and not stored again. -/
def StaysRemoved (past : List (Transition Db Call)) : Prop :=
  ∀ code earlier removal between read later,
    past = earlier ++ removal :: (between ++ read :: later) →
      removal.action = .remove code →
      answer sql disk removal.action removal.source = .ok (.removed true) →
      (∀ x ∈ between, ¬ ∃ shares costNav name, x.action = .upsert code shares costNav name) →
      read.action = .listAll →
      ∀ data, answer sql disk read.action read.source = .ok (.holdings data) →
        ∀ h ∈ data, h.code ≠ some code

section Removals

variable {sql disk} {db : Db} {code : Str}

/-- The migration leaves a table alone that is not empty, or that the file has nothing for. -/
theorem portfolio_migrated (h : db.portfolio.rows ≠ [] ∨ inert sql disk.holdings = true) :
    (migrated sql disk db).portfolio = db.portfolio := by
  rcases portfolio_migrated_cases sql disk db with hsame | ⟨hempty, rows, hfile, hstored⟩
  · exact hsame
  · -- the table is empty, so the file has nothing for it
    have hinert := h.resolve_left (not_not.2 hempty)
    rw [hfile] at hinert
    have hnone : (holdingRows sql rows).1 = [] := by simpa [inert] using hinert
    rw [hstored, hnone]
    rfl

/-- The code is not in the table, and the migration does not bring it back. -/
structure Gone (sql : Sqlite) (disk : Disk) (code : Str) (db : Db) : Prop where
  absent : ∀ r ∈ db.portfolio.rows, r.code ≠ some code
  still : db.portfolio.rows ≠ [] ∨ inert sql disk.holdings = true

theorem Gone.migrated (h : Gone sql disk code db) : Gone sql disk code (migrated sql disk db) := by
  have hsame := portfolio_migrated h.still
  exact ⟨hsame ▸ h.absent, hsame ▸ h.still⟩

theorem still_of_keepsAnother (h : keepsAnother sql disk db (.remove code) = true) :
    ((migrated sql disk db).portfolio.delete code).rows ≠ [] ∨ inert sql disk.holdings = true :=
  (Bool.or_eq_true_iff.1 h).imp_left Keyed.Table.delete_ne_nil

theorem gone_of_removed (hkeeps : keepsAnother sql disk db (.remove code) = true)
    (hanswer : answer sql disk (.remove code) db = .ok (.removed true)) :
    Gone sql disk code (((Call.remove code).script sql disk).run db).2 := by
  have hran := ran_call sql disk db (.remove code)
  rw [hanswer] at hran
  generalize (((Call.remove code).script sql disk).run db).2 = db' at hran ⊢
  cases hran with
  | removed =>
    refine ⟨?_, still_of_keepsAnother hkeeps⟩
    intro r hr
    exact (Keyed.Table.mem_delete.1 hr).2

/-- A holding that is gone is gone after every call that does not store it. -/
theorem Gone.call {c : Call} (h : Gone sql disk code db) (hkeeps : keepsAnother sql disk db c = true)
    (hother : ¬ ∃ shares costNav name, c = .upsert code shares costNav name) :
    Gone sql disk code ((c.script sql disk).run db).2 := by
  have hran := ran_call sql disk db c
  generalize ((c.script sql disk).run db).2 = db' at hran ⊢
  generalize answer sql disk c db = a at hran
  cases hran with
  | refused code' shares costNav name e => exact h
  | raised c e => exact h.migrated
  | listed => exact h.migrated
  | kept code' => exact h.migrated
  | stored code' shares costNav name item row hcode =>
    refine ⟨?_, .inl (Keyed.Table.upsert_ne_nil _ row)⟩
    intro r hr hgone
    rcases Keyed.Table.mem_upsert.1 hr with rfl | ⟨hold, -⟩
    · obtain rfl : code' = code := Option.some.inj (hcode.symm.trans hgone)
      exact hother ⟨shares, costNav, name, rfl⟩
    · exact h.migrated.absent r hold hgone
  | removed code' =>
    refine ⟨?_, still_of_keepsAnother hkeeps⟩
    intro r hr
    exact h.migrated.absent r (Keyed.Table.mem_delete.1 hr).1

end Removals

/-- **In every run whose removals leave another holding, a holding that was removed stays removed
until it is stored again.** -/
theorem removed_stays_removed (db : Db) (calls : List Call) (t : Runs.Trace Db Call)
    (hkeeps : Runs.disciplined (step sql disk) (keepsAnother sql disk) calls db = true)
    (hrun : Runs.run (Runs.traced (step sql disk)) calls (.start db) = some t) :
    StaysRemoved sql disk t.past := by
  intro code earlier removal between read later hsplit hremoval hanswer hbetween hread data hdata
  have hgone : Gone sql disk code read.source := by
    refine Runs.holds_since (P := Gone sql disk code)
      (fun db c => c = .remove code ∧ answer sql disk c db = .ok (.removed true))
      (fun c => ∃ shares costNav name, c = .upsert code shares costNav name)
      ?_ ?_ calls hkeeps hrun hsplit ⟨hremoval, hanswer⟩ hbetween
    · rintro s c s' hallowed hstep ⟨rfl, htrue⟩
      cases hstep
      exact gone_of_removed hallowed htrue
    · intro s c s' h hallowed hstep hother
      cases hstep
      exact h.call hallowed hother
  have hran := ran_call sql disk read.source read.action
  rw [hread] at hran hdata
  rw [hdata] at hran
  generalize ((Call.listAll.script sql disk).run read.source).2 = db' at hran
  cases hran with
  | listed =>
    intro h hh
    obtain ⟨r, hr, rfl⟩ := List.mem_map.1 hh
    exact hgone.migrated.absent r hr

/-! The last holding. -/

/-- `holdings.json` holds one row, which the database has taken from it. -/
def oneHolding : Disk := { watchlist := .missing, holdings := .json (.arr [tenShares "000001"]) }

def firstFund : Str := Str.ofString "000001"

/-- Two holdings, of which the file has one. -/
def storeAndRemove : List Call :=
  [.upsert (Str.ofString "000002") (.finite 1 "1.0") (.finite 1 "1.0") [], .remove firstFund, .listAll]

theorem removed_stays_removed_storeAndRemove :
    ∃ t, Runs.run (Runs.traced (step plainSql oneHolding)) storeAndRemove (.start emptyDb) = some t ∧
      (t.past.any fun x => answer plainSql oneHolding x.action x.source = .ok (.removed true)) ∧
      StaysRemoved plainSql oneHolding t.past := by
  refine ⟨_, rfl, by decide +kernel, ?_⟩
  exact removed_stays_removed plainSql oneHolding emptyDb storeAndRemove _ (by decide +kernel) rfl

/-- The answer lists the code. -/
def lists (code : Str) : Except Failure Answer → Bool
  | .ok (.holdings data) => data.any fun h => h.code = some code
  | _ => false

/-- The removal of the last holding answers `True`, and the next list has it again. -/
theorem last_holding_returns :
    ∃ t, Runs.run (Runs.traced (step plainSql oneHolding)) [.remove firstFund, .listAll]
        (.start emptyDb) = some t ∧ ¬ StaysRemoved plainSql oneHolding t.past := by
  refine ⟨_, rfl, ?_⟩
  intro hstays
  have habsent := hstays firstFund [] _ [] _ [] rfl rfl (by decide +kernel) (by simp) rfl
  have hlists : lists firstFund (answer plainSql oneHolding .listAll
      (((Call.remove firstFund).script plainSql oneHolding).run emptyDb).2) = true := by
    decide +kernel
  unfold lists at hlists
  split at hlists
  · rename_i data hdata
    obtain ⟨h, hh, hcode⟩ := List.any_eq_true.1 hlists
    exact habsent data hdata h hh (of_decide_eq_true hcode)
  · cases hlists

end QuantFlow.Portfolio
