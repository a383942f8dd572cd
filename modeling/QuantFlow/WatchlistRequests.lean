/-
**Two requests to the watchlist at the same time.**

The handlers of the watchlist run in threads.  A request reads the whole list in one transaction and
writes a row back in another, and nothing keeps a second request from writing in between.  The row
that is written has all columns as they were read, and it is inserted if it is no longer there.  So
one of two toggles can be lost, and a toggle can bring back a fund that was removed.

What a request writes is a plan that it makes of the rows it read.  As long as the list is not empty
and the holdings can be migrated, reading changes nothing that a request sees.  Then two requests are
as good as one after the other if neither plan is disturbed by the other's write: the request writes
nothing, or does to the rows that the other leaves what it would have done if it had read them.
Requests about different funds are of this kind.

Main definitions:

* `plan`, `Plan.effect` — what a request plans, and what this does to the rows;
* `Settled` — the list does not become empty, and reading it raises nothing;
* `DifferentFunds`, `Undisturbed` — plans that do not go wrong;
* `Serializable` — an interleaving ends like the requests in one of the two orders.

Main results:

* `plans_script` — a request makes its plan of what it reads;
* `requests_serializable` — **when two requests are serializable**.
-/

import QuantFlow.Interleaving
import QuantFlow.Watchlist

namespace QuantFlow.Watchlist

open Py (Str Json)
open Scripts (Script Side Duo Looks Plans Performs Unseen)

variable (sql : Sqlite) (disk : Disk)

/-! ### Plans -/

/-- The rows of the list. -/
abbrev Rows := Keyed.Table WatchRow.code

def items (t : Rows) : List WatchItem := t.rows.map WatchRow.item

/-- What is left of a request after its reads: its answer, or one transaction. -/
inductive Plan
  | answer (r : Except Failure Answer)
  | write (f : WatchItem) (a : Answer)
  | delete (code : Str)
  | restore

/-- The plan of a request that has read these funds. -/
def plan : Call → List WatchItem → Plan
  | .listAll, data => .answer (.ok (.funds data))
  | .get code, data => .answer (.ok (.fund (findCode data code)))
  | .add r, data =>
    if r.cleanCode = [] then .answer (.error (.valueError (Str.ofString "基金代码不能为空")))
    else
      match findCode data r.cleanCode with
      | some existing => .answer (.ok (.added existing))
      | none =>
        match r.info >>= r.item with
        | .error e => .answer (.error e)
        | .ok f => .write f (.added f)
  | .remove code, data =>
    if (data.filter fun f => f.code ≠ some code).length = data.length then
      .answer (.ok (.removed false))
    else .delete code
  | .toggleFocus code, data =>
    match findCode data code with
    | none => .answer (.ok (.focused none))
    | some f => .write { f with focus := !f.focus } (.focused (some !f.focus))
  | .update code category note, data =>
    match findCode data code with
    | none => .answer (.ok (.updated none))
    | some f =>
      let f := { f with category := category.getD f.category, note := note.getD f.note }
      .write f (.updated (some f))
  | .reset, _ => .restore

def Plan.script : Plan → Script Db Failure Answer
  | .answer r => .lift r
  | .write f a => do
    upsertWatch sql f
    pure a
  | .delete code => do
    let done ← deleteWatch code
    pure (.removed done)
  | .restore => do
    replaceWatchlist sql (.ok (defaultFunds.map WatchItem.tuple))
    pure (.restored defaultFunds)

/-- What a plan does to the rows it meets. -/
def Plan.effect : Plan → Rows → Except Failure Answer × Rows
  | .answer r, t => (r, t)
  | .write f a, t => if encodable f then (.ok a, t.upsert (asRow f)) else (.error .unicode, t)
  | .delete code, t =>
    if Str.encodable code then (.ok (.removed (code ∈ t.keys)), t.delete code)
    else (.error .unicode, t)
  | .restore, _ => (.ok (.restored defaultFunds), defaultTable)

/-- What a request does to the rows `t` when it has read `seen`. -/
def effect (c : Call) (seen t : Rows) : Except Failure Answer × Rows := (plan c (items seen)).effect t

/-! ### Reading -/

/-- There is a fund that neither request removes, and a migration of the holdings does not raise. -/
structure Settled (calls : Side → Call) (db : Db) : Prop where
  spared : ∃ r ∈ db.watchlist.rows, ∀ side code, calls side = .remove code → r.code ≠ some code
  returns : db.portfolio.rows = [] → disk.holdings.holdingsReturn sql = true

section Reading

variable {sql disk} {calls : Side → Call}

/-- The loop over `holdings.json` writes only holdings, and a failure of it is caught. -/
theorem looks_each {elems : List Json}
    (h : (Script.firstFailure (holdingRow sql) elems).2.all Failure.caught = true) :
    Looks Db.watchlist (Settled sql disk calls) (Script.rescue Failure.caught
      (.each elems fun e => upsertHolding sql (holdingTuple e))) := by
  induction elems with
  | nil => exact .done ()
  | cons e elems ih =>
    -- the transaction of `e`, and what follows it
    let t : Db → Except Failure (Unit × Db) := fun db => do
      let t ← holdingTuple e
      let row ← t.row sql
      .ok ((), { db with portfolio := db.portfolio.upsert row })
    have ht : ∀ db, t db = (holdingRow sql e >>= fun row =>
        .ok ((), { db with portfolio := db.portfolio.upsert row })) :=
      fun db => (bind_assoc ..).symm
    suffices hstep : Unseen Db.watchlist (Settled sql disk calls) (Script.committed t) ∧ ∀ s,
        Looks Db.watchlist (Settled sql disk calls) (Script.rescue Failure.caught
          ((Script.done ((t s).map Prod.fst)).bind fun _ =>
            .each elems fun e => upsertHolding sql (holdingTuple e))) from
      .step hstep.1 fun s _ => hstep.2 s
    cases hrow : holdingRow sql e with
    | error x =>
      simp only [Script.firstFailure, hrow, Option.all_some] at h
      have hfails : ∀ db, t db = .error x := fun db => by rw [ht, hrow]; rfl
      refine ⟨fun s hs => ?_, fun s => ?_⟩
      · rw [Script.committed, hfails]
        exact ⟨hs, rfl⟩
      · rw [hfails]
        simp only [Except.map, Script.bind, Script.rescue, h, if_true]
        exact .done ()
    | ok row =>
      simp only [Script.firstFailure, hrow] at h
      have hwrites : ∀ db : Db, t db = .ok ((), { db with portfolio := db.portfolio.upsert row }) :=
        fun db => by rw [ht, hrow]; rfl
      refine ⟨fun s hs => ?_, fun s => ?_⟩
      · rw [Script.committed, hwrites]
        exact ⟨⟨hs.spared, fun hnil => absurd hnil (Keyed.Table.upsert_ne_nil _ _)⟩, rfl⟩
      · rw [hwrites]
        exact ih h

theorem looks_migrate :
    Looks Db.watchlist (Settled sql disk calls) (migrateJsonOnce sql disk) := by
  refine .bind ?_ fun _ => ?_
  · refine .step (fun s hs => ⟨hs, rfl⟩) fun s hs => ?_
    have hrows : s.watchlist.rows.length ≠ 0 ∨ disk.watchlist.present = false := by
      obtain ⟨r, hr, -⟩ := hs.spared
      exact .inl (List.length_pos_of_mem hr).ne'
    change Looks _ _ (if _ then _ else _)
    rw [if_pos hrows]
    exact .done ()
  · refine .step (fun s hs => ⟨hs, rfl⟩) fun s hs => ?_
    change Looks _ _ (if s.portfolio.rows.length ≠ 0 ∨ disk.holdings.present = false then _ else _)
    split_ifs with hskip
    · exact .done ()
    · rw [not_or, not_ne_iff, List.length_eq_zero_iff] at hskip
      have hreturns := hs.returns hskip.1
      cases hfile : disk.holdings with
      | missing => exact absurd rfl (hfile ▸ hskip.2)
      | unreadable => exact .done ()
      | undecodable => exact .done ()
      | tooDeep => rw [hfile] at hreturns; cases hreturns
      | json rows =>
        rw [hfile, File.holdingsReturn, holdingRows] at hreturns
        change Looks _ _ (Script.rescue Failure.caught ((Script.done (iterate rows)).bind _))
        cases hiterate : iterate rows with
        | error e =>
          rw [hiterate] at hreturns
          have hcaught : e.caught = true := hreturns
          simp only [Script.bind, Script.rescue, hcaught, if_true]
          exact .done ()
        | ok elems =>
          rw [hiterate] at hreturns
          exact looks_each hreturns

/-- What follows the list is planned from the rows that were read. -/
theorem plans_listAll {c : Call} {k : List WatchItem → Script Db Failure Answer}
    (hk : ∀ data, k data = (plan c data).script sql) :
    Plans Db.watchlist (Settled sql disk calls) (fun t => (plan c (items t)).script sql)
      (listAll sql disk >>= k) := by
  rw [listAll, Script.bind_assoc]
  refine .bind looks_migrate fun _ => ?_
  rw [Script.bind_assoc]
  refine .decide (fun s hs => ⟨hs, rfl⟩) fun s hs => ?_
  have hne : s.watchlist.rows.map WatchRow.item ≠ [] := by
    obtain ⟨r, hr, -⟩ := hs.spared
    exact List.ne_nil_of_mem (List.mem_map_of_mem hr)
  change ((if s.watchlist.rows.map WatchRow.item = [] then _ else _) >>= k) = _
  rw [if_neg hne, ← hk]
  rfl

/-- **A request makes its plan of what it reads.** -/
theorem plans_script (c : Call) :
    Plans Db.watchlist (Settled sql disk calls) (fun t => (plan c (items t)).script sql)
      (c.script sql disk) := by
  have hpure : ∀ {α β : Type} (a : α) (f : α → Script Db Failure β), pure a >>= f = f a :=
    fun _ _ => rfl
  cases c with
  | listAll => exact plans_listAll fun _ => rfl
  | get code =>
    rw [Call.script, get, Script.bind_assoc]
    exact plans_listAll fun _ => rfl
  | add r =>
    rw [Call.script, add]
    split_ifs with hcode
    · exact .ready fun t => by rw [plan, if_pos hcode]; rfl
    · rw [Script.bind_assoc]
      refine plans_listAll fun data => ?_
      rw [plan, if_neg hcode]
      cases findCode data r.cleanCode with
      | some existing => rfl
      | none =>
        cases r.info >>= r.item with
        | error e => rfl
        | ok f =>
          change (saved sql f >>= _) = _
          rw [saved, Script.bind_assoc]
          rfl
  | remove code =>
    rw [Call.script, remove, Script.bind_assoc]
    refine plans_listAll fun data => ?_
    rw [plan]
    dsimp only
    split_ifs <;> rfl
  | toggleFocus code =>
    rw [Call.script, toggleFocus, change, Script.bind_assoc, Script.bind_assoc]
    refine plans_listAll fun data => ?_
    rw [plan]
    cases findCode data code with
    | none => rfl
    | some f =>
      simp only [saved, Script.bind_assoc, hpure]
      rfl
  | update code category note =>
    rw [Call.script, update, change, Script.bind_assoc]
    refine plans_listAll fun data => ?_
    rw [plan]
    cases findCode data code with
    | none => rfl
    | some f =>
      simp only [saved, Script.bind_assoc, hpure]
      rfl
  | reset =>
    refine .ready fun t => ?_
    rw [Call.script, reset, restore, Script.bind_assoc]
    rfl

end Reading

/-! ### Writing -/

section Writing

variable {sql disk} {calls : Side → Call} {db : Db}

theorem Settled.upsert (h : Settled sql disk calls db) (row : WatchRow) :
    Settled sql disk calls { db with watchlist := db.watchlist.upsert row } := by
  obtain ⟨r, hr, hspared⟩ := h.spared
  refine ⟨?_, h.returns⟩
  by_cases hcode : row.code = none ∨ r.code ≠ row.code
  · exact ⟨r, Keyed.Table.mem_upsert.2 (.inr ⟨hr, hcode⟩), hspared⟩
  · rw [not_or, not_ne_iff] at hcode
    exact ⟨row, Keyed.Table.mem_upsert.2 (.inl rfl), hcode.2 ▸ hspared⟩

theorem plan_delete {c : Call} {data : List WatchItem} {code : Str} (h : plan c data = .delete code) :
    c = .remove code := by
  unfold plan at h
  repeat' split at h
  all_goals cases h
  rfl

theorem plan_restore {c : Call} {data : List WatchItem} (h : plan c data = .restore) : c = .reset := by
  unfold plan at h
  repeat' split at h
  all_goals cases h
  rfl

/-- One removal leaves a default fund. -/
theorem exists_default (c : Call) :
    ∃ r ∈ defaultTable.rows, ∀ code, c = .remove code → r.code ≠ some code := by
  by_cases h : c = .remove (Str.ofString "005844")
  · refine ⟨_, List.mem_cons_of_mem _ List.mem_cons_self, fun code hcode => ?_⟩
    rw [h, Call.remove.injEq] at hcode
    rw [← hcode]
    decide
  · refine ⟨_, List.mem_cons_self, fun code hcode heq => h ?_⟩
    rw [hcode, Call.remove.injEq]
    exact (Option.some.inj heq).symm

/-- A plan does to the rows what its effect says, and leaves a settled list. -/
theorem performs_plan (side : Side) (data : List WatchItem) :
    Performs Db.watchlist (Settled sql disk calls) (plan (calls side) data).effect
      ((plan (calls side) data).script sql) := by
  cases hplan : plan (calls side) data with
  | answer r => exact fun _ => rfl
  | write f a =>
    refine Scripts.performs_transaction fun s hs => ?_
    have hrow := row_tuple sql f
    split_ifs at hrow with hencodable
    · exact .inl ⟨(), _, by rw [hrow]; rfl, hs.upsert (asRow f), if_pos hencodable⟩
    · exact .inr ⟨.unicode, by rw [hrow]; rfl, if_neg hencodable⟩
  | delete code =>
    refine Scripts.performs_transaction fun s hs => ?_
    by_cases hencodable : Str.encodable code = true
    · obtain ⟨r, hr, hspared⟩ := hs.spared
      refine .inl ⟨decide (code ∈ s.watchlist.keys), { s with watchlist := s.watchlist.delete code },
        ?_, ⟨⟨r, Keyed.Table.mem_delete.2 ⟨hr, hspared side code (plan_delete hplan)⟩, hspared⟩,
          hs.returns⟩, if_pos hencodable⟩
      rw [SqlValue.ofJson, if_pos hencodable]
      rfl
    · refine .inr ⟨.unicode, ?_, if_neg hencodable⟩
      rw [SqlValue.ofJson, if_neg hencodable]
      rfl
  | restore =>
    refine Scripts.performs_transaction fun s hs => .inl ⟨(), { s with watchlist := defaultTable }, ?_,
      ⟨?_, hs.returns⟩, rfl⟩
    · exact congrArg (· >>= fun table => Except.ok ((), { s with watchlist := table }))
        (insertAll_default sql)
    · obtain ⟨r, hr, hspared⟩ := exists_default (calls side.other)
      refine ⟨r, hr, fun side' code hcode => ?_⟩
      rcases side'.eq_or_eq_other side with rfl | rfl
      · rw [plan_restore hplan] at hcode
        cases hcode
      · exact hspared code hcode

end Writing

/-! ### Two requests -/

/-- Both requests, before either has begun. -/
def together (calls : Side → Call) (db : Db) : Duo Db Failure Answer :=
  { scripts := fun side => (calls side).script sql disk, state := db }

/-- The answers and the database of one request after the other. -/
def inOrder (lead : Side) (calls : Side → Call) (db : Db) : (Side → Except Failure Answer) × Db :=
  let first := ((calls lead).script sql disk).run db
  let second := ((calls lead.other).script sql disk).run first.2
  (fun side => if side = lead then first.1 else second.1, second.2)

/-- Both requests have ended, with the answers and the watchlist of one of the two orders. -/
def Serializable (calls : Side → Call) (db : Db) (d : Duo Db Failure Answer) : Prop :=
  ∃ lead, d.state.watchlist = (inOrder sql disk lead calls db).2.watchlist ∧
    ∀ side, d.scripts side = .done ((inOrder sql disk lead calls db).1 side)

/-- What `lead` writes does not disturb the plan of the other: that one writes nothing, or does to the
rows that it meets what it would have done if it had read them. -/
def Undisturbed (calls : Side → Call) (t : Rows) (lead : Side) : Prop :=
  let met := (effect (calls lead) t t).2
  (∃ r, plan (calls lead.other) (items t) = .answer r) ∨
    effect (calls lead.other) t met = effect (calls lead.other) met met

/-- The fund that a request is about. -/
def Call.about : Call → Option Str
  | .listAll => none
  | .get code => some code
  | .add r => some r.cleanCode
  | .remove code => some code
  | .toggleFocus code => some code
  | .update code _ _ => some code
  | .reset => none

/-- The requests are about two different funds, and neither is a reset. -/
def DifferentFunds (calls : Side → Call) : Prop :=
  ∃ code code', (calls .left).about = some code ∧ (calls .right).about = some code' ∧ code ≠ code'

section Requests

variable {sql disk} {calls : Side → Call} {db : Db}

/-- A request alone. -/
theorem run_script (h : Settled sql disk calls db) (side : Side) :
    Settled sql disk calls (((calls side).script sql disk).run db).2 ∧
      ((((calls side).script sql disk).run db).1, (((calls side).script sql disk).run db).2.watchlist) =
        effect (calls side) db.watchlist db.watchlist :=
  (plans_script (calls side)).run (fun t => performs_plan side (items t)) h

/-- The requests one after the other, in terms of their effects. -/
theorem serializable_of (h : Settled sql disk calls db) {d : Duo Db Failure Answer} (lead : Side)
    {first second : Except Failure Answer × Rows}
    (hfirst : effect (calls lead) db.watchlist db.watchlist = first)
    (hsecond : effect (calls lead.other) first.2 first.2 = second)
    (hlead : d.scripts lead = .done first.1) (hother : d.scripts lead.other = .done second.1)
    (hrows : d.state.watchlist = second.2) : Serializable sql disk calls db d := by
  obtain ⟨hsettled, hone⟩ := run_script h lead
  have htwo := (run_script hsettled lead.other).2
  rw [hfirst] at hone
  rw [show (((calls lead).script sql disk).run db).2.watchlist = first.2 from congrArg Prod.snd hone,
    hsecond] at htwo
  refine ⟨lead, hrows.trans (congrArg Prod.snd htwo).symm, fun side => ?_⟩
  rcases side.eq_or_eq_other lead with rfl | rfl
  · simp only [inOrder, if_true, hlead, ← congrArg Prod.fst hone]
  · simp only [inOrder, lead.other_ne, if_false, hother, ← congrArg Prod.fst htwo]

/-! ### Different funds -/

theorem findCode_items {t : Rows} {code : Str} {f : WatchItem} :
    findCode (items t) code = some f ↔ ∃ r ∈ t.rows, r.code = some code ∧ r.item = f := by
  constructor
  · intro h
    have hcode : f.code = some code := by simpa using List.find?_some h
    obtain ⟨r, hr, rfl⟩ := List.mem_map.1 (List.mem_of_find?_eq_some h)
    exact ⟨r, hr, hcode, rfl⟩
  · rintro ⟨r, hr, hcode, rfl⟩
    cases hfind : findCode (items t) code with
    | none => exact absurd hcode (findCode_eq_none_iff.1 hfind r hr)
    | some f =>
      have hfcode : f.code = some code := by simpa using List.find?_some hfind
      obtain ⟨r', hr', rfl⟩ := List.mem_map.1 (List.mem_of_find?_eq_some hfind)
      rw [t.eq_of_key hr' hr hfcode hcode]

/-- A plan depends only on the fund that the request is about. -/
theorem plan_congr {c : Call} {code : Str} {data data' : List WatchItem} (hc : c.about = some code)
    (h : findCode data code = findCode data' code) : plan c data = plan c data' := by
  have hfilter : ∀ data : List WatchItem, (data.filter fun f => f.code ≠ some code).length =
      data.length ↔ findCode data code = none := by
    intro data
    rw [List.length_filter_eq_length_iff, findCode, List.find?_eq_none]
    simp
  cases c with
  | listAll => cases hc
  | reset => cases hc
  | get code' => cases hc; rw [plan, plan, h]
  | add r => cases hc; rw [plan, plan, h]
  | remove code' => cases hc; simp only [plan, hfilter, h]
  | toggleFocus code' => cases hc; rw [plan, plan, h]
  | update code' category note => cases hc; rw [plan, plan, h]

/-- A row that a request writes is about the fund of the request. -/
theorem code_of_write {c : Call} {t : Rows} {f : WatchItem} {a : Answer}
    (h : plan c (items t) = .write f a) : c.about = f.code := by
  cases c with
  | listAll => cases h
  | get code => cases h
  | add r =>
    simp only [plan] at h
    split_ifs at h
    split at h
    · cases h
    · cases hinfo : r.info with
      | error e => rw [hinfo] at h; cases h
      | ok info =>
        rw [hinfo, show (Except.ok info >>= r.item) = r.item info from rfl] at h
        cases hitem : r.item info with
        | error e => rw [hitem] at h; cases h
        | ok g =>
          rw [hitem] at h
          cases h
          exact (code_item hitem).symm
  | remove code =>
    simp only [plan] at h
    split_ifs at h
  | toggleFocus code | update code category note =>
    simp only [plan] at h
    split at h
    · cases h
    · rename_i f' hfind
      cases h
      exact (findCode_eq_some hfind).1.symm
  | reset => cases h

theorem findCode_congr {t t' : Rows} {code : Str}
    (h : ∀ r : WatchRow, r.code = some code → (r ∈ t.rows ↔ r ∈ t'.rows)) :
    findCode (items t) code = findCode (items t') code := by
  ext f
  simp only [findCode_items]
  refine exists_congr fun r => ⟨fun hr => ?_, fun hr => ?_⟩
  · exact ⟨(h r hr.2.1).1 hr.1, hr.2⟩
  · exact ⟨(h r hr.2.1).2 hr.1, hr.2⟩

/-- A request does not change what the list says about another fund. -/
theorem findCode_effect {c : Call} {seen t : Rows} {code code' : Str} (hc : c.about = some code')
    (hne : code ≠ code') : findCode (items (effect c seen t).2) code = findCode (items t) code := by
  unfold effect
  cases hplan : plan c (items seen) with
  | answer r => rfl
  | write f a =>
    have hcode : (asRow f).code = some code' := (code_of_write hplan).symm.trans hc
    rw [Plan.effect]
    split_ifs
    · refine findCode_congr fun r hr => ?_
      rw [Keyed.Table.mem_upsert, hcode, hr]
      refine ⟨fun h => h.elim (fun hrow => ?_) And.left, fun h => .inr ⟨h, .inr (by simpa using hne)⟩⟩
      rw [hrow, hcode] at hr
      exact absurd (Option.some.inj hr).symm hne
    · rfl
  | delete gone =>
    rw [plan_delete hplan] at hc
    rw [Plan.effect]
    split_ifs
    · refine findCode_congr fun r hr => ?_
      rw [Keyed.Table.mem_delete, hr, Option.some.inj hc]
      exact and_iff_left (by simpa using hne)
    · rfl
  | restore =>
    rw [plan_restore hplan] at hc
    cases hc

theorem undisturbed_of_different (h : DifferentFunds calls) (t : Rows) (lead : Side) :
    Undisturbed calls t lead := by
  obtain ⟨code, code', hleft, hright, hne⟩ := h
  refine .inr ?_
  unfold effect
  cases lead with
  | left => rw [Side.other, plan_congr hright (findCode_effect hleft hne.symm).symm]; rfl
  | right => rw [Side.other, plan_congr hleft (findCode_effect hright hne).symm]; rfl

/-- **Two requests are serializable** in every interleaving, if they are about different funds or their
plans do not disturb each other. -/
theorem requests_serializable (hsettled : Settled sql disk calls db)
    (hfree : DifferentFunds calls ∨ ∀ lead, Undisturbed calls db.watchlist lead)
    (schedule : List Side) {d : Duo Db Failure Answer}
    (hrun : Runs.run Duo.move schedule (together sql disk calls db) = some d)
    (hended : ∀ side, (d.scripts side).finished = true) : Serializable sql disk calls db d := by
  have hplans : ∀ lead, Undisturbed calls db.watchlist lead :=
    hfree.elim (fun h lead => undisturbed_of_different h _ lead) id
  have hperforms : ∀ side t, Performs Db.watchlist (Settled sql disk calls) (effect (calls side) t)
      ((plan (calls side) (items t)).script sql) := fun side t => performs_plan side (items t)
  obtain ⟨lead, seen, hseen, hlead, hother, hrows⟩ := Scripts.two_ways hperforms schedule hsettled
    (fun side => .inl (plans_script (calls side))) hrun hended
  simp only [together] at hseen hlead hother hrows
  rcases hseen with rfl | rfl
  · -- both planned from the rows at the start
    rcases hplans lead with ⟨r, hanswer⟩ | hsame
    · have hnothing : ∀ t, effect (calls lead.other) db.watchlist t = (r, t) := by
        intro t
        rw [effect, hanswer]
        rfl
      -- the one that writes nothing comes first
      rw [hnothing] at hother hrows
      refine serializable_of hsettled lead.other (hnothing _) rfl hother ?_ ?_
      · rw [Side.other_other]
        exact hlead
      · rw [Side.other_other]
        exact hrows
    · rw [hsame] at hother hrows
      exact serializable_of hsettled lead rfl rfl hlead hother hrows
  · exact serializable_of hsettled lead rfl rfl hlead hother hrows

end Requests

/-- Both have read the list before either writes. -/
def readReadWriteWrite : List Side :=
  [.left, .left, .left, .right, .right, .right, .left, .right]

/-- The sides toggle the focus of two funds. -/
def eachItsOwn : Side → Call
  | .left => .toggleFocus firstDefault
  | .right => .toggleFocus secondFund

theorem requests_serializable_eachItsOwn :
    ∃ d, Runs.run Duo.move readReadWriteWrite (together plainSql noFiles eachItsOwn twoFunds) =
        some d ∧
      d.state.watchlist.rows.map WatchRow.focus = [1, 1] ∧
      Serializable plainSql noFiles eachItsOwn twoFunds d := by
  obtain ⟨d, hrun, hended, hfocus⟩ := Scripts.exists_ended
    (together plainSql noFiles eachItsOwn twoFunds) readReadWriteWrite
    (fun d => decide (d.state.watchlist.rows.map WatchRow.focus = [1, 1])) (by decide +kernel)
  refine ⟨d, hrun, of_decide_eq_true hfocus,
    requests_serializable ⟨?_, fun _ => rfl⟩ (.inl ?_) _ hrun hended⟩
  · refine ⟨asRow (fund "2" "" "" "" false), by decide +kernel, fun side code hcode => ?_⟩
    cases side <;> cases hcode
  · exact ⟨firstDefault, secondFund, rfl, rfl, by decide⟩

/-- Both sides toggle the focus of the one fund. -/
def twoToggles : Side → Call := fun _ => .toggleFocus firstDefault

/-- One of two toggles is lost: the fund is in focus afterwards, and in neither order would it be. -/
theorem toggle_lost :
    ∃ d, Runs.run Duo.move readReadWriteWrite (together plainSql noFiles twoToggles oneFund) = some d ∧
      (∀ side, (d.scripts side).finished = true) ∧
      ¬ Serializable plainSql noFiles twoToggles oneFund d := by
  obtain ⟨d, hrun, hended, hfocus⟩ := Scripts.exists_ended
    (together plainSql noFiles twoToggles oneFund) readReadWriteWrite
    (fun d => decide (d.state.watchlist.rows.map WatchRow.focus = [1])) (by decide +kernel)
  have hserial : ∀ lead, (inOrder plainSql noFiles lead twoToggles oneFund).2.watchlist.rows.map
      WatchRow.focus = [0] := by
    intro lead
    cases lead <;> decide +kernel
  refine ⟨d, hrun, hended, ?_⟩
  rintro ⟨lead, htable, -⟩
  have hzero := hserial lead
  rw [← htable, of_decide_eq_true hfocus] at hzero
  cases hzero

end QuantFlow.Watchlist
