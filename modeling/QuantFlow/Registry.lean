/-
**The research registry, column by column.**

`backend/app/research/registry.py` writes experiments, candidate versions and requests for approval
with three hand-written `INSERT` statements and reads an experiment back with `SELECT *`.  All columns
of the three tables are texts; JSON values are stored as their texts and parsed again.

Each function is a script: it reads in one transaction and writes in another.  A function may find
the database locked, a text may have no UTF-8 form, a stored text may be no JSON, and SQLite refuses
a row that breaks a constraint.  What the JSON parser makes of a text is an input.

Main definitions:

* `experimentsTable`, `versionsTable`, `approvalsTable` — the declarations of `database.py`;
* `createExperiment`, `getExperiment`, `createCandidate`, `requestApproval` — the functions;
* `Call`, `exec` — a call, and a sequence of calls.

Main results:

* `did_call` — **what a call can do**: it raises and changes nothing, or it adds one row;
* `extends_exec` — no sequence of calls changes a row that is there.
-/

import QuantFlow.KeyedTable
import QuantFlow.ResearchDb
import QuantFlow.Scripts
import QuantFlow.Signals
import QuantFlow.SqlTable

namespace QuantFlow.Registry

open Py (Json Str Fields)
open Scripts (Script)
open Sql (Column Schema)

/-! ### Tables -/

/-- What a column of text holds; `none` is `NULL`. -/
abbrev Text := Option Str

def text (s : String) : Text := some (Str.ofString s)

def optional (name : String) : Column Text := { name := name, admits := fun _ => true }

/-- `NOT NULL`. -/
def required (name : String) : Column Text := { name := name, admits := Option.isSome }

/-- `NOT NULL CHECK(name IN (…))`. -/
def oneOf (name : String) (allowed : List String) : Column Text :=
  { name := name, admits := fun v => allowed.any fun s => v = text s }

def experimentsTable : Schema Text :=
  ⟨[optional "experiment_id", required "created_at", required "hypothesis",
    required "research_question", required "baseline", required "candidate",
    required "train_period", required "validation_period", required "test_period",
    required "benchmark", optional "strategy_version", optional "dataset_version",
    required "parameters", required "metrics", optional "agent_thread_id",
    oneOf "status" ["draft", "accepted", "rejected", "inconclusive"], required "conclusion",
    required "warnings"]⟩

def versionsTable : Schema Text :=
  ⟨[optional "version", required "parent_version", required "change_description",
    required "experiment_id", required "created_by", required "created_at", required "metrics",
    oneOf "status" ["candidate"]]⟩

def approvalsTable : Schema Text :=
  ⟨[optional "approval_id", required "created_at", required "action", required "risk_level",
    required "reason", required "diff", required "requested_by", oneOf "status" ["pending"],
    optional "experiment_id"]⟩

/-- The text in a column of a row. -/
def textOf (s : Schema Text) (name : String) (row : List Text) : Text := (s.column row name).join

/-- A column that was named holds what was written to it. -/
theorem textOf_row {s : Schema Text} {named : List (String × Text)} {name : String} {value : Text}
    (hname : name ∈ s.names) (hvalue : named.lookup name = some value) :
    textOf s name (s.row none named) = value := by
  rw [textOf, s.column_row none named hname, hvalue]
  rfl

abbrev TableOf (s : Schema Text) (key : String) := Keyed.Table (textOf s key)

structure Db where
  experiments : TableOf experimentsTable "experiment_id"
  versions : TableOf versionsTable "version"
  approvals : TableOf approvalsTable "approval_id"

def Db.empty : Db :=
  { experiments := .empty _, versions := .empty _, approvals := .empty _ }

inductive RegistryError
  | valueError (message : String)
  | typeError
  | unicode
  | decode
  | integrity
  | operational
  deriving DecidableEq

/-- `INSERT` of named values: all are bound, and then the constraints of the table are checked. -/
def insert {s : Schema Text} {key : String} (t : TableOf s key) (named : List (String × Text)) :
    Except RegistryError (TableOf s key) :=
  if named.all fun nv => nv.2.all Str.encodable then
    if s.admits (s.row none named) then
      match t.insert (s.row none named) with
      | some t => .ok t
      | none => .error .integrity
    else .error .integrity
  else .error .unicode

/-- `REFERENCES experiments(experiment_id)`. -/
def Db.references (db : Db) (id : Text) : Bool := id.all fun s => s ∈ db.experiments.keys

/-! ### Requests -/

/-- `[a-zA-Z0-9][a-zA-Z0-9._-]{2,99}`. -/
def versionForm (s : String) : Bool :=
  match s.toList with
  | [] => false
  | c :: rest =>
    c.isAlphanum && 2 ≤ rest.length && rest.length ≤ 99 &&
      rest.all fun c => c.isAlphanum || c = '.' || c = '_' || c = '-'

structure CandidateCreate where
  version : String
  parentVersion : String
  experimentId : Str
  changeDescription : String
  createdBy : String
  form : versionForm version = true
  bounds : (1 ≤ parentVersion.length ∧ parentVersion.length ≤ 100) ∧
    (5 ≤ changeDescription.length ∧ changeDescription.length ≤ 1000) ∧
    (1 ≤ createdBy.length ∧ createdBy.length ≤ 100)

/-- What an approval can be asked for. -/
inductive Action
  | signalWeights
  | riskThreshold
  | productionStrategy
  | dataSource
  | backtestLogic
  | transactionCost
  | benchmark
  | quantPrinciple
  | databaseSchema
  | realTrade

def Action.name : Action → String
  | .signalWeights => "signal_weights"
  | .riskThreshold => "risk_threshold"
  | .productionStrategy => "production_strategy"
  | .dataSource => "data_source"
  | .backtestLogic => "backtest_logic"
  | .transactionCost => "transaction_cost"
  | .benchmark => "benchmark"
  | .quantPrinciple => "quant_principle"
  | .databaseSchema => "database_schema"
  | .realTrade => "real_trade"

inductive RiskLevel
  | medium
  | high

def RiskLevel.name : RiskLevel → String
  | .medium => "medium"
  | .high => "high"

structure ApprovalCreate where
  action : Action
  riskLevel : RiskLevel := .high
  reason : String
  diff : Fields
  requestedBy : String
  experimentId : Option Str := none
  bounds : (5 ≤ reason.length ∧ reason.length ≤ 1000) ∧
    (1 ≤ requestedBy.length ∧ requestedBy.length ≤ 100)

/-- The surroundings of a call: the first twelve digits of the new id, the text of the time, and
whether the database can be read and written. -/
structure Env where
  newId : String
  now : String
  reads : Bool
  writes : Bool

/-! ### Experiments -/

def field (name : String) (value : Json) : Str × Json := (Str.ofString name, value)

/-- The dictionary that `create_experiment` returns. -/
def experimentRow (env : Env) (req : ExperimentCreate) : Fields :=
  [field "experiment_id" (.text ("EXP-" ++ env.newId)), field "created_at" (.text env.now),
    field "hypothesis" (.text req.hypothesis),
    field "research_question" (.text req.researchQuestion),
    field "baseline" (.text req.baseline), field "candidate" (.text req.candidate),
    field "train_period" (.text req.trainPeriod),
    field "validation_period" (.text req.validationPeriod),
    field "test_period" (.text req.testPeriod), field "benchmark" (.text req.benchmark),
    field "parameters" (.obj req.parameters), field "strategy_version" .null,
    field "dataset_version" .null, field "metrics" (.obj []), field "agent_thread_id" .null,
    field "status" (.text "draft"), field "conclusion" (.text ""), field "warnings" (.arr [])]

theorem get_cons (name name' : String) (value : Json) (d : Fields) :
    Fields.get (field name value :: d) name' = if name = name' then value else Fields.get d name' := by
  by_cases h : name = name'
  · simp [Fields.get, Fields.find, field, h]
  · simp [Fields.get, Fields.find, field, h, Str.ofString_injective.eq_iff]

/-- `row[name]` of a dictionary, where it is bound to a column of text. -/
def bound (row : Fields) (name : String) : Text :=
  match Fields.get row name with
  | .str s => some s
  | _ => none

/-- The columns and the values of the `INSERT`. -/
def experimentColumns (env : Env) (req : ExperimentCreate) : List (String × Text) :=
  let row := experimentRow env req
  ["experiment_id", "created_at", "hypothesis", "research_question", "baseline", "candidate",
    "train_period", "validation_period", "test_period", "benchmark", "strategy_version",
    "dataset_version", "parameters", "metrics", "agent_thread_id", "status", "conclusion",
    "warnings"].zip
  [bound row "experiment_id", bound row "created_at", bound row "hypothesis",
    bound row "research_question", bound row "baseline", bound row "candidate",
    bound row "train_period", bound row "validation_period", bound row "test_period",
    bound row "benchmark", none, none, some (Fields.get row "parameters").dumpsRaw, text "\x7b\x7d",
    none, text "draft", text "", text "[]"]

/-- `create_experiment(req)`. -/
def createExperiment (env : Env) (req : ExperimentCreate) : Script Db RegistryError Fields := do
  .transaction fun db =>
    if env.writes then do
      let experiments ← insert db.experiments (experimentColumns env req)
      .ok ((), { db with experiments := experiments })
    else .error .operational
  pure (experimentRow env req)

variable (loads : Str → Option Json)

/-- The columns that hold JSON. -/
def jsonColumns : List String := ["parameters", "metrics", "warnings"]

/-- A column of a selected row; those that hold JSON are parsed. -/
def decodedColumn (nv : String × Text) : Except RegistryError (Str × Json) :=
  if nv.1 ∈ jsonColumns then
    match nv.2 with
    | none => .error .typeError
    | some s =>
      match loads s with
      | some x => .ok (field nv.1 x)
      | none => .error .decode
  else .ok (field nv.1 ((nv.2.map Json.str).getD .null))

/-- A selected row as a dictionary. -/
def decoded (row : List (String × Text)) : Except RegistryError Fields :=
  row.mapM (decodedColumn loads)

/-- The row of an experiment. -/
def Db.experiment (db : Db) (id : Str) : Option (List Text) :=
  db.experiments.rows.find? fun r => textOf experimentsTable "experiment_id" r = some id

/-- `get_experiment(experiment_id)`. -/
def getExperiment (reads : Bool) (id : Str) : Script Db RegistryError (Option Fields) := do
  let raw ← .transaction fun db =>
    if reads then if Str.encodable id then .ok (db.experiment id, db) else .error .unicode
    else .error .operational
  match raw with
  | none => pure none
  | some raw => do
    let row ← .lift (decoded loads (experimentsTable.dict raw))
    pure (some row)

/-! ### Candidates -/

def candidateRow (env : Env) (req : CandidateCreate) : Fields :=
  [field "version" (.text req.version), field "parent_version" (.text req.parentVersion),
    field "experiment_id" (.str req.experimentId),
    field "change_description" (.text req.changeDescription),
    field "created_by" (.text req.createdBy), field "created_at" (.text env.now),
    field "metrics" (.obj []), field "status" (.text "candidate")]

def candidateColumns (env : Env) (req : CandidateCreate) : List (String × Text) :=
  ["version", "parent_version", "change_description", "experiment_id", "created_by", "created_at",
    "metrics", "status"].zip
  [text req.version, text req.parentVersion, text req.changeDescription, some req.experimentId,
    text req.createdBy, text env.now, text "\x7b\x7d", text "candidate"]

/-- The transaction of `create_candidate`. -/
def insertCandidate (env : Env) (req : CandidateCreate) (db : Db) :
    Except RegistryError (Unit × Db) :=
  if env.writes then
    if req.parentVersion ≠ signalVersion ∧ Str.ofString req.parentVersion ∉ db.versions.keys then
      .error (.valueError "父版本不存在")
    else do
      let versions ← insert db.versions (candidateColumns env req)
      if db.references (some req.experimentId) then .ok ((), { db with versions := versions })
      else .error .integrity
  else .error .operational

/-- `create_candidate(req)`. -/
def createCandidate (env : Env) (req : CandidateCreate) : Script Db RegistryError Fields :=
  if req.version = signalVersion ∨ req.version = req.parentVersion then
    .raise (.valueError "候选版本不能覆盖现有或生产策略")
  else do
    let experiment ← getExperiment loads env.reads req.experimentId
    match experiment with
    | none => .raise (.valueError "实验不存在")
    | some _ => do
      .transaction (insertCandidate env req)
      pure (candidateRow env req)

/-! ### Approvals -/

def approvalRow (env : Env) (req : ApprovalCreate) : Fields :=
  [field "approval_id" (.text ("APR-" ++ env.newId)), field "created_at" (.text env.now),
    field "action" (.text req.action.name), field "risk_level" (.text req.riskLevel.name),
    field "reason" (.text req.reason), field "diff" (.obj req.diff),
    field "requested_by" (.text req.requestedBy),
    field "experiment_id" ((req.experimentId.map Json.str).getD .null),
    field "status" (.text "pending")]

def approvalColumns (env : Env) (req : ApprovalCreate) : List (String × Text) :=
  let row := approvalRow env req
  ["approval_id", "created_at", "action", "risk_level", "reason", "diff", "requested_by", "status",
    "experiment_id"].zip
  [bound row "approval_id", bound row "created_at", bound row "action", bound row "risk_level",
    bound row "reason", some (Fields.get row "diff").dumpsRaw, bound row "requested_by",
    text "pending", bound row "experiment_id"]

/-- The transaction of `request_approval`. -/
def insertApproval (env : Env) (req : ApprovalCreate) (db : Db) :
    Except RegistryError (Unit × Db) :=
  if env.writes then do
    let approvals ← insert db.approvals (approvalColumns env req)
    if db.references req.experimentId then .ok ((), { db with approvals := approvals })
    else .error .integrity
  else .error .operational

/-- `if req.experiment_id and get_experiment(req.experiment_id) is None: raise`. -/
def checkExperiment (reads : Bool) : Option Str → Script Db RegistryError Unit
  | none => pure ()
  | some [] => pure ()
  | some id => do
    let experiment ← getExperiment loads reads id
    match experiment with
    | none => .raise (.valueError "实验不存在")
    | some _ => pure ()

/-- `request_approval(req)`. -/
def requestApproval (env : Env) (req : ApprovalCreate) : Script Db RegistryError Fields := do
  checkExperiment loads env.reads req.experimentId
  .transaction (insertApproval env req)
  pure (approvalRow env req)

/-! ### Calls -/

inductive Call
  | createExperiment (env : Env) (req : ExperimentCreate)
  | createCandidate (env : Env) (req : CandidateCreate)
  | requestApproval (env : Env) (req : ApprovalCreate)

def Call.script : Call → Script Db RegistryError Fields
  | .createExperiment env req => Registry.createExperiment env req
  | .createCandidate env req => Registry.createCandidate loads env req
  | .requestApproval env req => Registry.requestApproval loads env req

/-- The answer to a call. -/
def answer (c : Call) (db : Db) : Except RegistryError Fields := ((c.script loads).run db).1

/-- The database after a call. -/
def after (db : Db) (c : Call) : Db := ((c.script loads).run db).2

/-- The database after a sequence of calls, some of which may raise. -/
def exec (db : Db) (calls : List Call) : Db := calls.foldl (after loads) db

/-! ### What a call can do -/

/-- What a call can do: it raises and changes nothing, or it adds one row. -/
inductive Did (db : Db) : Call → Except RegistryError Fields → Db → Prop
  | raised (c : Call) (e : RegistryError) : Did db c (.error e) db
  | experiment {env : Env} {req : ExperimentCreate}
      {experiments : TableOf experimentsTable "experiment_id"}
      (hrow : insert db.experiments (experimentColumns env req) = .ok experiments) :
      Did db (.createExperiment env req) (.ok (experimentRow env req))
        { db with experiments := experiments }
  | candidate {env : Env} {req : CandidateCreate} {versions : TableOf versionsTable "version"}
      (hversion : req.version ≠ signalVersion)
      (hparent : req.parentVersion = signalVersion ∨
        Str.ofString req.parentVersion ∈ db.versions.keys)
      (hrow : insert db.versions (candidateColumns env req) = .ok versions)
      (hexperiment : req.experimentId ∈ db.experiments.keys) :
      Did db (.createCandidate env req) (.ok (candidateRow env req)) { db with versions := versions }
  | approval {env : Env} {req : ApprovalCreate} {approvals : TableOf approvalsTable "approval_id"}
      (hrow : insert db.approvals (approvalColumns env req) = .ok approvals)
      (hexperiment : db.references req.experimentId = true) :
      Did db (.requestApproval env req) (.ok (approvalRow env req)) { db with approvals := approvals }

/-- A row that was inserted is at the end, its key was free and its table admits it. -/
theorem insert_ok {s : Schema Text} {key : String} {t t' : TableOf s key}
    {named : List (String × Text)} (h : insert t named = .ok t') :
    t'.rows = t.rows ++ [s.row none named] ∧ s.admits (s.row none named) = true ∧
      t.free (textOf s key (s.row none named)) = true := by
  unfold insert at h
  split at h
  · split at h
    · rename_i hadmits
      cases hrow : t.insert (s.row none named) with
      | none =>
        rw [hrow] at h
        cases h
      | some inserted =>
        rw [hrow] at h
        cases h
        refine ⟨Keyed.Table.rows_insert hrow, hadmits, ?_⟩
        -- a taken key would have kept the row out
        by_contra htaken
        rw [Bool.not_eq_true, ← Keyed.Table.insert_eq_none_iff, hrow] at htaken
        cases htaken
    · cases h
  · cases h

/-- Three things can keep a row out: a value without UTF-8 form, a constraint, or its key. -/
theorem insert_returns_iff {s : Schema Text} {key : String} {t : TableOf s key}
    {named : List (String × Text)} :
    (∃ t', insert t named = .ok t') ↔
      (named.all fun nv => nv.2.all Str.encodable) = true ∧ s.admits (s.row none named) = true ∧
        t.free (textOf s key (s.row none named)) = true := by
  constructor
  · rintro ⟨t', h⟩
    obtain ⟨-, hadmits, hfree⟩ := insert_ok h
    refine ⟨?_, hadmits, hfree⟩
    by_contra hencodable
    rw [insert, if_neg hencodable] at h
    cases h
  · rintro ⟨hencodable, hadmits, hfree⟩
    rw [insert, if_pos hencodable, if_pos hadmits, Keyed.Table.insert, dif_pos hfree]
    exact ⟨_, rfl⟩

theorem run_getExperiment (reads : Bool) (id : Str) (db : Db) :
    ∃ result, (getExperiment loads reads id).run db = (result, db) := by
  unfold getExperiment
  rw [Script.run_bind]
  by_cases hreads : reads = true ∧ Str.encodable id = true
  · have hread : (if reads then if Str.encodable id then
        (.ok (db.experiment id, db) : Except RegistryError (Option (List Text) × Db))
        else .error .unicode else .error .operational) = .ok (db.experiment id, db) := by
      simp [hreads]
    rw [Script.run_transaction_ok hread]
    cases db.experiment id with
    | none => exact ⟨_, rfl⟩
    | some row =>
      cases hrow : decoded loads (experimentsTable.dict row) with
      | error e => exact ⟨.error e, by simp only [hrow]; rfl⟩
      | ok fields => exact ⟨.ok (some fields), by simp only [hrow]; rfl⟩
  · obtain ⟨e, he⟩ : ∃ e, (if reads then if Str.encodable id then
        (.ok (db.experiment id, db) : Except RegistryError (Option (List Text) × Db))
        else .error .unicode else .error .operational) = .error e := by
      cases reads with
      | false => exact ⟨.operational, rfl⟩
      | true => exact ⟨.unicode, by simpa using hreads⟩
    rw [Script.run_transaction_error he]
    exact ⟨.error e, rfl⟩

theorem run_checkExperiment (reads : Bool) (id : Option Str) (db : Db) :
    ∃ result, (checkExperiment loads reads id).run db = (result, db) := by
  match id with
  | none => exact ⟨_, rfl⟩
  | some [] => exact ⟨_, rfl⟩
  | some (c :: id) =>
    unfold checkExperiment
    obtain ⟨result, hrun⟩ := run_getExperiment loads reads (c :: id) db
    match result, hrun with
    | .error e, hrun => exact ⟨_, Script.run_bind_error hrun _⟩
    | .ok none, hrun => exact ⟨_, Script.run_bind_ok hrun _⟩
    | .ok (some row), hrun => exact ⟨_, Script.run_bind_ok hrun _⟩

/-- A function that ends with one transaction, after which it only returns. -/
theorem run_last {α : Type} (t : Db → Except RegistryError (Unit × Db)) (a : α) (db : Db) :
    (Script.transaction t >>= fun _ => pure a).run db =
      match t db with
      | .ok (_, db') => (.ok a, db')
      | .error e => (.error e, db) := by
  cases h : t db with
  | error e => rw [Script.run_bind_error (Script.run_transaction_error h)]
  | ok result =>
    rw [Script.run_bind_ok (Script.run_transaction_ok h)]
    rfl

theorem did_createExperiment (env : Env) (req : ExperimentCreate) (db : Db) :
    Did db (.createExperiment env req) ((createExperiment env req).run db).1
      ((createExperiment env req).run db).2 := by
  unfold createExperiment
  rw [run_last]
  cases env.writes with
  | false => exact .raised _ _
  | true =>
    cases hrow : insert db.experiments (experimentColumns env req) with
    | error e => exact .raised _ _
    | ok experiments => exact .experiment hrow

theorem did_createCandidate (env : Env) (req : CandidateCreate) (db : Db) :
    Did db (.createCandidate env req) ((createCandidate loads env req).run db).1
      ((createCandidate loads env req).run db).2 := by
  unfold createCandidate
  split
  · exact .raised _ _
  · rename_i hversion
    rw [not_or] at hversion
    obtain ⟨result, hrun⟩ := run_getExperiment loads env.reads req.experimentId db
    match result, hrun with
    | .error e, hrun =>
      rw [Script.run_bind_error hrun]
      exact .raised _ _
    | .ok none, hrun =>
      rw [Script.run_bind_ok hrun]
      exact .raised _ _
    | .ok (some row), hrun =>
      rw [Script.run_bind_ok hrun]
      simp only
      -- only this transaction writes, and what fails in it leaves the tables
      rw [run_last, insertCandidate]
      cases env.writes with
      | false => exact .raised _ _
      | true =>
        by_cases hparent : req.parentVersion ≠ signalVersion ∧
            Str.ofString req.parentVersion ∉ db.versions.keys
        · rw [if_pos rfl, if_pos hparent]
          exact .raised _ _
        · rw [if_pos rfl, if_neg hparent]
          rw [not_and_or, not_not, not_not] at hparent
          cases hrow : insert db.versions (candidateColumns env req) with
          | error e => exact .raised _ _
          | ok versions =>
            by_cases hexperiment : db.references (some req.experimentId) = true
            · simp only [hexperiment]
              exact .candidate hversion.1 hparent hrow (by simpa [Db.references] using hexperiment)
            · simp only [hexperiment]
              exact .raised _ _

theorem did_requestApproval (env : Env) (req : ApprovalCreate) (db : Db) :
    Did db (.requestApproval env req) ((requestApproval loads env req).run db).1
      ((requestApproval loads env req).run db).2 := by
  unfold requestApproval
  obtain ⟨result, hrun⟩ := run_checkExperiment loads env.reads req.experimentId db
  match result, hrun with
  | .error e, hrun =>
    rw [Script.run_bind_error hrun]
    exact .raised _ _
  | .ok (), hrun =>
    rw [Script.run_bind_ok hrun, run_last, insertApproval]
    cases env.writes with
    | false => exact .raised _ _
    | true =>
      cases hrow : insert db.approvals (approvalColumns env req) with
      | error e => exact .raised _ _
      | ok approvals =>
        by_cases hexperiment : db.references req.experimentId = true
        · simp only [hexperiment]
          exact .approval hrow hexperiment
        · simp only [hexperiment]
          exact .raised _ _

/-- **What a call can do**: it raises and changes nothing, or it adds one row. -/
theorem did_call (c : Call) (db : Db) : Did db c (answer loads c db) (after loads db c) := by
  cases c with
  | createExperiment env req => exact did_createExperiment env req db
  | createCandidate env req => exact did_createCandidate loads env req db
  | requestApproval env req => exact did_requestApproval loads env req db

theorem after_of_error {db : Db} {c : Call} {e : RegistryError} (h : answer loads c db = .error e) :
    after loads db c = db := by
  have hdid := did_call loads c db
  rw [h] at hdid
  generalize after loads db c = db' at hdid ⊢
  cases hdid with
  | raised => rfl

/-- The rows that are there stay, in their places. -/
structure Extends (db db' : Db) : Prop where
  experiments : db.experiments.rows <+: db'.experiments.rows
  versions : db.versions.rows <+: db'.versions.rows
  approvals : db.approvals.rows <+: db'.approvals.rows

theorem Extends.refl (db : Db) : Extends db db :=
  ⟨List.prefix_rfl, List.prefix_rfl, List.prefix_rfl⟩

theorem Extends.trans {db db' db'' : Db} (h : Extends db db') (h' : Extends db' db'') :
    Extends db db'' :=
  ⟨h.experiments.trans h'.experiments, h.versions.trans h'.versions, h.approvals.trans h'.approvals⟩

theorem extends_after (db : Db) (c : Call) : Extends db (after loads db c) := by
  have hdid := did_call loads c db
  generalize answer loads c db = result at hdid
  generalize after loads db c = db' at hdid ⊢
  cases hdid with
  | raised => exact .refl db
  | experiment hrow =>
    exact ⟨⟨_, (insert_ok hrow).1.symm⟩, List.prefix_rfl, List.prefix_rfl⟩
  | candidate hversion hparent hrow hexperiment =>
    exact ⟨List.prefix_rfl, ⟨_, (insert_ok hrow).1.symm⟩, List.prefix_rfl⟩
  | approval hrow hexperiment =>
    exact ⟨List.prefix_rfl, List.prefix_rfl, ⟨_, (insert_ok hrow).1.symm⟩⟩

theorem extends_exec (db : Db) (calls : List Call) : Extends db (exec loads db calls) := by
  induction calls generalizing db with
  | nil => exact .refl db
  | cons c calls ih => exact (extends_after loads db c).trans (ih (after loads db c))

end QuantFlow.Registry
