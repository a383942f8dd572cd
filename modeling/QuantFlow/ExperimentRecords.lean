/-
**Experiment records read back as they were returned.**

`create_experiment` returns a dictionary and stores eighteen columns, whose names and values stand in
two lists; `get_experiment` reads the columns by their names and parses three of them.  Each column
reads back as the entry of its name, so the two dictionaries agree, whatever the order of the columns
is.  The row stays where it is, so they agree after any further calls.

Main definitions:

* `SameDict` — equality of dictionaries;
* `Represents` — the rows of the table as columns of text.

Main results:

* `createExperiment_refines` — the columns follow the rows of `ResearchDb.lean`;
* `experiment_round_trips` — **a record reads back as it was returned**, at once
  and after any further calls.
-/

import Mathlib.Tactic.FinCases
import QuantFlow.Registry

namespace QuantFlow.Registry

open Py (Json Str Fields)
open Scripts (Script)

/-- Equality of dictionaries: the same keys with the same values. -/
def SameDict (d d' : Fields) : Prop :=
  ∀ k : Str, (d.find? fun f => f.1 = k).map Prod.snd = (d'.find? fun f => f.1 = k).map Prod.snd

/-- The entries of a dictionary by another list of its keys. -/
theorem sameDict_of_keys {names : List String} {d : Fields}
    (h : ∀ k, k ∈ d.map Prod.fst ↔ k ∈ names.map Str.ofString) :
    SameDict (names.map fun name => field name (Fields.get d name)) d := by
  intro k
  rw [List.find?_map]
  -- a key is one of the names and found on both sides, or on neither
  cases hnames : names.find? ((fun f => decide (f.1 = k)) ∘ fun name =>
      field name (Fields.get d name)) with
  | none =>
    have hd : (d.find? fun f => f.1 = k) = none := by
      rw [List.find?_eq_none] at hnames ⊢
      intro f hf hk
      obtain ⟨name, hname, heq⟩ := List.mem_map.1 ((h f.1).1 (List.mem_map_of_mem hf))
      have hother := hnames name hname
      simp only [Function.comp_apply, field, heq] at hother
      exact hother hk
    rw [hd]
    rfl
  | some name =>
    have hk : Str.ofString name = k := by simpa [field] using List.find?_some hnames
    have hmem := List.mem_map_of_mem (f := Str.ofString) (List.mem_of_find?_eq_some hnames)
    obtain ⟨f, hf, heq⟩ := List.mem_map.1 ((h (Str.ofString name)).2 hmem)
    subst hk
    cases hd : d.find? fun f => decide (f.1 = Str.ofString name) with
    | none =>
      rw [List.find?_eq_none] at hd
      exact absurd (decide_eq_true heq) (hd f hf)
    | some f' => simp [field, Fields.get, Fields.find, hd]

/-! ### A record and its columns -/

/-- The columns of a record as they are stored. -/
def storedExperiment (env : Env) (req : ExperimentCreate) : List Text :=
  experimentsTable.row none (experimentColumns env req)

/-- The id of a record. -/
def experimentId (env : Env) : Str := Str.ofString ("EXP-" ++ env.newId)

section Decode

variable {loads : Str → Option Json} {env : Env} {req : ExperimentCreate}

/-- Columns that each decode to a value of their own make a dictionary. -/
theorem decoded_ok (value : String → Json) {row : List (String × Text)}
    (h : ∀ nv ∈ row, decodedColumn loads nv = .ok (field nv.1 (value nv.1))) :
    decoded loads row = .ok (row.map fun nv => field nv.1 (value nv.1)) := by
  induction row with
  | nil => rfl
  | cons nv row ih =>
    have hfirst := h nv List.mem_cons_self
    have hrest := ih fun nv' hmem => h nv' (List.mem_cons_of_mem nv hmem)
    rw [decoded] at hrest ⊢
    rw [List.mapM_cons, hfirst, hrest]
    rfl

/-- A column of text holds the entry of its name. -/
theorem text_column {name : String} (hname : name ∈ experimentsTable.names)
    (htext : name ∉ jsonColumns) :
    ((((experimentColumns env req).lookup name).getD none).map Json.str).getD .null =
      Fields.get (experimentRow env req) name := by
  fin_cases hname
  all_goals simp [jsonColumns, required, optional, oneOf] at htext
  all_goals
    simp [experimentColumns, experimentRow, bound, get_cons, List.lookup_cons, required, optional, oneOf,
      Json.text, text]

/-- A column of JSON holds the text of the entry of its name. -/
theorem json_column {name : String} (h : name ∈ jsonColumns) :
    ((experimentColumns env req).lookup name).getD none =
      some (Fields.get (experimentRow env req) name).dumpsRaw := by
  fin_cases h
  all_goals simp only [experimentColumns, List.zip_cons_cons, experimentRow, get_cons,
    List.lookup_cons]
  all_goals rfl

theorem json_entry {name : String} (h : name ∈ jsonColumns) :
    Fields.get (experimentRow env req) name ∈ [Json.obj req.parameters, .obj [], .arr []] := by
  fin_cases h
  all_goals simp [experimentRow, get_cons]

/-- A stored record decodes to the entries of the dictionary that was returned. -/
theorem decoded_stored
    (hloads : ∀ x ∈ [Json.obj req.parameters, .obj [], .arr []], loads x.dumpsRaw = some x) :
    decoded loads (experimentsTable.dict (storedExperiment env req)) =
      .ok (experimentsTable.names.map fun name =>
        field name (Fields.get (experimentRow env req) name)) := by
  rw [storedExperiment, Sql.Schema.dict_row, decoded_ok (Fields.get (experimentRow env req))]
  · simp only [List.map_map, Function.comp_def]
  · intro nv hnv
    obtain ⟨name, hname, rfl⟩ := List.mem_map.1 hnv
    by_cases hjson : name ∈ jsonColumns
    · rw [decodedColumn, if_pos hjson, json_column hjson]
      simp only [hloads _ (json_entry hjson)]
    · rw [decodedColumn, if_neg hjson, text_column hname hjson]

theorem mem_keys_experimentRow (k : Str) :
    k ∈ (experimentRow env req).map Prod.fst ↔ k ∈ experimentsTable.names.map Str.ofString := by
  have hperm : ["experiment_id", "created_at", "hypothesis", "research_question", "baseline",
      "candidate", "train_period", "validation_period", "test_period", "benchmark", "parameters",
      "strategy_version", "dataset_version", "metrics", "agent_thread_id", "status", "conclusion",
      "warnings"].Perm experimentsTable.names := by
    decide
  have hkeys : (experimentRow env req).map Prod.fst = ["experiment_id", "created_at", "hypothesis",
      "research_question", "baseline", "candidate", "train_period", "validation_period",
      "test_period", "benchmark", "parameters", "strategy_version", "dataset_version", "metrics",
      "agent_thread_id", "status", "conclusion", "warnings"].map Str.ofString := by
    simp only [experimentRow, field, List.map_cons, List.map_nil]
  rw [hkeys]
  exact (hperm.map Str.ofString).mem_iff

end Decode

/-! ### The columns follow the rows -/

def statusName : ExperimentStatus → String
  | .draft => "draft"
  | .accepted => "accepted"
  | .rejected => "rejected"
  | .inconclusive => "inconclusive"

/-- The columns of a row. -/
def columnsOf (row : ExperimentRow) : List Text :=
  [text row.experimentId, text row.createdAt, text row.request.hypothesis,
    text row.request.researchQuestion, text row.request.baseline, text row.request.candidate,
    text row.request.trainPeriod, text row.request.validationPeriod, text row.request.testPeriod,
    text row.request.benchmark, row.strategyVersion.bind text, row.datasetVersion.bind text,
    some (Json.obj row.request.parameters).dumpsRaw, some (Json.obj row.metrics).dumpsRaw,
    row.agentThreadId.bind text, text (statusName row.status), text row.conclusion,
    some (Json.arr (row.warnings.map Json.text)).dumpsRaw]

/-- The columns hold the rows. -/
def Represents (db : Db) (t : Tables) : Prop := db.experiments.rows = t.experiments.map columnsOf

theorem storedExperiment_eq (env : Env) (req : ExperimentCreate) :
    storedExperiment env req = columnsOf (rowOf env.newId env.now req) := by
  rfl

theorem textOf_columnsOf (row : ExperimentRow) :
    textOf experimentsTable "experiment_id" (columnsOf row) = text row.experimentId := by
  rfl

/-- The values of a record can be bound when its parameters have a UTF-8 form. -/
theorem encodable_experimentColumns (env : Env) (req : ExperimentCreate) :
    ((experimentColumns env req).all fun nv => nv.2.all Str.encodable) =
      Py.encodableFields req.parameters := by
  have hparameters : Str.encodable (Json.obj req.parameters).dumpsRaw =
      Py.encodableFields req.parameters := Json.encodable_dumpsRaw (.obj req.parameters)
  simp [experimentColumns, experimentRow, bound, get_cons, Json.text, text, hparameters]

theorem free_iff_of_represents {db : Db} {t : Tables} (h : Represents db t) (env : Env)
    (req : ExperimentCreate) :
    db.experiments.free (textOf experimentsTable "experiment_id" (storedExperiment env req)) = true ↔
      (t.experiments.all fun r => r.experimentId ≠ (rowOf env.newId env.now req).experimentId) =
        true := by
  rw [storedExperiment_eq, textOf_columnsOf, Keyed.Table.free_iff, h, List.all_eq_true]
  simp [textOf_columnsOf, text, Str.ofString_injective.eq_iff]

/-- The row is inserted in the columns exactly when it is inserted in the rows. -/
theorem insert_returns_iff_admits {db : Db} {t : Tables} (h : Represents db t) (env : Env)
    (req : ExperimentCreate) :
    (∃ experiments, insert db.experiments (experimentColumns env req) = .ok experiments) ↔
      t.admits (rowOf env.newId env.now req) = true := by
  have hadmits : experimentsTable.admits (storedExperiment env req) = true := by
    simp [storedExperiment_eq, Sql.Schema.admits, experimentsTable, columnsOf, rowOf, required,
      optional, oneOf, text, statusName]
  rw [insert_returns_iff, encodable_experimentColumns, Tables.admits, Bool.and_eq_true,
    ← free_iff_of_represents h env req]
  constructor
  · rintro ⟨hencodable, -, hfree⟩
    exact ⟨hencodable, hfree⟩
  · rintro ⟨hencodable, hfree⟩
    exact ⟨hencodable, hadmits, hfree⟩

theorem run_createExperiment_ok {db : Db} {env : Env} {req : ExperimentCreate}
    {experiments : TableOf experimentsTable "experiment_id"} (hwrites : env.writes = true)
    (hrow : insert db.experiments (experimentColumns env req) = .ok experiments) :
    (createExperiment env req).run db =
      (.ok (experimentRow env req), { db with experiments := experiments }) := by
  rw [createExperiment, run_last, hwrites, hrow]
  rfl

theorem run_createExperiment_error {db : Db} {env : Env} {req : ExperimentCreate}
    (h : ¬(env.writes = true ∧
      ∃ experiments, insert db.experiments (experimentColumns env req) = .ok experiments)) :
    ∃ e, (createExperiment env req).run db = (.error e, db) := by
  rw [createExperiment, run_last]
  cases hwrites : env.writes with
  | false => exact ⟨_, rfl⟩
  | true =>
    cases hrow : insert db.experiments (experimentColumns env req) with
    | error e => exact ⟨e, rfl⟩
    | ok experiments => exact absurd ⟨hwrites, experiments, hrow⟩ h

/-- **`create_experiment` of the columns follows that of the rows**: both return or both raise, and
the columns hold the rows again. -/
theorem createExperiment_refines {db : Db} {t : Tables} (h : Represents db t) (env : Env)
    (req : ExperimentCreate) :
    match QuantFlow.createExperiment env.writes env.newId env.now req t with
    | .ok (_, t') => ∃ db', (createExperiment env req).run db = (.ok (experimentRow env req), db') ∧
        Represents db' t'
    | .error _ => ∃ e, (createExperiment env req).run db = (.error e, db) := by
  have hinsert := insert_returns_iff_admits h env req
  cases hcreated : QuantFlow.createExperiment env.writes env.newId env.now req t with
  | ok result =>
    obtain ⟨row, t'⟩ := result
    obtain ⟨⟨hwrites, hadmits⟩, rfl, rfl⟩ := createExperiment_ok_iff.1 hcreated
    obtain ⟨experiments, hrow⟩ := hinsert.2 hadmits
    refine ⟨_, run_createExperiment_ok hwrites hrow, ?_⟩
    rw [Represents, (insert_ok hrow).1, h, List.map_append]
    rfl
  | error e =>
    refine run_createExperiment_error ?_
    rintro ⟨hwrites, hreturns⟩
    rw [createExperiment_ok_iff.2 ⟨⟨hwrites, hinsert.1 hreturns⟩, rfl, rfl⟩] at hcreated
    cases hcreated

/-! ### Reading back -/

theorem experiment_of_mem {db : Db} {row : List Text} {id : Str} (hmem : row ∈ db.experiments.rows)
    (hid : textOf experimentsTable "experiment_id" row = some id) : db.experiment id = some row := by
  unfold Db.experiment
  cases hfind : db.experiments.rows.find? fun r =>
      decide (textOf experimentsTable "experiment_id" r = some id) with
  | none =>
    rw [List.find?_eq_none] at hfind
    exact absurd (decide_eq_true hid) (hfind row hmem)
  | some found =>
    have hfound : textOf experimentsTable "experiment_id" found = some id := by
      simpa using List.find?_some hfind
    rw [db.experiments.eq_of_key (List.mem_of_find?_eq_some hfind) hmem hfound hid]

theorem run_getExperiment_found {loads : Str → Option Json} {db : Db} {row : List Text} {id : Str}
    {read : Fields} (hid : Str.encodable id = true) (hrow : db.experiment id = some row)
    (hread : decoded loads (experimentsTable.dict row) = .ok read) :
    (getExperiment loads true id).run db = (.ok (some read), db) := by
  unfold getExperiment
  rw [Script.run_bind_ok (Script.run_transaction_ok (by rw [hid]; rfl)), hrow]
  simp only [hread]
  rfl

/-- **A record reads back as it was returned**, at once and after any further calls. -/
theorem experiment_round_trips {loads : Str → Option Json} {db : Db} {env : Env}
    {req : ExperimentCreate} {row : Fields}
    (hloads : ∀ x ∈ [Json.obj req.parameters, .obj [], .arr []], loads x.dumpsRaw = some x)
    (hcreated : answer loads (.createExperiment env req) db = .ok row) (later : List Call) :
    ∃ id read, Fields.get row "experiment_id" = .str id ∧
      ((getExperiment loads true id).run
        (exec loads (after loads db (.createExperiment env req)) later)).1 = .ok (some read) ∧
      SameDict read row := by
  have hdid := did_call loads (.createExperiment env req) db
  have hextends := extends_exec loads (after loads db (.createExperiment env req)) later
  rw [hcreated] at hdid
  generalize after loads db (.createExperiment env req) = db' at hdid hextends
  cases hdid with
  | @experiment _ _ experiments hrow =>
    have hstored : storedExperiment env req ∈
        (exec loads { db with experiments := experiments } later).experiments.rows := by
      refine hextends.experiments.subset ?_
      rw [(insert_ok hrow).1]
      exact List.mem_append_right _ (List.mem_singleton_self _)
    have hfound : (exec loads { db with experiments := experiments } later).experiment
        (experimentId env) = some (storedExperiment env req) :=
      experiment_of_mem hstored (textOf_row (by decide) rfl)
    have hid : Fields.get (experimentRow env req) "experiment_id" = .str (experimentId env) := by
      rw [experimentRow, get_cons, if_pos rfl]
      rfl
    refine ⟨experimentId env, _, hid, ?_, sameDict_of_keys mem_keys_experimentRow⟩
    exact congrArg Prod.fst
      (run_getExperiment_found (Str.encodable_ofString _) hfound (decoded_stored hloads))

/-- A request, with one parameter. -/
def sampleRequest : ExperimentCreate where
  hypothesis := "12345"
  researchQuestion := "12345"
  baseline := "a"
  candidate := "b"
  trainPeriod := "c"
  validationPeriod := "d"
  testPeriod := "e"
  benchmark := "f"
  parameters := [field "k" (.int 5)]
  bounds := by decide

def sampleEnv : Env := { newId := "0", now := "1", reads := true, writes := true }

/-- `json.loads`, on the texts that are stored here. -/
def sampleLoads (s : Str) : Option Json :=
  [Json.obj sampleRequest.parameters, .obj [], .arr []].find? fun x => x.dumpsRaw = s

/-- The request again, a moment later. -/
def nextEnv : Env := { sampleEnv with newId := "1", now := "2" }

theorem experiment_round_trips_sample :
    let db := after sampleLoads Db.empty (.createExperiment sampleEnv sampleRequest)
    (∀ x ∈ [Json.obj sampleRequest.parameters, .obj [], .arr []], sampleLoads x.dumpsRaw = some x) ∧
    answer sampleLoads (.createExperiment sampleEnv sampleRequest) Db.empty =
      .ok (experimentRow sampleEnv sampleRequest) ∧
    answer sampleLoads (.createExperiment nextEnv sampleRequest) db =
      .ok (experimentRow nextEnv sampleRequest) ∧
    ∃ id read, Fields.get (experimentRow sampleEnv sampleRequest) "experiment_id" = .str id ∧
      ((getExperiment sampleLoads true id).run
        (exec sampleLoads db [.createExperiment nextEnv sampleRequest])).1 = .ok (some read) ∧
      SameDict read (experimentRow sampleEnv sampleRequest) := by
  have hloads : ∀ x ∈ [Json.obj sampleRequest.parameters, .obj [], .arr []],
      sampleLoads x.dumpsRaw = some x := by
    simp only [List.forall_mem_cons]
    refine ⟨rfl, rfl, rfl, ?_⟩
    intro x hx
    cases hx
  exact ⟨hloads, rfl, rfl, experiment_round_trips hloads rfl [.createExperiment nextEnv sampleRequest]⟩

end QuantFlow.Registry
