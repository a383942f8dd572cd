/-
**The research tables.**

`backend/app/research/registry.py` keeps experiments, candidate versions and requests for approval
in a SQLite database, and the agent bridge records each tool call there.  A table is the list of
its rows in the order of insertion.  Columns that hold JSON text hold the value here.

SQLite refuses a row whose primary key is taken, that leaves a `NOT NULL` column empty, or that it
cannot bind; whether it accepts any other write is an input.  A refused write changes nothing.

Main definitions:

* `ExperimentCreate`, `ExperimentRow` — a request, and the row made of it;
* `Tables` — the tables;
* `createExperiment`, `getExperiment`, `listExperiments` — the operations on experiments.

Main results:

* `createExperiment_ok_iff` — when a row is inserted, and what changes.
-/

import Mathlib.Data.List.Infix
import QuantFlow.PyValues
import QuantFlow.Schemas

namespace QuantFlow

/-! ### Rows and tables -/

/-- The request for a new experiment. -/
structure ExperimentCreate where
  hypothesis : String
  researchQuestion : String
  baseline : String
  candidate : String
  trainPeriod : String
  validationPeriod : String
  testPeriod : String
  benchmark : String
  parameters : Py.Fields
  bounds : (∀ s ∈ [hypothesis, researchQuestion], 5 ≤ s.length ∧ s.length ≤ 1000) ∧
    ∀ s ∈ [baseline, candidate, trainPeriod, validationPeriod, testPeriod, benchmark],
      1 ≤ s.length ∧ s.length ≤ 100

inductive ExperimentStatus
  | draft
  | accepted
  | rejected
  | inconclusive
  deriving DecidableEq

structure ExperimentRow where
  experimentId : String
  createdAt : String
  request : ExperimentCreate
  strategyVersion : Option String := none
  datasetVersion : Option String := none
  metrics : Py.Fields := []
  agentThreadId : Option String := none
  status : ExperimentStatus := .draft
  conclusion : String := ""
  warnings : List String := []

structure VersionRow where
  version : String
  parentVersion : String
  changeDescription : String
  experimentId : String
  createdBy : String
  createdAt : String
  metrics : Py.Fields

structure ApprovalRow where
  approvalId : String
  createdAt : String
  action : String
  riskLevel : String
  reason : String
  diff : Py.Fields
  requestedBy : String
  experimentId : Option String

/-- The tables the agent may not change through a failed call. -/
structure Tables where
  experiments : List ExperimentRow
  strategyVersions : List VersionRow
  approvals : List ApprovalRow

/-! ### Experiments -/

/-- The row of a request. -/
def rowOf (id now : String) (req : ExperimentCreate) : ExperimentRow :=
  { experimentId := "EXP-" ++ id, createdAt := now, request := req }

/-- SQLite takes the row: its key is free and its JSON text has a UTF-8 form. -/
def Tables.admits (t : Tables) (row : ExperimentRow) : Bool :=
  Py.encodableFields row.request.parameters &&
    t.experiments.all fun r => r.experimentId ≠ row.experimentId

/-- `create_experiment(req)`, with the new id, the time text and whether the database accepts
writes. -/
def createExperiment (accepts : Bool) (id now : String) (req : ExperimentCreate) (t : Tables) :
    Except PyError (ExperimentRow × Tables) :=
  let row := rowOf id now req
  if accepts && t.admits row then
    .ok (row, { t with experiments := t.experiments ++ [row] })
  else .error .database

/-- `get_experiment(experiment_id)`. -/
def getExperiment (t : Tables) (id : String) : Option ExperimentRow :=
  t.experiments.find? fun r => r.experimentId = id

/-- `list_experiments(limit)`: newest first by the text of the time. -/
def listExperiments (t : Tables) (limit : ℕ) : List ExperimentRow :=
  ((t.experiments.mergeSort fun a b => b.createdAt ≤ a.createdAt).take limit).filterMap fun r =>
    getExperiment t r.experimentId

/-- A row is inserted exactly when the database takes it, and then it is added at the end. -/
theorem createExperiment_ok_iff {accepts : Bool} {id now : String} {req : ExperimentCreate}
    {t t' : Tables} {row : ExperimentRow} :
    createExperiment accepts id now req t = .ok (row, t') ↔
      (accepts = true ∧ t.admits (rowOf id now req) = true) ∧ row = rowOf id now req ∧
        t' = { t with experiments := t.experiments ++ [row] } := by
  unfold createExperiment
  by_cases h : (accepts && t.admits (rowOf id now req)) = true
  · rw [if_pos h]
    rw [Bool.and_eq_true] at h
    constructor
    · intro heq
      cases heq
      exact ⟨h, rfl, rfl⟩
    · rintro ⟨-, rfl, rfl⟩
      rfl
  · rw [if_neg h]
    rw [Bool.and_eq_true] at h
    constructor
    · intro heq
      cases heq
    · rintro ⟨hok, -⟩
      exact absurd hok h

end QuantFlow
