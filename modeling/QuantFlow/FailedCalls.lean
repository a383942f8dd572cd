/-
**What a failed tool call leaves behind.**

`experiment.create` is the one tool that writes to the research tables.  It commits its row, and
only then does `invoke` look at the size of the result, and only then does the bridge insert the
audit row, in a transaction of its own.  A refusal at either of the later points turns the result
into a failure and leaves the experiment where it is.

Main definitions:

* `Inserts` — the call inserts the experiment of a request;
* `Presentable`, `Auditable` — the result has a short text; the call can be recorded.

Main results:

* `invoke_cases` — `invoke` inserts one experiment, or it leaves the tables alone;
* `failed_call_keeps_tables_iff` — **a failed call leaves the tables alone exactly when
  every experiment it inserts can be presented and audited**.
-/

import QuantFlow.AgentBridge

namespace QuantFlow

open Py (Json Key Str Fields)

/-! ### What a call can insert -/

/-- The row a request would become. -/
def draft (env : ToolEnv) (req : ExperimentCreate) : ExperimentRow :=
  rowOf env.newId env.nowText req

/-- The tables with a row added. -/
def Tables.add (t : Tables) (row : ExperimentRow) : Tables :=
  { t with experiments := t.experiments ++ [row] }

theorem Tables.add_ne (t : Tables) (row : ExperimentRow) : t.add row ≠ t := by
  intro h
  have hlen := congrArg (fun t => t.experiments.length) h
  simp [Tables.add] at hlen

/-- The call inserts the experiment of a request: it names the tool, its arguments pass the schema,
and the database takes the row. -/
structure Inserts (host : Host) (env : ToolEnv) (name : Str) (arguments : Fields) (t : Tables)
    (req : ExperimentCreate) : Prop where
  tool : name = Str.ofString Tool.experimentCreate.name
  valid : host.validator.validate .experimentCreate arguments = some (.experimentCreate req)
  accepted : env.accepts = true
  admitted : t.admits (draft env req) = true

/-- The result for the row has a text of at most 30000 characters. -/
def Presentable (host : Host) (env : ToolEnv) (req : ExperimentCreate) : Prop :=
  ∃ text, host.render (created (draft env req)) = some text ∧ text.length ≤ 30000

variable {host : Host}

theorem tables_research (env : ToolEnv) (tool : Tool) (ev : Evidence) (w : World) :
    (research host env tool ev w).2.tables = w.tables := by
  unfold research
  simp only
  split <;> rfl

theorem tables_newsSearch (env : ToolEnv) (args : NewsSearch) (w : World) :
    (newsSearch env args w).2.tables = w.tables := by
  unfold newsSearch
  simp only
  split <;> rfl

/-- A handler leaves the tables alone, unless it is the one of `experiment.create` and the database
takes the row. -/
theorem handle_cases (host : Host) (env : ToolEnv) (input : Input) (w : World) :
    ((handle host env input w).2.tables = w.tables ∧
      ∀ req, input = .experimentCreate req →
        ¬ (env.accepts = true ∧ w.tables.admits (draft env req) = true)) ∨
    ∃ req, input = .experimentCreate req ∧ env.accepts = true ∧
      w.tables.admits (draft env req) = true ∧
      handle host env input w =
        (.ok (created (draft env req)), { w with tables := w.tables.add (draft env req) }) := by
  cases input with
  | experimentCreate req =>
    cases hc : createExperiment env.accepts env.newId env.nowText req w.tables with
    | error e =>
      refine .inl ⟨by simp only [handle, experimentCreate, hc], ?_⟩
      intro req' heq
      cases heq
      intro hok
      have hinserted := createExperiment_ok_iff.2 ⟨hok, rfl, rfl⟩
      rw [hc] at hinserted
      cases hinserted
    | ok out =>
      obtain ⟨row, tables⟩ := out
      obtain ⟨⟨haccepts, hadmits⟩, rfl, rfl⟩ := createExperiment_ok_iff.1 hc
      exact .inr ⟨req, rfl, haccepts, hadmits, by
        simp only [handle, experimentCreate, hc]
        rfl⟩
  | fundSearch args => exact .inl ⟨rfl, by simp⟩
  | newsSearch args => exact .inl ⟨tables_newsSearch env args w, by simp⟩
  | experimentGet args => exact .inl ⟨rfl, by simp⟩
  | experimentList args => exact .inl ⟨rfl, by simp⟩
  | fundSnapshot args | fundHistory args | featureGet args | signalGet args | riskFund args
  | backtestRun args | backtestAudit args => exact .inl ⟨tables_research env _ _ w, by simp⟩

/-- **`invoke` inserts one experiment, or it leaves the tables alone.** -/
theorem invoke_cases (host : Host) (env : ToolEnv) (name : Str) (arguments : Fields) (w : World) :
    ((invoke host env name arguments w).2.tables = w.tables ∧
      ∀ req, ¬ Inserts host env name arguments w.tables req) ∨
    ∃ req, Inserts host env name arguments w.tables req ∧
      invoke host env name arguments w =
        (settle host name (.ok (created (draft env req))),
          { w with tables := w.tables.add (draft env req) }) := by
  cases ht : Tool.ofName name with
  | none =>
    refine .inl ⟨by simp only [invoke, ht], ?_⟩
    intro req hins
    rw [Tool.ofName_eq_some.2 hins.tool] at ht
    cases ht
  | some tool =>
    cases hv : host.validator.validate tool arguments with
    | none =>
      refine .inl ⟨by simp only [invoke, ht, hv], ?_⟩
      intro req hins
      rw [Tool.ofName_eq_some.2 hins.tool] at ht
      cases ht
      rw [hins.valid] at hv
      cases hv
    | some input =>
      rcases handle_cases host env input w with
        ⟨htables, hno⟩ | ⟨req, rfl, haccepts, hadmits, heq⟩
      · refine .inl ⟨by simp only [invoke, ht, hv, htables], ?_⟩
        intro req hins
        rw [Tool.ofName_eq_some.2 hins.tool] at ht
        cases ht
        rw [hins.valid] at hv
        cases hv
        exact hno req rfl ⟨hins.accepted, hins.admitted⟩
      · have htool := host.validator.tool_validate tool arguments _ hv
        subst htool
        refine .inr ⟨req, ⟨Tool.ofName_eq_some.1 ht, hv, haccepts, hadmits⟩, ?_⟩
        simp only [invoke, ht, hv, heq]

/-- The request of an inserted experiment is the only one. -/
theorem Inserts.unique {env : ToolEnv} {name : Str} {arguments : Fields} {t : Tables}
    {req req' : ExperimentCreate} (h : Inserts host env name arguments t req)
    (h' : Inserts host env name arguments t req') : req = req' := by
  have heq := h.valid.symm.trans h'.valid
  cases heq
  rfl

/-- The result for a row succeeds exactly when it can be presented. -/
theorem settle_created_iff (host : Host) (env : ToolEnv) (name : Str) (req : ExperimentCreate) :
    (settle host name (.ok (created (draft env req)))).success = true ↔
      Presentable host env req := by
  constructor
  · intro h
    obtain ⟨hres, text, htext, hshort⟩ := settle_success h
    rw [← Except.ok.inj hres] at htext
    exact ⟨text, htext, hshort⟩
  · rintro ⟨text, htext, hshort⟩
    simp only [settle, htext, if_neg (not_lt.2 hshort)]
    rfl

theorem settle_created {env : ToolEnv} {req : ExperimentCreate} (name : Str)
    (h : Presentable host env req) :
    settle host name (.ok (created (draft env req))) = created (draft env req) := by
  obtain ⟨hres, -⟩ := settle_success ((settle_created_iff host env name req).2 h)
  exact (Except.ok.inj hres).symm

/-! ### Through the bridge -/

/-- The call can be recorded: the database takes audit rows, and the ids of thread and turn and the
duration can be stored. -/
def Auditable (env : BridgeEnv) (params : Fields) : Prop :=
  env.auditAccepts = true ∧ storable (Fields.get params "threadId") = true ∧
    storable (textOr params "turnId") = true ∧ bindable (.int env.elapsed) = true

/-- A row the database took has a text, so its audit depends on the call alone. -/
theorem audits_created_iff {env : BridgeEnv} {params : Fields} {t : Tables}
    {req : ExperimentCreate} (h : t.admits (draft env.tool req) = true) :
    audits env params (created (draft env.tool req)) = true ↔ Auditable env params := by
  have hfields : Py.encodableFields req.parameters = true := (Bool.and_eq_true_iff.1 h).1
  have hencodable : (created (draft env.tool req)).encodable = true := by
    simp only [ToolResult.encodable, created, ToolResult.ok, Str.encodable_ofString, Bool.true_and,
      Option.all_some]
    exact hfields
  simp only [audits, AgentRun.admitted, auditRow, Option.all_some, hencodable, Auditable,
    Bool.and_eq_true, and_true, and_assoc]
  simp [bindable]

/-- A call that inserts an experiment reports a success exactly when the result can be presented
and the call recorded. -/
theorem reported_created_iff {env : BridgeEnv} {params arguments : Fields} {t : Tables}
    {req : ExperimentCreate}
    (h : Inserts host env.tool (toolName env.repr params) arguments t req) :
    (reported env params (settle host (toolName env.repr params)
      (.ok (created (draft env.tool req))))).success = true ↔
      Presentable host env.tool req ∧ Auditable env params := by
  constructor
  · intro hsuccess
    obtain ⟨haudit, hasked⟩ := reported_success hsuccess
    rw [hasked] at hsuccess
    have hpresent := (settle_created_iff host env.tool _ req).1 hsuccess
    rw [settle_created _ hpresent] at haudit
    exact ⟨hpresent, (audits_created_iff h.admitted).1 haudit⟩
  · rintro ⟨hpresent, haudit⟩
    rw [settle_created _ hpresent, reported,
      if_pos ((audits_created_iff h.admitted).2 haudit)]
    rfl

theorem sent_mem_iff {effects : List Effect} {r : Reply} :
    Effect.sent r ∈ effects ↔ r ∈ repliesOf effects := by
  unfold repliesOf
  rw [List.mem_filterMap]
  constructor
  · intro h
    exact ⟨_, h, rfl⟩
  · rintro ⟨e, he, hr⟩
    cases e with
    | audited row => cases hr
    | sent reply =>
      cases hr
      exact he

theorem world_handleServerRequest {env : BridgeEnv} {before : Session} {message params : Fields}
    {thread : Key} (b : Bridge) (h : route before message = .tool params thread) :
    (handleServerRequest host env before message b).2.world =
      (askTool host env params b.world).2 := by
  simp only [handleServerRequest, h, toolCall]

/-- The reply to a tool call of a proper name, by a living process under an id it can write. -/
theorem exists_reply (host : Host) {env : BridgeEnv} {before : Session} {message params : Fields}
    {thread : Key} (b : Bridge) (hroute : route before message = .tool params thread)
    (halive : env.alive = true)
    (hid : (Fields.get message "id").encodable = true)
    (hname : Str.encodable (toolName env.repr params) = true) :
    ∃ text, Effect.sent (.result (Fields.get message "id") (.tool text
        (reported env params (askTool host env params b.world).1).success)) ∈
      (handleServerRequest host env before message b).1 := by
  have hrender := render_reported host env params b.world
  rw [hname] at hrender
  obtain ⟨text, htext⟩ := Option.isSome_iff_exists.1 hrender
  refine ⟨text, sent_mem_iff.2 ?_⟩
  rw [repliesOf_handleServerRequest, halive, hid]
  simp only [replyTo, hroute, htext, Bool.and_self, if_true, Option.map_some, Option.toList_some,
    List.mem_singleton]

/-! ### Failed calls -/

/-- A failure that is replied leaves the research tables as they were. -/
def KeepsTables (out : List Effect × Bridge) (b : Bridge) : Prop :=
  ∀ id text, Effect.sent (.result id (.tool text false)) ∈ out.1 →
    out.2.world.tables = b.world.tables

theorem invoke_keeps_tables_iff (host : Host) (env : ToolEnv) (name : Str) (arguments : Fields)
    (w : World) :
    ((invoke host env name arguments w).1.success = false →
      (invoke host env name arguments w).2.tables = w.tables) ↔
      ∀ req, Inserts host env name arguments w.tables req → Presentable host env req := by
  rcases invoke_cases host env name arguments w with ⟨htables, hno⟩ | ⟨req, hins, heq⟩
  · constructor
    · intro _ req hins
      exact absurd hins (hno req)
    · intro _ _
      exact htables
  · rw [heq]
    constructor
    · intro hkeeps req' hins'
      rw [← hins.unique hins', ← settle_created_iff host env name req]
      by_contra hfailed
      exact w.tables.add_ne _ (hkeeps (by simpa using hfailed))
    · intro hall hfailed
      rw [(settle_created_iff host env name req).2 (hall req hins)] at hfailed
      cases hfailed

theorem handle_keeps_tables_iff (host : Host) (env : BridgeEnv) (before : Session)
    (message : Fields) (b : Bridge) :
    KeepsTables (handleServerRequest host env before message b) b ↔
      ∀ params thread arguments req, route before message = .tool params thread →
        argumentsOf params = some arguments → env.alive = true →
        (Fields.get message "id").encodable = true →
        Inserts host env.tool (toolName env.repr params) arguments b.world.tables req →
        Presentable host env.tool req ∧ Auditable env params := by
  constructor
  · intro hkeeps params thread arguments req hroute hargs halive hid hins
    have hname : Str.encodable (toolName env.repr params) = true := by
      rw [hins.tool, Str.encodable_ofString]
    obtain ⟨text, hsent⟩ := exists_reply host b hroute halive hid hname
    rcases invoke_cases host env.tool (toolName env.repr params) arguments b.world with
      ⟨-, hno⟩ | ⟨req', hins', heq⟩
    · exact absurd hins (hno req)
    · cases hins.unique hins'
      simp only [askTool, hargs, heq] at hsent
      rw [← reported_created_iff hins]
      by_contra hfailed
      rw [Bool.not_eq_true] at hfailed
      rw [hfailed] at hsent
      -- the failure is replied, and the row is there
      have htables := hkeeps _ _ hsent
      rw [world_handleServerRequest b hroute] at htables
      simp only [askTool, hargs, heq] at htables
      exact b.world.tables.add_ne _ htables
  · intro hall id text hsent
    have hreply := sent_mem_iff.1 hsent
    obtain ⟨params, thread, hroute, -, hfailed⟩ := route_of_affirmative (mem_repliesOf hreply)
    rw [world_handleServerRequest b hroute]
    cases hargs : argumentsOf params with
    | none => simp only [askTool, hargs]
    | some arguments =>
      simp only [askTool, hargs] at hfailed ⊢
      rcases invoke_cases host env.tool (toolName env.repr params) arguments b.world with
        ⟨htables, -⟩ | ⟨req, hins, heq⟩
      · exact htables
      · rw [repliesOf_handleServerRequest] at hreply
        split at hreply
        · rename_i hwritten
          obtain ⟨halive, hid⟩ := Bool.and_eq_true_iff.1 hwritten
          have hok := hall params thread arguments req hroute hargs halive hid hins
          rw [heq, (reported_created_iff hins).2 hok] at hfailed
          cases hfailed
        · cases hreply

/-- **A failed call leaves the research tables alone exactly when every experiment it inserts can
be presented and audited**: presented for a call of `invoke`, both for a call through the bridge. -/
theorem failed_call_keeps_tables_iff (host : Host) (env : BridgeEnv) (name : Str)
    (arguments : Fields) (w : World) (before : Session) (message : Fields) (b : Bridge) :
    (((invoke host env.tool name arguments w).1.success = false →
        (invoke host env.tool name arguments w).2.tables = w.tables) ↔
      ∀ req, Inserts host env.tool name arguments w.tables req → Presentable host env.tool req) ∧
    (KeepsTables (handleServerRequest host env before message b) b ↔
      ∀ params thread arguments req, route before message = .tool params thread →
        argumentsOf params = some arguments → env.alive = true →
        (Fields.get message "id").encodable = true →
        Inserts host env.tool (toolName env.repr params) arguments b.world.tables req →
        Presentable host env.tool req ∧ Auditable env params) :=
  ⟨invoke_keeps_tables_iff host env.tool name arguments w,
    handle_keeps_tables_iff host env before message b⟩

/-! An experiment whose audit row is refused. -/

/-- The fields of a request for an experiment. -/
def draftTexts : List (String × String) :=
  [("hypothesis", "5/20 wins"), ("research_question", "is it so?"), ("baseline", "10/60"),
    ("candidate", "5/20"), ("train_period", "2023"), ("validation_period", "2024"),
    ("test_period", "2025"), ("benchmark", "hold")]

def draftArguments : Fields := draftTexts.map fun p => (Str.ofString p.1, .text p.2)

def draftRequest : ExperimentCreate :=
  { hypothesis := "5/20 wins", researchQuestion := "is it so?", baseline := "10/60",
    candidate := "5/20", trainPeriod := "2023", validationPeriod := "2024", testPeriod := "2025",
    benchmark := "hold", parameters := [], bounds := by decide }

/-- The validation library on these arguments. -/
def draftValidator : Validator :=
  { validate := fun t args =>
      match t with
      | .experimentCreate =>
        if draftTexts.all fun p => isText (Fields.get args p.1) p.2 then
          some (.experimentCreate draftRequest)
        else none
      | _ => none
    tool_validate := by
      intro t args input h
      cases t with
      | experimentCreate =>
        simp only at h
        split at h
        · cases h
          rfl
        · cases h
      | _ => cases h }

def draftHost : Host := { weekHost with validator := draftValidator }

/-- `experiment.create` on the thread `"t1"`. -/
def draftCall : Fields :=
  [(Str.ofString "id", .int 8), (Str.ofString "method", .text "item/tool/call"),
    (Str.ofString "params", .obj
      [(Str.ofString "threadId", .text "t1"), (Str.ofString "turnId", .text "u1"),
        (Str.ofString "namespace", .text "experiment"), (Str.ofString "tool", .text "create"),
        (Str.ofString "arguments", .obj draftArguments)])]

/-- The database is locked again when the audit row is to be written. -/
def lockedEnv : BridgeEnv := { weekBridgeEnv with auditAccepts := false }

/-- The reply says that the call failed, and the experiment is in the table. -/
theorem unaudited_draft_stays :
    ¬ KeepsTables (handleServerRequest draftHost lockedEnv oneThread draftCall weekBridge)
      weekBridge := by
  intro hkeeps
  have hrun : (repliesOf (handleServerRequest draftHost lockedEnv oneThread draftCall
      weekBridge).1).any (fun r => match r with
        | .result _ (.tool _ success) => !success
        | _ => false) = true ∧
      (handleServerRequest draftHost lockedEnv oneThread draftCall
        weekBridge).2.world.tables.experiments.length = 1 := by
    decide +kernel
  obtain ⟨hfailed, hrows⟩ := hrun
  obtain ⟨r, hr, hfalse⟩ := List.any_eq_true.1 hfailed
  split at hfalse
  · rename_i id text success
    have hsuccess : success = false := by simpa using hfalse
    subst hsuccess
    rw [hkeeps id text (sent_mem_iff.2 hr)] at hrows
    cases hrows
  · cases hfalse

end QuantFlow
