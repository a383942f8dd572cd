/-
**Strategy versions form a tree under production.**

`create_candidate` checks little: the version is not the production version and not its own parent,
its experiment is there, and its parent is the production version or is there.  The table does the
rest: a version is inserted once.  So when a version is inserted no other one can name it as its
parent yet, and the walk from parent to parent always leads to production.

No function of the registry writes anything but a draft, a candidate or a pending request, and none
changes a row that is there.

Main definitions:

* `parentOf` — the parent of a stored version;
* `Sound` — what holds of the tables at any time.

Main results:

* `lineage_is_tree` — **after any calls the versions form a tree under
  production, nothing is promoted and nothing stored is changed**.
-/

import QuantFlow.Lineage
import QuantFlow.Registry

namespace QuantFlow.Registry

open Py (Json Str Fields)

/-- `config.SIGNAL_VERSION`, as it stands in a column. -/
def production : Str := Str.ofString signalVersion

/-- `parent_version` of a version that is stored. -/
def parentOf (db : Db) (version : Str) : Option Str :=
  (db.versions.rows.find? fun r => textOf versionsTable "version" r = some version).bind
    (textOf versionsTable "parent_version")

/-- What holds of a stored version. -/
structure SoundVersion (db : Db) (row : List Text) : Prop where
  version : ∃ v, textOf versionsTable "version" row = some v ∧ v ≠ production ∧
    Lineage.Rooted (parentOf db) production v
  experiment : ∃ id, textOf versionsTable "experiment_id" row = some id ∧
    id ∈ db.experiments.keys
  candidate : textOf versionsTable "status" row = text "candidate"

/-- What holds of the tables at any time. -/
structure Sound (db : Db) : Prop where
  unique : (db.versions.rows.map (textOf versionsTable "version")).Nodup
  versions : ∀ row ∈ db.versions.rows, SoundVersion db row
  drafts : ∀ row ∈ db.experiments.rows, textOf experimentsTable "status" row = text "draft" ∧
    textOf experimentsTable "metrics" row = text "\x7b\x7d"
  pending : ∀ row ∈ db.approvals.rows, textOf approvalsTable "status" row = text "pending"

theorem sound_empty : Sound Db.empty where
  unique := List.nodup_nil
  versions := by
    intro row hrow
    cases hrow
  drafts := by
    intro row hrow
    cases hrow
  pending := by
    intro row hrow
    cases hrow

/-! ### A new version -/

/-- The row of a version that is free is not found. -/
theorem find_eq_none {db : Db} {v : Str} (h : db.versions.free (some v) = true) :
    (db.versions.rows.find? fun r => textOf versionsTable "version" r = some v) = none := by
  rw [List.find?_eq_none]
  intro row hrow hv
  cases Keyed.Table.free_iff.1 h row hrow (of_decide_eq_true hv)

theorem parentOf_eq_none {db : Db} {v : Str} (h : db.versions.free (some v) = true) :
    parentOf db v = none := by
  rw [parentOf, find_eq_none h]
  rfl

/-- One more row gives its version its parent, and no other. -/
theorem parentOf_append {db db' : Db} {row : List Text} {v p : Str}
    (hrows : db'.versions.rows = db.versions.rows ++ [row])
    (hv : textOf versionsTable "version" row = some v)
    (hp : textOf versionsTable "parent_version" row = some p)
    (hfree : db.versions.free (some v) = true) :
    parentOf db' = Function.update (parentOf db) v (some p) := by
  funext k
  by_cases hk : k = v
  · subst hk
    rw [Function.update_self, parentOf, hrows, List.find?_append, find_eq_none hfree]
    simp [hv, hp]
  · have hother : ¬v = k := fun h => hk h.symm
    rw [Function.update_of_ne hk, parentOf, hrows, List.find?_append]
    simp [hv, hother, parentOf]

theorem Sound.rooted_parent {db : Db} (h : Sound db) {parent : String}
    (hparent : parent = signalVersion ∨ Str.ofString parent ∈ db.versions.keys) :
    Lineage.Rooted (parentOf db) production (Str.ofString parent) := by
  rcases hparent with rfl | hstored
  · exact Lineage.rooted_root (parentOf db) production
  · obtain ⟨row, hrow, hkey⟩ := Keyed.Table.mem_keys.1 hstored
    obtain ⟨v, hv, -, hrooted⟩ := (h.versions row hrow).version
    cases hkey.symm.trans hv
    exact hrooted

/-! ### Calls -/

theorem mem_keys_append {s : Sql.Schema Text} {key : String} {t t' : TableOf s key}
    {row : List Text} (hrows : t'.rows = t.rows ++ [row]) {k : Str} (h : k ∈ t.keys) :
    k ∈ t'.keys := by
  obtain ⟨r, hr, hk⟩ := Keyed.Table.mem_keys.1 h
  refine Keyed.Table.mem_keys.2 ⟨r, ?_, hk⟩
  rw [hrows]
  exact List.mem_append_left _ hr

/-- What is said of the rows of a table holds of one more row that it is true of. -/
theorem forall_append {s : Sql.Schema Text} {key : String} {t t' : TableOf s key} {row : List Text}
    {P : List Text → Prop} (hrows : t'.rows = t.rows ++ [row]) (h : ∀ r ∈ t.rows, P r)
    (hrow : P row) : ∀ r ∈ t'.rows, P r := by
  intro r hr
  rw [hrows, List.mem_append, List.mem_singleton] at hr
  rcases hr with hold | rfl
  · exact h r hold
  · exact hrow

/-- A version stays sound when the experiments that are there stay and it stays rooted. -/
theorem SoundVersion.keep {db db' : Db} {row : List Text} (h : SoundVersion db row)
    (hexperiments : ∀ id ∈ db.experiments.keys, id ∈ db'.experiments.keys)
    (hrooted : ∀ v, Lineage.Rooted (parentOf db) production v →
      Lineage.Rooted (parentOf db') production v) : SoundVersion db' row := by
  obtain ⟨v, hv, hne, hroot⟩ := h.version
  obtain ⟨id, hid, hmem⟩ := h.experiment
  exact ⟨⟨v, hv, hne, hrooted v hroot⟩, ⟨id, hid, hexperiments id hmem⟩, h.candidate⟩

theorem Sound.addExperiment {db : Db} (h : Sound db) {env : Env} {req : ExperimentCreate}
    {experiments : TableOf experimentsTable "experiment_id"}
    (hrow : insert db.experiments (experimentColumns env req) = .ok experiments) :
    Sound { db with experiments := experiments } := by
  obtain ⟨hrows, -, -⟩ := insert_ok hrow
  refine ⟨h.unique, ?_, forall_append hrows h.drafts ?_, h.pending⟩
  · intro row hmem
    exact (h.versions row hmem).keep (fun id => mem_keys_append hrows) fun v hv => hv
  · exact ⟨textOf_row (by decide) rfl, textOf_row (by decide) rfl⟩

theorem Sound.addVersion {db : Db} (h : Sound db) {env : Env} {req : CandidateCreate}
    {versions : TableOf versionsTable "version"} (hversion : req.version ≠ signalVersion)
    (hparent : req.parentVersion = signalVersion ∨
      Str.ofString req.parentVersion ∈ db.versions.keys)
    (hrow : insert db.versions (candidateColumns env req) = .ok versions)
    (hexperiment : req.experimentId ∈ db.experiments.keys) :
    Sound { db with versions := versions } := by
  obtain ⟨hrows, -, hfree⟩ := insert_ok hrow
  have hkey : textOf versionsTable "version" (versionsTable.row none (candidateColumns env req)) =
      some (Str.ofString req.version) := textOf_row (by decide) rfl
  rw [hkey] at hfree
  have hne : Str.ofString req.version ≠ production :=
    fun heq => hversion (Str.ofString_injective heq)
  have hparents : parentOf { db with versions := versions } =
      Function.update (parentOf db) (Str.ofString req.version)
        (some (Str.ofString req.parentVersion)) :=
    parentOf_append hrows hkey (textOf_row (by decide) rfl) hfree
  have hnone := parentOf_eq_none hfree
  refine ⟨?_, forall_append hrows ?_ ?_, h.drafts, h.pending⟩
  · rw [hrows, List.map_append]
    refine List.nodup_append.2 ⟨h.unique, List.nodup_singleton _, ?_⟩
    intro v hv v' hv' heq
    obtain ⟨row, hmem, rfl⟩ := List.mem_map.1 hv
    cases List.mem_singleton.1 hv'
    cases Keyed.Table.free_iff.1 hfree row hmem (heq.trans hkey)
  · intro row hmem
    refine (h.versions row hmem).keep (fun id hid => hid) fun v hv => ?_
    rw [hparents]
    exact hv.keep hnone hne
  · refine ⟨⟨Str.ofString req.version, hkey, hne, ?_⟩,
      ⟨req.experimentId, textOf_row (by decide) rfl, hexperiment⟩, textOf_row (by decide) rfl⟩
    rw [hparents]
    exact Lineage.rooted_new (h.rooted_parent hparent) hnone hne

theorem Sound.addApproval {db : Db} (h : Sound db) {env : Env} {req : ApprovalCreate}
    {approvals : TableOf approvalsTable "approval_id"}
    (hrow : insert db.approvals (approvalColumns env req) = .ok approvals) :
    Sound { db with approvals := approvals } := by
  obtain ⟨hrows, -, -⟩ := insert_ok hrow
  refine ⟨h.unique, ?_, h.drafts, forall_append hrows h.pending (textOf_row (by decide) rfl)⟩
  intro row hmem
  exact (h.versions row hmem).keep (fun id hid => hid) fun v hv => hv

variable (loads : Str → Option Json)

theorem Sound.after {db : Db} (h : Sound db) (c : Call) : Sound (after loads db c) := by
  have hdid := did_call loads c db
  generalize answer loads c db = result at hdid
  generalize Registry.after loads db c = db' at hdid ⊢
  cases hdid with
  | raised => exact h
  | experiment hrow => exact h.addExperiment hrow
  | candidate hversion hparent hrow hexperiment =>
    exact h.addVersion hversion hparent hrow hexperiment
  | approval hrow hexperiment => exact h.addApproval hrow

theorem Sound.exec {db : Db} (h : Sound db) (calls : List Call) : Sound (exec loads db calls) := by
  induction calls generalizing db with
  | nil => exact h
  | cons c calls ih => exact ih (h.after loads c)

/-- **After any calls the versions form a tree under production, nothing is promoted, no call
changes a version that is stored, and a call that raises changes nothing.** -/
theorem lineage_is_tree (earlier later : List Call) :
    Sound (exec loads Db.empty earlier) ∧
      (exec loads Db.empty earlier).versions.rows <+:
        (exec loads (exec loads Db.empty earlier) later).versions.rows ∧
      ∀ c e, answer loads c (exec loads Db.empty earlier) = .error e →
        after loads (exec loads Db.empty earlier) c = exec loads Db.empty earlier := by
  refine ⟨sound_empty.exec loads earlier, (extends_exec loads _ later).versions, ?_⟩
  intro c e hraised
  exact after_of_error loads hraised

end QuantFlow.Registry
