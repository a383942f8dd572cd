/-
**The integration counts as verified only if it worked once, from end to end.**

`integration_verified` is set when a turn is completed for which a tool call was noted.  A tool call
is noted when it succeeded, and it cannot succeed without its row in the audit table; a turn whose
row is refused has no answer, and then it does not count.  So the flag tells of two rows: one of a
tool call and, after it, one of the turn's answer, for the same thread and turn.

A tool call without a turn id is noted under `None`.  No turn can redeem it, since the table takes
no turn without an id.

Main definitions:

* `AuditedTool`, `AuditedTurn` — a transition of the bridge that audits a tool
  call that succeeded, and one that audits the answer of a completed turn;
* `Earned` — one after the other, for one thread and turn;
* `withinGeneration` — the deed neither starts nor closes a process.

Main results:

* `integration_earned` — **in every generation, the flag is earned**.
-/

import QuantFlow.BridgeRuns

namespace QuantFlow

open Py (Json Key Str Fields)
open Runs (Transition)

/-! ### What is noted, and when the flag is set -/

@[simp] theorem toolTurns_emit (s : Session) (thread : Key) (body : EventBody) :
    (s.emit thread body).toolTurns = s.toolTurns := by
  unfold Session.emit
  split <;> rfl

@[simp] theorem integrationVerified_emit (s : Session) (thread : Key) (body : EventBody) :
    (s.emit thread body).integrationVerified = s.integrationVerified := by
  unfold Session.emit
  split <;> rfl

section FinishTurn

variable (thread turnKey : Key) (threadId : Json) (turn : Fields) (answer : Sliced) (accepts : Bool)
  (s : Session)

theorem toolTurns_finishTurn :
    (finishTurn thread turnKey threadId turn answer accepts s).session.toolTurns =
      s.toolTurns.filter fun p => p ≠ (thread, turnKey) := by
  rw [session_finishTurn]
  cases auditsFinal threadId turn answer accepts with
  | true => exact toolTurns_emit _ _ _
  | false => simp

/-- The end of a turn sets the flag if it is audited, completed and not empty, and a tool call was
noted for it. -/
theorem integrationVerified_finishTurn :
    (finishTurn thread turnKey threadId turn answer accepts s).session.integrationVerified =
      (s.integrationVerified || (auditsFinal threadId turn answer accepts &&
        isText (Fields.get turn "status") "completed" &&
          decide ((thread, turnKey) ∈ s.toolTurns) && answer.toJson.truthy)) := by
  rw [session_finishTurn]
  cases auditsFinal threadId turn answer accepts with
  | true => simp
  | false =>
    have hempty : (Sliced.text []).toJson.truthy = false := rfl
    simp [hempty]

end FinishTurn

section ToolDone

variable (s : Session) (thread : Key) (params : Fields) (name : Str) (result : ToolResult)

theorem integrationVerified_toolDone :
    (s.toolDone thread params name result).integrationVerified = s.integrationVerified := by
  simp only [Session.toolDone, integrationVerified_emit]
  split
  · unfold noteTurn
    split <;> rfl
  · rfl

/-- A tool call is noted for its turn only if it succeeded. -/
theorem mem_toolTurns_toolDone {p : Key × Key}
    (h : p ∈ (s.toolDone thread params name result).toolTurns) :
    p ∈ s.toolTurns ∨ result.success = true ∧ p.1 = thread ∧
      (Fields.get params "turnId").hash = some p.2 := by
  simp only [Session.toolDone, toolTurns_emit] at h
  split at h
  · rename_i hsuccess
    unfold noteTurn at h
    split at h
    · exact .inl h
    · rename_i turn hturn
      rcases List.mem_cons.1 h with rfl | hmem
      · exact .inr ⟨hsuccess, rfl, hturn⟩
      · exact .inl hmem
  · exact .inl h

end ToolDone

/-! ### What has to have happened -/

/-- A tool call for the thread and turn succeeded, and its row was added. -/
def AuditedTool (thread turn : Key) (x : Transition Bridge Deed) : Prop :=
  ∃ env before message params row result, x.action = .request env before message ∧
    isText (Fields.get message "method") "item/tool/call" = true ∧
    asFields (Fields.get message "params") = .ok params ∧
    (Fields.get params "threadId").hash = some thread ∧
    (Fields.get params "turnId").hash = some turn ∧
    x.target.runs = x.source.runs ++ [row] ∧ row.threadId.hash = some thread ∧
    row.turnId.hash = some turn ∧ row.toolOutputs = some result ∧ result.success = true

/-- A `turn/completed` for the thread and turn has the status `completed`, and its row was added, with
an answer that is not empty. -/
def AuditedTurn (thread turn : Key) (x : Transition Bridge Deed) : Prop :=
  ∃ message accepts params fields row, x.action = .notify message accepts ∧
    isText (Fields.get message "method") "turn/completed" = true ∧
    asFields (Fields.get message "params") = .ok params ∧
    (Fields.get params "threadId").hash = some thread ∧
    asFields (Fields.get params "turn") = .ok fields ∧
    (Fields.get fields "id").hash = some turn ∧
    isText (Fields.get fields "status") "completed" = true ∧
    x.target.runs = x.source.runs ++ [row] ∧ row.threadId.hash = some thread ∧
    row.turnId.hash = some turn ∧ row.finalResult.truthy = true

/-- A tool call, and afterwards the turn, were audited for one thread and turn. -/
def Earned (threads : List Key) (past : List (Transition Bridge Deed)) : Prop :=
  ∃ thread ∈ threads, ∃ turn earlier called between ended later,
    past = earlier ++ called :: (between ++ ended :: later) ∧
      AuditedTool thread turn called ∧ AuditedTurn thread turn ended

theorem Earned.mono {threads threads' : List Key} {past : List (Transition Bridge Deed)}
    (h : Earned threads past) (hthreads : ∀ k ∈ threads, k ∈ threads')
    (x : Transition Bridge Deed) : Earned threads' (past ++ [x]) := by
  obtain ⟨thread, hmem, turn, earlier, called, between, ended, later, hpast, htool, hturn⟩ := h
  refine ⟨thread, hthreads thread hmem, turn, earlier, called, between, ended, later ++ [x], ?_,
    htool, hturn⟩
  rw [hpast]
  simp

/-- A turn that is audited last is earned by a tool call before it. -/
theorem earned_of_mem {threads : List Key} {past : List (Transition Bridge Deed)} {thread turn : Key}
    {called ended : Transition Bridge Deed} (hmem : thread ∈ threads) (hcalled : called ∈ past)
    (htool : AuditedTool thread turn called) (hturn : AuditedTurn thread turn ended) :
    Earned threads (past ++ [ended]) := by
  obtain ⟨earlier, between, rfl⟩ := List.append_of_mem hcalled
  exact ⟨thread, hmem, turn, earlier, called, between, ended, [], by simp, htool, hturn⟩

/-! ### One deed -/

theorem hash_ne_none {x : Json} {k : Key} (hstorable : storable x = true) (hhash : x.hash = some k) :
    k ≠ .none := by
  rintro rfl
  cases x with
  | null => cases hstorable
  | float f => cases f <;> cases hhash
  | arr elems => cases hhash
  | obj fields => cases hhash
  | _ => simp [Json.hash] at hhash

theorem storable_of_admitted {row : AgentRun} (h : row.admitted = true) :
    storable row.turnId = true := by
  simp only [AgentRun.admitted, Bool.and_eq_true] at h
  exact h.1.1.1.2

/-- What a request notes is an audited tool call, unless it has no turn id. -/
theorem noted_request {host : Host} {env : BridgeEnv} {before : Session} {message : Fields}
    {b : Bridge} {p : Key × Key}
    (h : p ∈ (b.after host (.request env before message)).session.toolTurns) :
    p ∈ b.session.toolTurns ∨ p.2 = .none ∨
      AuditedTool p.1 p.2 ⟨b, .request env before message,
        b.after host (.request env before message)⟩ := by
  have hby := requestBy_handleServerRequest host env before message b
  simp only [AuditedTool, Bridge.after] at h ⊢
  generalize (handleServerRequest host env before message b).2 = b' at hby h ⊢
  cases hby with
  | refused => exact .inl h
  | called params thread hmethod hparams hthread hknown =>
    rw [session_toolCall] at h
    rcases mem_toolTurns_toolDone _ _ _ _ _ h with hold | ⟨hsuccess, rfl, hturn⟩
    · exact .inl hold
    · obtain ⟨haudit, hasked⟩ := reported_success hsuccess
      rw [hasked] at hsuccess
      -- the row has an empty text for a missing turn id, and the id itself otherwise
      cases hfind : Fields.find params "turnId" with
      | none =>
        rw [Fields.get, hfind] at hturn
        exact .inr (.inl (Option.some.inj hturn).symm)
      | some id =>
        have hrow : textOr params "turnId" = Fields.get params "turnId" := by
          rw [textOr, Fields.get, hfind]
          rfl
        refine .inr (.inr ⟨env, before, message, params,
          auditRow env params (askTool host env params b.world).1, _, rfl, hmethod, hparams,
          hthread, hturn, ?_, hthread, ?_, rfl, hsuccess⟩)
        · simp only [toolCall, haudit, if_true]
        · simp only [auditRow, hrow, hturn]

theorem verified_request (host : Host) (env : BridgeEnv) (before : Session) (message : Fields)
    (b : Bridge) :
    (b.after host (.request env before message)).session.integrationVerified =
      b.session.integrationVerified := by
  have hby := requestBy_handleServerRequest host env before message b
  simp only [Bridge.after]
  generalize (handleServerRequest host env before message b).2 = b' at hby ⊢
  cases hby with
  | refused => rfl
  | called params thread hmethod hparams hthread hknown =>
    rw [session_toolCall]
    exact integrationVerified_toolDone _ _ _ _ _

theorem noted_notify {host : Host} {message : Fields} {accepts : Bool} {b : Bridge} {p : Key × Key}
    (h : p ∈ (b.after host (.notify message accepts)).session.toolTurns) :
    p ∈ b.session.toolTurns := by
  have hnoted := notedBy_recordNotification message accepts b.session
  simp only [Bridge.after] at h
  generalize recordNotification message accepts b.session = noted at hnoted h
  cases hnoted with
  | ignored raised => exact h
  | kept params turn text hmethod hparams hmessage => exact h
  | finished params thread turn answer turnKey hmethod hparams hthread hknown hread hkey =>
    rw [toolTurns_finishTurn] at h
    exact (List.mem_filter.1 h).1
  | unhashed params thread turn answer hmethod hparams hthread hknown hread hkey =>
    simp only at h
    split at h
    · rwa [toolTurns_emit] at h
    · exact h

/-- A notification that sets the flag is an audited turn, for which a tool call was noted. -/
theorem verified_notify {host : Host} {message : Fields} {accepts : Bool} {b : Bridge}
    (h : (b.after host (.notify message accepts)).session.integrationVerified = true) :
    b.session.integrationVerified = true ∨ ∃ thread turn, thread ∈ b.session.threads ∧
      (thread, turn) ∈ b.session.toolTurns ∧ turn ≠ .none ∧
      AuditedTurn thread turn ⟨b, .notify message accepts,
        b.after host (.notify message accepts)⟩ := by
  have hnoted := notedBy_recordNotification message accepts b.session
  simp only [AuditedTurn, Bridge.after] at h ⊢
  generalize recordNotification message accepts b.session = noted at hnoted h ⊢
  cases hnoted with
  | ignored raised => exact .inl h
  | kept params turn text hmethod hparams hmessage => exact .inl h
  | finished params thread turn answer turnKey hmethod hparams hthread hknown hread hkey =>
    rw [integrationVerified_finishTurn] at h
    rcases Bool.or_eq_true_iff.1 h with hold | hset
    · exact .inl hold
    · simp only [Bool.and_eq_true, decide_eq_true_eq] at hset
      obtain ⟨⟨⟨haudit, hstatus⟩, htool⟩, hanswer⟩ := hset
      have hstored := storable_of_admitted (Bool.and_eq_true_iff.1 haudit).2
      have hfields := (steps_of_readTurn hread).1
      refine .inr ⟨thread, turnKey, hknown, htool, hash_ne_none hstored hkey, message, accepts,
        params, turn, finalRow (Fields.get params "threadId") turn answer, rfl, hmethod, hparams,
        hthread, hfields, hkey, hstatus, ?_, hthread, hkey, hanswer⟩
      rw [row_finishTurn, if_pos haudit]
      rfl
  | unhashed params thread turn answer hmethod hparams hthread hknown hread hkey =>
    left
    simp only at h
    split at h
    · rwa [integrationVerified_emit] at h
    · exact h

/-! ### A generation -/

/-- The deed belongs to a generation: it neither starts nor closes a process. -/
def withinGeneration (_ : Bridge) : Deed → Bool
  | .restart => false
  | .forget => false
  | _ => true

/-- The tool calls that are noted were audited, and the flag is earned. -/
structure Earning (past : List (Transition Bridge Deed)) (b : Bridge) : Prop where
  noted : ∀ p ∈ b.session.toolTurns, p.2 = .none ∨ ∃ x ∈ past, AuditedTool p.1 p.2 x
  verified : b.session.integrationVerified = true → Earned b.session.threads past

/-- A deed that keeps the threads, notes audited calls and sets the flag for audited turns. -/
theorem Earning.step {past : List (Transition Bridge Deed)} {b b' : Bridge} (d : Deed)
    (h : Earning past b) (hthreads : ∀ k ∈ b.session.threads, k ∈ b'.session.threads)
    (hnoted : ∀ p ∈ b'.session.toolTurns, p ∈ b.session.toolTurns ∨ p.2 = .none ∨
      AuditedTool p.1 p.2 ⟨b, d, b'⟩)
    (hverified : b'.session.integrationVerified = true → b.session.integrationVerified = true ∨
      ∃ thread turn, thread ∈ b.session.threads ∧ (thread, turn) ∈ b.session.toolTurns ∧
        turn ≠ .none ∧ AuditedTurn thread turn ⟨b, d, b'⟩) :
    Earning (past ++ [⟨b, d, b'⟩]) b' := by
  refine ⟨?_, ?_⟩
  · intro p hp
    rcases hnoted p hp with hold | hnone | hnew
    · rcases h.noted p hold with hnone | ⟨x, hx, htool⟩
      · exact .inl hnone
      · exact .inr ⟨x, List.mem_append_left _ hx, htool⟩
    · exact .inl hnone
    · exact .inr ⟨_, List.mem_append_right _ (List.mem_singleton.2 rfl), hnew⟩
  · intro hset
    rcases hverified hset with hold | ⟨thread, turn, hmem, hpair, hturn, hended⟩
    · exact (h.verified hold).mono hthreads _
    · rcases h.noted _ hpair with hnone | ⟨x, hx, htool⟩
      · exact absurd hnone hturn
      · exact earned_of_mem (hthreads thread hmem) hx htool hended

theorem session_addThread (s : Session) (id : Json) :
    (s.addThread id).toolTurns = s.toolTurns ∧
      (s.addThread id).integrationVerified = s.integrationVerified ∧
        ∀ k ∈ s.threads, k ∈ (s.addThread id).threads := by
  rcases addThread_cases s id with hsame | ⟨k, named, -, hadded⟩
  · rw [hsame]
    exact ⟨rfl, rfl, fun k hk => hk⟩
  · rw [hadded]
    exact ⟨rfl, rfl, fun k' hk' => List.mem_cons_of_mem _ hk'⟩

theorem earning_after {past : List (Transition Bridge Deed)} {b : Bridge} (host : Host) (d : Deed)
    (h : Earning past b) (hwithin : withinGeneration b d = true) :
    Earning (past ++ [⟨b, d, b.after host d⟩]) (b.after host d) := by
  cases d with
  | notify message accepts =>
    refine h.step _ ?_ (fun p hp => .inl (noted_notify hp)) verified_notify
    intro k hk
    have hsame : (b.after host (.notify message accepts)).session.threads = b.session.threads :=
      threads_recordNotification message accepts b.session
    rwa [hsame]
  | request env before message =>
    refine h.step _ ?_ (fun p hp => noted_request hp) ?_
    · intro k hk
      obtain ⟨thread, bodies, hemits⟩ := emits_handleServerRequest host env before message b
      exact hemits.threads ▸ hk
    · rw [verified_request]
      exact .inl
  | register id =>
    obtain ⟨hnoted, hverified, hthreads⟩ := session_addThread b.session id
    refine h.step _ hthreads ?_ ?_
    · intro p hp
      exact .inl (hnoted ▸ hp)
    · intro hset
      exact .inl (hverified ▸ hset)
  | restart => cases hwithin
  | forget => cases hwithin

/-- **In every generation, the flag is earned**: whatever came before the start of the process, and
whatever the order of notifications, requests and registered threads after it, a flag that is set
tells of an audited tool call that succeeded and an audited turn after it, of one thread and turn. -/
theorem integration_earned (host : Host) (b : Bridge) (deeds : List Deed)
    (t : Runs.Trace Bridge Deed)
    (hwithin : Runs.disciplined (Bridge.step host) withinGeneration deeds
      (b.after host .restart) = true)
    (hrun : Runs.run (Runs.traced (Bridge.step host)) deeds (.start (b.after host .restart)) =
      some t)
    (hset : t.now.session.integrationVerified = true) : Earned t.now.session.threads t.past := by
  refine (Runs.traced_invariant (P := Earning) ?_ deeds ?_ hwithin hrun).verified hset
  · intro past b d b' h hd hstep
    cases hstep
    exact earning_after host d h hd
  · refine ⟨?_, ?_⟩
    · intro p hp
      cases hp
    · intro hverified
      cases hverified

/-! A thread with a tool call and an answer. -/

/-- The thread `"t1"` is registered, its tool call is answered, and the turn ends with a text. -/
def verifyingDeeds : List Deed :=
  [.register (.text "t1"), .request weekBridgeEnv oneThread (historyCall (.text "t1")),
    .notify (turnMessage "t1" "u1" [agentMessage .null (.text "yes")]) true]

theorem integration_earned_verifyingDeeds :
    (Runs.run (Runs.traced (Bridge.step weekHost)) verifyingDeeds
        (.start (weekBridge.after weekHost .restart))).any (fun t =>
      t.now.session.integrationVerified) = true ∧
      ∃ t, Runs.run (Runs.traced (Bridge.step weekHost)) verifyingDeeds
          (.start (weekBridge.after weekHost .restart)) = some t ∧
        Earned t.now.session.threads t.past := by
  have hany : (Runs.run (Runs.traced (Bridge.step weekHost)) verifyingDeeds
      (.start (weekBridge.after weekHost .restart))).any (fun t =>
        t.now.session.integrationVerified) = true := by
    decide +kernel
  obtain ⟨t, hrun, hset⟩ := (Option.any_eq_true _ _).1 hany
  exact ⟨hany, t, hrun,
    integration_earned weekHost weekBridge verifyingDeeds t (by decide +kernel) hrun hset⟩

end QuantFlow
