/-
**The bridge under what happens to it.**

Most of the runtime around the App Server does not touch the bridge.  What does is a notification, a
request of the server, a thread that is registered, a start and a close.  These *deeds* make the
bridge a machine of its own, which is total: a notification that raises and a request that is
refused are deeds too.  A run of the runtime moves the bridge along the deeds of its actions, so
what every list of deeds keeps, every run of the runtime keeps.

Main definitions:

* `Deed`, `Bridge.after` — what happens to the bridge, and what it leaves;
* `deedOf` — the deed of an action of the runtime.

Main results:

* `requestBy_handleServerRequest` — what a request can do to the bridge;
* `run_bridge` — **a run of the runtime moves the bridge along its deeds**.
-/

import QuantFlow.AppServer
import QuantFlow.GuardedRuns

namespace QuantFlow

open Py (Json Key Str Fields)
open Runs (Transition)

/-! ### Deeds -/

/-- What happens to the bridge: a notification, with whether the database takes its row; a request
that was taken up in an earlier session; a thread that is registered; a start; a close. -/
inductive Deed
  | notify (message : Fields) (accepts : Bool)
  | request (env : BridgeEnv) (before : Session) (message : Fields)
  | register (id : Json)
  | restart
  | forget

/-- The bridge after a deed. -/
def Bridge.after (host : Host) (d : Deed) (b : Bridge) : Bridge :=
  match d with
  | .notify message accepts =>
    let noted := recordNotification message accepts b.session
    { b with session := noted.session, runs := b.runs ++ noted.row.toList }
  | .request env before message => (handleServerRequest host env before message b).2
  | .register id => { b with session := b.session.addThread id }
  | .restart => { b with session := b.session.restart }
  | .forget => { b with session := b.session.dropThreads }

/-- The machine of the bridge; every deed is possible in every state. -/
def Bridge.step (host : Host) (d : Deed) (b : Bridge) : Option Bridge := some (b.after host d)

/-- A bridge before anything happened to it. -/
def Bridge.initial (w : World) (runs : List AgentRun) : Bridge :=
  { session := .empty, world := w, runs := runs }

/-! ### What a request can do -/

/-- The ways a request ends: it leaves the bridge alone, or a tool of a thread that was known is
called. -/
inductive RequestBy (host : Host) (env : BridgeEnv) (before : Session) (message : Fields)
    (b : Bridge) : Bridge → Prop
  | refused : RequestBy host env before message b b
  | called (params : Fields) (thread : Key)
      (hmethod : isText (Fields.get message "method") "item/tool/call" = true)
      (hparams : asFields (Fields.get message "params") = .ok params)
      (hthread : (Fields.get params "threadId").hash = some thread)
      (hknown : thread ∈ before.threads) :
      RequestBy host env before message b
        (toolCall host env (Fields.get message "id") thread params b).2

theorem requestBy_handleServerRequest (host : Host) (env : BridgeEnv) (before : Session)
    (message : Fields) (b : Bridge) :
    RequestBy host env before message b (handleServerRequest host env before message b).2 := by
  unfold handleServerRequest
  cases hroute : route before message with
  | tool params thread =>
    obtain ⟨hmethod, hparams, hthread, hknown⟩ := route_eq_tool hroute
    exact .called params thread hmethod hparams hthread hknown
  | _ => exact .refused

/-- The session after a tool call with a result. -/
def Session.toolDone (s : Session) (thread : Key) (params : Fields) (name : Str)
    (result : ToolResult) : Session :=
  let s' := if result.success then noteTurn thread params s else s
  s'.emit thread (.tool (Fields.get params "turnId") name result)

theorem session_toolCall (host : Host) (env : BridgeEnv) (id : Json) (thread : Key)
    (params : Fields) (b : Bridge) :
    (toolCall host env id thread params b).2.session =
      b.session.toolDone thread params (toolName env.repr params)
        (reported env params (askTool host env params b.world).1) := rfl

section ToolDone

variable (s : Session) (thread : Key) (params : Fields) (name : Str) (result : ToolResult)

theorem finalMessages_toolDone :
    (s.toolDone thread params name result).finalMessages = s.finalMessages := by
  simp only [Session.toolDone, finalMessages_emit]
  split
  · unfold noteTurn
    split <;> rfl
  · rfl

/-- A tool call publishes one event of its thread. -/
theorem emits_toolDone :
    Emits s thread [.tool (Fields.get params "turnId") name result]
      (s.toolDone thread params name result) := by
  have hnote : Emits s thread [] (if result.success then noteTurn thread params s else s) := by
    split
    · unfold noteTurn
      split
      · exact .refl
      · exact .frame .refl rfl rfl rfl
    · exact .refl
  exact hnote.emit _

end ToolDone

theorem emits_handleServerRequest (host : Host) (env : BridgeEnv) (before : Session)
    (message : Fields) (b : Bridge) : ∃ thread bodies,
      Emits b.session thread bodies (handleServerRequest host env before message b).2.session := by
  have h := requestBy_handleServerRequest host env before message b
  generalize (handleServerRequest host env before message b).2 = b' at h ⊢
  cases h with
  | refused => exact ⟨.none, [], .refl⟩
  | called params thread hmethod hparams hthread hknown =>
    rw [session_toolCall]
    exact ⟨thread, _, emits_toolDone _ _ _ _ _⟩

/-! ### The deeds of the runtime -/

/-- The thread that a call registers when it returns. -/
def registered (c : Call) : Option Json :=
  match c.kind, c.outcome with
  | .threadStart, .answered _ result => threadIdOf result
  | _, _ => none

/-- The deed of an action. -/
def deedOf (s : Runtime) : Action → Option Deed
  | .startBegin => some .restart
  | .rpcEnd id =>
    (s.calls.find? fun c => c.id = id && c.target.isSome && !c.outcome.isWaiting).bind fun c =>
      (registered c).map .register
  | .readLine _ line accepts =>
    match classify line with
    | .notification message => some (.notify message accepts)
    | _ => none
  | .taskEnd i env =>
    match s.tasks[i]? with
    | some ⟨_, message, .asked before⟩ =>
      some (.request { env with alive := s.alive } before message)
    | _ => none
  | .close => some .forget
  | _ => none

/-- The bridge after an action, by its deed. -/
def Bridge.afterAction (host : Host) (d : Option Deed) (b : Bridge) : Bridge :=
  match d with
  | none => b
  | some d => b.after host d

theorem bridge_endCall (host : Host) (s : Runtime) (c : Call) :
    (s.endCall c).bridge = s.bridge.afterAction host ((registered c).map .register) := by
  unfold Runtime.endCall registered
  cases hkind : c.kind with
  | threadStart =>
    cases houtcome : c.outcome with
    | answered g result =>
      simp only
      cases threadIdOf result with
      | none => rfl
      | some id => rfl
    | _ => rfl
  | _ => rfl

theorem bridge_receive (host : Host) (s : Runtime) (g : Gen) (line : Line) (accepts : Bool) :
    (s.receive g line accepts).1.bridge =
      s.bridge.afterAction host (deedOf s (.readLine g line accepts)) := by
  simp only [Runtime.receive, deedOf]
  cases classify line with
  | response key message =>
    simp only
    cases hr : s.respond g key message with
    | none => rfl
    | some s₁ =>
      unfold Runtime.respond at hr
      split at hr
      · cases hr
        rfl
      · split at hr <;> cases hr <;> rfl
  | _ => rfl

theorem bridge_nextLine (s : Runtime) (g : Gen) : (s.nextLine g).bridge = s.bridge := by
  unfold Runtime.nextLine
  split <;> rfl

/-- **An action moves the bridge by its deed.** -/
theorem bridge_act {host : Host} {a : Action} {s s' : Runtime} (hact : act host a s = some s') :
    s'.bridge = s.bridge.afterAction host (deedOf s a) := by
  cases acts_of_act hact with
  | rpcEnd hfind =>
    simp only [deedOf, hfind, Option.bind_some]
    exact bridge_endCall host s _
  | @lineRaised g line accepts s₁ hg hreceive =>
    have hbridge := bridge_receive host s g line accepts
    rw [hreceive] at hbridge
    exact hbridge
  | @lineRead g line accepts s₁ hg hreceive =>
    have hbridge := bridge_receive host s g line accepts
    rw [hreceive] at hbridge
    rw [bridge_nextLine]
    exact hbridge
  | taskSilent htask hhandled hreplies | taskReplies htask hhandled hreplies =>
    simp only [deedOf, htask, Bridge.afterAction, Bridge.after, hhandled]
  | _ => rfl

/-- The deeds of a past. -/
def deedsOf (past : List (Transition Runtime Action)) : List Deed :=
  past.filterMap fun x => deedOf x.source x.action

/-- **A run of the runtime moves the bridge along its deeds.** -/
theorem run_bridge {host : Host} {actions : List Action} {s : Runtime}
    {t : Runs.Trace Runtime Action}
    (hrun : Runs.run (Runs.traced (act host)) actions (.start s) = some t) :
    Runs.run (Bridge.step host) (deedsOf t.past) s.bridge = some t.now.bridge := by
  refine Runs.traced_invariant
    (P := fun past s' => Runs.run (Bridge.step host) (deedsOf past) s.bridge = some s'.bridge)
    ?_ actions rfl (Runs.disciplined_true (act host) actions s) hrun
  intro past s₁ a s₂ hpast _ hact
  rw [deedsOf, List.filterMap_append, Runs.run_append]
  simp only [deedsOf] at hpast
  rw [hpast, Option.bind_some, bridge_act hact]
  cases hdeed : deedOf s₁ a with
  | none => simp [hdeed, Runs.run, Bridge.afterAction]
  | some d => simp [hdeed, Runs.run, Bridge.step, Bridge.afterAction]

/-! Notifications for the examples of the modules that follow. -/

/-- An agent message, with its phase. -/
def agentMessage (phase text : Json) : Json :=
  .obj [(Str.ofString "type", .text "agentMessage"), (Str.ofString "phase", phase),
    (Str.ofString "text", text)]

def itemMessage (thread turn : String) (item : Json) : Fields :=
  [(Str.ofString "method", .text "item/completed"),
    (Str.ofString "params", .obj [(Str.ofString "threadId", .text thread),
      (Str.ofString "turnId", .text turn), (Str.ofString "item", item)])]

def turnMessage (thread turn : String) (items : List Json) : Fields :=
  [(Str.ofString "method", .text "turn/completed"),
    (Str.ofString "params", .obj [(Str.ofString "threadId", .text thread),
      (Str.ofString "turn", .obj [(Str.ofString "id", .text turn),
        (Str.ofString "status", .text "completed"), (Str.ofString "items", .arr items)])])]

end QuantFlow
