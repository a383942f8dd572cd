/-
**The policy gate of the agent bridge.**

The App Server asks the bridge to run a tool, to approve a command or a file change, to answer an
elicitation, or something else.  `_handle_server_request` runs registered tools for the threads of
the session, records each call in `agent_runs` before it replies, and declines or denies the rest.

Between the check of the thread and the reply the tool runs in another thread, and the session may
change; so the handler takes two sessions, the one it checked and the one it finds afterwards.
Its effects on the database and on the App Server are a list in the order they happen.

Main definitions:

* `Route`, `route` — what a request asks for;
* `toolCall`, `handleServerRequest` — the handler;
* `Gated` — the policy;
* `Answerable` — the requests that get their reply.

Main results:

* `repliesOf_handleServerRequest` — the replies of a request;
* `handleServerRequest_gated_iff` — **a request is handled by the policy exactly when it
  can be answered**: ids and names have a UTF-8 form and the thread id can be hashed.
-/

import QuantFlow.AgentSession
import QuantFlow.ResearchTools

namespace QuantFlow

open Py (Json Key Str Fields)

/-! ### Replies and effects -/

/-- What a request meets: the tools' environment, whether the audit can be written, the duration
in milliseconds, the texts of lists and dictionaries, and whether the process is alive when the
reply is written. -/
structure BridgeEnv where
  tool : ToolEnv
  auditAccepts : Bool
  elapsed : ℤ
  repr : Json → String
  alive : Bool

inductive Body
  | tool (text : String) (success : Bool)
  | decline
  | declineElicitation

inductive Reply
  | result (id : Json) (body : Body)
  | error (id : Json) (code : ℤ) (message : String)

def Reply.id : Reply → Json
  | .result id _ => id
  | .error id _ _ => id

def deny (id : Json) : Reply := .error id (-32601) "QuantFlow agent policy denies this request"

inductive Effect
  | audited (row : AgentRun)
  | sent (reply : Reply)

def Effect.reply? : Effect → Option Reply
  | .audited _ => none
  | .sent reply => some reply

/-- The replies among the effects. -/
def repliesOf (effects : List Effect) : List Reply := effects.filterMap Effect.reply?

/-- `_write(payload)`: a dead process or an id without a UTF-8 form raises. -/
def write (alive : Bool) (reply : Reply) : List Effect :=
  if alive && reply.id.encodable then [.sent reply] else []

/-- What the bridge reaches. -/
structure Bridge where
  session : Session
  world : World
  runs : List AgentRun

/-! ### Tool calls -/

/-- `f"\x7bparams.get('namespace')\x7d.\x7bparams.get('tool')\x7d"`. -/
def toolName (repr : Json → String) (params : Fields) : Str :=
  (Fields.get params "namespace").format repr ++
    (Str.ofString "." ++ (Fields.get params "tool").format repr)

/-- The arguments that go to `invoke`: an object, or nothing at all, of at most 10000 characters. -/
def argumentsOf (params : Fields) : Option Fields :=
  match asFields (Fields.get params "arguments") with
  | .error _ => none
  | .ok arguments => if 10000 < (Json.obj arguments).dumps.length then none else some arguments

variable (host : Host) (env : BridgeEnv)

/-- The result of the tool before the audit. -/
def askTool (params : Fields) (w : World) : ToolResult × World :=
  match argumentsOf params with
  | none =>
    (.failure (toolName env.repr params) "invalid_input" "工具输入格式或大小不符合要求", w)
  | some arguments => invoke host env.tool (toolName env.repr params) arguments w

/-- The arguments as they are recorded; those of a refused call or an unknown tool are not. -/
def recordedArguments (params : Fields) : Fields :=
  match argumentsOf params with
  | none => []
  | some arguments =>
    match Tool.ofName (toolName env.repr params) with
    | none => []
    | some _ => arguments

/-- The row of `_audit_tool`.  A thread of the session is not `None`, so `params["threadId"]` is
there. -/
def auditRow (params : Fields) (asked : ToolResult) : AgentRun :=
  { threadId := Fields.get params "threadId", turnId := textOr params "turnId",
    toolsCalled := [toolName env.repr params], toolInputs := .obj (recordedArguments env params),
    toolOutputs := some asked, durationMs := .int env.elapsed, finalResult := .null }

/-- `_audit_tool` inserts the row. -/
def audits (params : Fields) (asked : ToolResult) : Bool :=
  env.auditAccepts && (auditRow env params asked).admitted

/-- The result that is reported. -/
def reported (params : Fields) (asked : ToolResult) : ToolResult :=
  if audits env params asked then asked
  else .failure (toolName env.repr params) "audit_unavailable" "Agent 审计记录失败；工具结果已封锁"

/-- `_tool_turns.add((params["threadId"], params.get("turnId")))`, after a success.  An audited turn
id can be hashed. -/
def noteTurn (thread : Key) (params : Fields) (s : Session) : Session :=
  match (Fields.get params "turnId").hash with
  | none => s
  | some turn => { s with toolTurns := (thread, turn) :: s.toolTurns }

/-- The branch of a tool call. -/
def toolCall (id : Json) (thread : Key) (params : Fields) (b : Bridge) : List Effect × Bridge :=
  let (asked, world) := askTool host env params b.world
  let stored := audits env params asked
  let result := reported env params asked
  let session := if result.success then noteTurn thread params b.session else b.session
  let session := session.emit thread
    (.tool (Fields.get params "turnId") (toolName env.repr params) result)
  let reply :=
    match host.render result with
    | none => []
    | some text => write env.alive (.result id (.tool text result.success))
  ((if stored then [.audited (auditRow env params asked)] else []) ++ reply,
    { session := session, world := world,
      runs := if stored then b.runs ++ [auditRow env params asked] else b.runs })

/-! ### The handler -/

/-- What a request asks for. -/
inductive Route
  | raises
  | tool (params : Fields) (thread : Key)
  | decline
  | declineElicitation
  | deny

/-- The branches of `_handle_server_request`; `before` is the session when the request is taken
up. -/
def route (before : Session) (message : Fields) : Route :=
  let method := Fields.get message "method"
  if isText method "item/tool/call" then
    match asFields (Fields.get message "params") with
    | .error _ => .raises
    | .ok params =>
      match (Fields.get params "threadId").hash with
      | none => .raises
      | some thread => if thread ∈ before.threads then .tool params thread else .deny
  else if isText method "item/commandExecution/requestApproval" ||
      isText method "item/fileChange/requestApproval" then .decline
  else if isText method "mcpServer/elicitation/request" then .declineElicitation
  else .deny

/-- `_handle_server_request(message)`. -/
def handleServerRequest (before : Session) (message : Fields) (b : Bridge) :
    List Effect × Bridge :=
  let id := Fields.get message "id"
  match route before message with
  | .raises => ([], b)
  | .tool params thread => toolCall host env id thread params b
  | .decline => (write env.alive (.result id .decline), b)
  | .declineElicitation => (write env.alive (.result id .declineElicitation), b)
  | .deny => (write env.alive (deny id), b)

variable {host env}

theorem threads_handleServerRequest (host : Host) (env : BridgeEnv) (before : Session)
    (message : Fields) (b : Bridge) :
    (handleServerRequest host env before message b).2.session.threads = b.session.threads := by
  have hnote : ∀ thread params, (noteTurn thread params b.session).threads = b.session.threads := by
    intro thread params
    unfold noteTurn
    split <;> rfl
  unfold handleServerRequest
  split
  · rfl
  · simp only [toolCall, threads_emit]
    split
    · exact hnote _ _
    · rfl
  · rfl
  · rfl
  · rfl

/-! ### Names and texts -/

/-- The strings among the namespace and the tool of a call have a UTF-8 form. -/
def ProperName (params : Fields) : Prop :=
  ∀ key ∈ ["namespace", "tool"], ∀ s, Fields.get params key = .str s → Str.encodable s = true

theorem encodable_format_iff (repr : Json → String) (x : Json) :
    Str.encodable (x.format repr) = true ↔ ∀ s, x = .str s → Str.encodable s = true := by
  have h := Json.encodable_format repr x
  constructor
  · intro htrue s hs
    by_contra hfalse
    have := h.2 ⟨s, hs, by simpa using hfalse⟩
    rw [htrue] at this
    cases this
  · intro hall
    by_contra hfalse
    obtain ⟨s, hs, hbad⟩ := h.1 (by simpa using hfalse)
    rw [hall s hs] at hbad
    cases hbad

theorem encodable_toolName_iff (repr : Json → String) (params : Fields) :
    Str.encodable (toolName repr params) = true ↔ ProperName params := by
  unfold toolName ProperName
  rw [Str.encodable_append, Str.encodable_append, Str.encodable_ofString, Bool.true_and,
    Bool.and_eq_true, encodable_format_iff, encodable_format_iff]
  simp only [List.mem_cons, List.not_mem_nil, or_false, forall_eq_or_imp, forall_eq]

theorem ofName_of_not_encodable {name : Str} (h : Str.encodable name = false) :
    Tool.ofName name = none := by
  cases ht : Tool.ofName name with
  | none => rfl
  | some tool =>
    rw [Tool.ofName_eq_some.1 ht, Str.encodable_ofString] at h
    cases h

/-- A result that `invoke` passes on has a text, if its name has one. -/
theorem render_settle {name : Str} (h : Str.encodable name = true)
    (res : Except PyError ToolResult) : (host.render (settle host name res)).isSome = true := by
  cases res with
  | error e => exact (host.render_failure _ _ _ _).trans h
  | ok result =>
    cases hr : host.render result with
    | none =>
      simp only [settle, hr]
      exact (host.render_failure _ _ _ _).trans h
    | some text =>
      by_cases hlong : 30000 < text.length
      · simp only [settle, hr, if_pos hlong]
        exact (host.render_failure _ _ _ _).trans h
      · simp only [settle, hr, if_neg hlong, Option.isSome_some]

theorem render_invoke {name : Str} (h : Str.encodable name = true) (e : ToolEnv)
    (arguments : Fields) (w : World) :
    (host.render (invoke host e name arguments w).1).isSome = true := by
  unfold invoke
  split
  · exact (host.render_failure _ _ _ _).trans h
  · split
    · exact (host.render_failure _ _ _ _).trans h
    · exact render_settle h _

/-- The reported result has a text exactly when its name has a UTF-8 form. -/
theorem render_reported (host : Host) (env : BridgeEnv) (params : Fields) (w : World) :
    (host.render (reported env params (askTool host env params w).1)).isSome =
      Str.encodable (toolName env.repr params) := by
  by_cases h : Str.encodable (toolName env.repr params) = true
  · rw [h]
    unfold reported
    split
    · unfold askTool
      split
      · exact (host.render_failure _ _ _ _).trans h
      · exact render_invoke h _ _ _
    · exact (host.render_failure _ _ _ _).trans h
  · -- the tool is unknown, its failure cannot be stored, and neither failure has a text
    rw [Bool.not_eq_true] at h
    rw [h]
    have hasked : Str.encodable (askTool host env params w).1.tool = false := by
      unfold askTool
      split
      · exact h
      · unfold invoke
        rw [ofName_of_not_encodable h]
        exact h
    have hnot : audits env params (askTool host env params w).1 = false := by
      simp [audits, AgentRun.admitted, auditRow, ToolResult.encodable, hasked]
    rw [reported, if_neg (by simp [hnot]), host.render_failure, h]

/-! ### The policy -/

/-- What stands behind an affirmative reply: a call of a registered tool on a known thread, whose
arguments (a value that is false counts as the empty object) are short and pass the schema, and a
row with its name, thread and result, inserted before the reply. -/
def Backed (host : Host) (env : BridgeEnv) (before : Session) (message : Fields)
    (earlier : List Effect) (runs : List AgentRun) (text : String) : Prop :=
  isText (Fields.get message "method") "item/tool/call" = true ∧
    ∃ params thread tool arguments input row result,
      asFields (Fields.get message "params") = .ok params ∧
      (Fields.get params "threadId").hash = some thread ∧ thread ∈ before.threads ∧
      toolName env.repr params = Str.ofString tool.name ∧
      asFields (Fields.get params "arguments") = .ok arguments ∧
      (Json.obj arguments).dumps.length ≤ 10000 ∧
      host.validator.validate tool arguments = some input ∧
      Effect.audited row ∈ earlier ∧ row ∈ runs ∧
      row.toolsCalled = [Str.ofString tool.name] ∧
      Fields.find params "threadId" = some row.threadId ∧
      row.toolOutputs = some result ∧ result.success = true ∧ host.render result = some text

/-- A request to approve a command or a file change. -/
def asksApproval (message : Fields) : Bool :=
  isText (Fields.get message "method") "item/commandExecution/requestApproval" ||
    isText (Fields.get message "method") "item/fileChange/requestApproval"

def asksElicitation (message : Fields) : Bool :=
  isText (Fields.get message "method") "mcpServer/elicitation/request"

/-- A tool call on a thread of the session. -/
def CallsTool (before : Session) (message : Fields) : Prop :=
  isText (Fields.get message "method") "item/tool/call" = true ∧
    ∃ params thread, asFields (Fields.get message "params") = .ok params ∧
      (Fields.get params "threadId").hash = some thread ∧ thread ∈ before.threads

/-- The policy, for what the handler of a request did. -/
structure Gated (host : Host) (env : BridgeEnv) (before : Session) (message : Fields)
    (out : List Effect × Bridge) : Prop where
  affirmative : ∀ earlier later id text,
    out.1 = earlier ++ .sent (.result id (.tool text true)) :: later →
      Backed host env before message earlier out.2.runs text
  approval : asksApproval message = true →
    ∀ r ∈ repliesOf out.1, r = .result (Fields.get message "id") .decline
  elicitation : asksElicitation message = true →
    ∀ r ∈ repliesOf out.1, r = .result (Fields.get message "id") .declineElicitation
  other : asksApproval message = false → asksElicitation message = false →
    ¬ CallsTool before message → ∀ r ∈ repliesOf out.1, r = deny (Fields.get message "id")
  one : env.alive = true → ∃ r, repliesOf out.1 = [r] ∧ r.id = Fields.get message "id"

/-- The request can be answered: its id has a UTF-8 form, and a tool call has an object or nothing
for its parameters, a thread id that can be hashed, and a proper name if the thread is known. -/
def Answerable (before : Session) (message : Fields) : Prop :=
  (Fields.get message "id").encodable = true ∧
    (isText (Fields.get message "method") "item/tool/call" = true →
      ∃ params thread, asFields (Fields.get message "params") = .ok params ∧
        (Fields.get params "threadId").hash = some thread ∧
        (thread ∈ before.threads → ProperName params))

/-! ### Where a request goes -/

theorem isText_of_ne {x : Json} {s t : String} (hs : isText x s = true) (hne : s ≠ t) :
    isText x t = false := by
  rw [← Bool.not_eq_true]
  intro ht
  cases x with
  | str u =>
    have hu : u = Str.ofString s := of_decide_eq_true hs
    have hv : u = Str.ofString t := of_decide_eq_true ht
    exact hne (Str.ofString_injective (hu.symm.trans hv))
  | _ => cases hs

theorem route_of_asksApproval {before : Session} {message : Fields}
    (h : asksApproval message = true) : route before message = .decline := by
  have hcall : isText (Fields.get message "method") "item/tool/call" = false := by
    rcases Bool.or_eq_true_iff.1 h with hcommand | hfile
    · exact isText_of_ne hcommand (by decide)
    · exact isText_of_ne hfile (by decide)
  unfold asksApproval at h
  simp only [route, hcall, h, if_true, Bool.false_eq_true, if_false]

theorem route_of_asksElicitation {before : Session} {message : Fields}
    (h : asksElicitation message = true) : route before message = .declineElicitation := by
  unfold asksElicitation at h
  have hcall := isText_of_ne (t := "item/tool/call") h (by decide)
  have hcommand := isText_of_ne (t := "item/commandExecution/requestApproval") h (by decide)
  have hfile := isText_of_ne (t := "item/fileChange/requestApproval") h (by decide)
  simp only [route, hcall, hcommand, hfile, h, Bool.or_self, if_true, Bool.false_eq_true, if_false]

theorem route_of_not_call (before : Session) {message : Fields}
    (h : isText (Fields.get message "method") "item/tool/call" = false) :
    route before message = .decline ∨ route before message = .declineElicitation ∨
      route before message = .deny := by
  simp only [route, h, Bool.false_eq_true, if_false]
  split
  · exact .inl rfl
  · split
    · exact .inr (.inl rfl)
    · exact .inr (.inr rfl)

/-- A tool call raises, is denied, or is run, by its parameters and its thread. -/
theorem route_of_call (before : Session) {message : Fields}
    (h : isText (Fields.get message "method") "item/tool/call" = true) :
    (route before message = .raises ∧
      ¬ ∃ params thread, asFields (Fields.get message "params") = .ok params ∧
        (Fields.get params "threadId").hash = some thread) ∨
    ∃ params thread, asFields (Fields.get message "params") = .ok params ∧
      (Fields.get params "threadId").hash = some thread ∧
      route before message = if thread ∈ before.threads then .tool params thread else .deny := by
  cases hp : asFields (Fields.get message "params") with
  | error e =>
    refine .inl ⟨by simp only [route, h, hp, if_true], ?_⟩
    rintro ⟨params, thread, hparams, -⟩
    cases hparams
  | ok params =>
    cases ht : (Fields.get params "threadId").hash with
    | none =>
      refine .inl ⟨by simp only [route, h, hp, ht, if_true], ?_⟩
      rintro ⟨params', thread, hparams, hthread⟩
      cases hparams
      rw [ht] at hthread
      cases hthread
    | some thread =>
      exact .inr ⟨params, thread, rfl, ht, by simp only [route, h, hp, ht, if_true]⟩

theorem route_eq_tool {before : Session} {message params : Fields} {thread : Key}
    (h : route before message = .tool params thread) :
    isText (Fields.get message "method") "item/tool/call" = true ∧
      asFields (Fields.get message "params") = .ok params ∧
      (Fields.get params "threadId").hash = some thread ∧ thread ∈ before.threads := by
  by_cases hcall : isText (Fields.get message "method") "item/tool/call" = true
  · rcases route_of_call before hcall with ⟨hraises, -⟩ | ⟨params', thread', hp, ht, heq⟩
    · rw [hraises] at h
      cases h
    · rw [heq] at h
      split at h
      · rename_i hmem
        cases h
        exact ⟨hcall, hp, ht, hmem⟩
      · cases h
  · rw [Bool.not_eq_true] at hcall
    rcases route_of_not_call before hcall with hr | hr | hr <;>
      · rw [hr] at h
        cases h

/-- Whether a request can be answered, read off its route. -/
theorem answerable_iff (before : Session) (message : Fields) :
    Answerable before message ↔ (Fields.get message "id").encodable = true ∧
      route before message ≠ .raises ∧
      ∀ params thread, route before message = .tool params thread → ProperName params := by
  unfold Answerable
  refine and_congr_right fun _ => ?_
  by_cases hcall : isText (Fields.get message "method") "item/tool/call" = true
  · rw [forall_prop_of_true hcall]
    rcases route_of_call before hcall with ⟨hraises, hnone⟩ | ⟨params, thread, hp, ht, heq⟩
    · constructor
      · rintro ⟨params, thread, hp, ht, -⟩
        exact absurd ⟨params, thread, hp, ht⟩ hnone
      · rintro ⟨hne, -⟩
        exact absurd hraises hne
    · constructor
      · rintro ⟨params', thread', hp', ht', hproper⟩
        rw [hp] at hp'
        cases hp'
        rw [ht] at ht'
        cases ht'
        refine ⟨?_, ?_⟩
        · rw [heq]
          split <;> simp
        · intro params' thread' hroute
          obtain ⟨-, hp', -, hmem⟩ := route_eq_tool hroute
          rw [heq] at hroute
          split at hroute
          · rename_i hknown
            cases hroute
            exact hproper hknown
          · cases hroute
      · rintro ⟨-, hproper⟩
        refine ⟨params, thread, hp, ht, ?_⟩
        intro hknown
        exact hproper params thread (by rw [heq, if_pos hknown])
  · rw [forall_prop_of_false hcall, true_iff]
    rw [Bool.not_eq_true] at hcall
    rcases route_of_not_call before hcall with hr | hr | hr <;> simp [hr]

/-! ### The reply -/

/-- The reply of the handler, if it gets as far as writing one. -/
def replyTo (host : Host) (env : BridgeEnv) (before : Session) (message : Fields) (b : Bridge) :
    Option Reply :=
  let id := Fields.get message "id"
  match route before message with
  | .raises => none
  | .tool params _ =>
    let result := reported env params (askTool host env params b.world).1
    (host.render result).map fun text => .result id (.tool text result.success)
  | .decline => some (.result id .decline)
  | .declineElicitation => some (.result id .declineElicitation)
  | .deny => some (deny id)

theorem repliesOf_write (alive : Bool) (reply : Reply) :
    repliesOf (write alive reply) = if alive && reply.id.encodable then [reply] else [] := by
  unfold write
  split <;> rfl

theorem repliesOf_append (xs ys : List Effect) :
    repliesOf (xs ++ ys) = repliesOf xs ++ repliesOf ys := by
  simp [repliesOf]

/-- The replies of a request: its reply, if the process is alive and the id can be written. -/
theorem repliesOf_handleServerRequest (before : Session) (message : Fields) (b : Bridge) :
    repliesOf (handleServerRequest host env before message b).1 =
      if env.alive && (Fields.get message "id").encodable then
        (replyTo host env before message b).toList
      else [] := by
  unfold handleServerRequest replyTo
  cases hr : route before message with
  | raises =>
    simp only [Option.toList_none, ite_self]
    rfl
  | tool params thread =>
    have haudit : ∀ c row, repliesOf (if c = true then [Effect.audited row] else []) = [] := by
      intro c row
      split <;> rfl
    simp only [toolCall, repliesOf_append, haudit, List.nil_append]
    cases host.render (reported env params (askTool host env params b.world).1) with
    | none =>
      simp only [Option.map_none, Option.toList_none, ite_self]
      rfl
    | some text => exact repliesOf_write _ _
  | decline => exact repliesOf_write _ _
  | declineElicitation => exact repliesOf_write _ _
  | deny => exact repliesOf_write _ _

theorem id_of_replyTo {before : Session} {message : Fields} {b : Bridge} {r : Reply}
    (h : replyTo host env before message b = some r) : r.id = Fields.get message "id" := by
  unfold replyTo at h
  cases hr : route before message with
  | raises =>
    simp only [hr] at h
    cases h
  | tool params thread =>
    simp only [hr] at h
    obtain ⟨text, -, rfl⟩ := Option.map_eq_some_iff.1 h
    rfl
  | _ =>
    simp only [hr] at h
    cases h
    rfl

/-- There is a reply unless reading the request raises or the name of its tool has no text. -/
theorem isSome_replyTo_iff (host : Host) (env : BridgeEnv) (before : Session) (message : Fields)
    (b : Bridge) :
    (replyTo host env before message b).isSome = true ↔ route before message ≠ .raises ∧
      ∀ params thread, route before message = .tool params thread → ProperName params := by
  unfold replyTo
  cases hr : route before message with
  | raises => simp
  | tool params thread =>
    simp only [Option.isSome_map]
    rw [render_reported, encodable_toolName_iff]
    constructor
    · intro hproper
      refine ⟨by simp, ?_⟩
      intro params' thread' heq
      cases heq
      exact hproper
    · rintro ⟨-, hproper⟩
      exact hproper params thread rfl
  | _ => simp

/-- A living process gets exactly one reply, with the id of the request, if it can be answered. -/
theorem one_reply_iff (host : Host) {env : BridgeEnv} (halive : env.alive = true) (before : Session)
    (message : Fields) (b : Bridge) :
    (∃ r, repliesOf (handleServerRequest host env before message b).1 = [r] ∧
      r.id = Fields.get message "id") ↔ Answerable before message := by
  rw [repliesOf_handleServerRequest, halive, Bool.true_and, answerable_iff,
    ← isSome_replyTo_iff host env before message b]
  constructor
  · rintro ⟨r, hr, -⟩
    split at hr
    · rename_i hid
      refine ⟨hid, ?_⟩
      cases h : replyTo host env before message b with
      | none =>
        rw [h] at hr
        cases hr
      | some reply => rfl
    · cases hr
  · rintro ⟨hid, hsome⟩
    obtain ⟨r, hr⟩ := Option.isSome_iff_exists.1 hsome
    refine ⟨r, ?_, id_of_replyTo hr⟩
    rw [if_pos hid, hr]
    rfl

theorem mem_repliesOf {before : Session} {message : Fields} {b : Bridge} {r : Reply}
    (h : r ∈ repliesOf (handleServerRequest host env before message b).1) :
    replyTo host env before message b = some r := by
  rw [repliesOf_handleServerRequest] at h
  split at h
  · exact Option.mem_toList.1 h
  · cases h

/-! ### Affirmative replies -/

theorem find_of_truthy {d : Fields} {key : String} (h : (Fields.get d key).truthy = true) :
    Fields.find d key = some (Fields.get d key) := by
  unfold Fields.get at h ⊢
  cases hf : Fields.find d key with
  | none =>
    rw [hf] at h
    cases h
  | some x => rfl

/-- A success that is reported was audited, and is what the tool answered. -/
theorem reported_success {params : Fields} {asked : ToolResult}
    (h : (reported env params asked).success = true) :
    audits env params asked = true ∧ reported env params asked = asked := by
  unfold reported at h ⊢
  split at h
  · rename_i haudit
    exact ⟨haudit, if_pos haudit⟩
  · cases h

/-- A tool that answered had short arguments of its schema. -/
theorem askTool_success {params : Fields} {w : World}
    (h : (askTool host env params w).1.success = true) :
    ∃ tool arguments input, toolName env.repr params = Str.ofString tool.name ∧
      asFields (Fields.get params "arguments") = .ok arguments ∧
      (Json.obj arguments).dumps.length ≤ 10000 ∧
      host.validator.validate tool arguments = some input := by
  unfold askTool at h
  cases ha : argumentsOf params with
  | none =>
    simp only [ha] at h
    cases h
  | some arguments =>
    simp only [ha] at h
    obtain ⟨tool, input, hname, hvalid, -⟩ := invoke_success h
    unfold argumentsOf at ha
    split at ha
    · cases ha
    · rename_i arguments' hfields
      split at ha
      · cases ha
      · rename_i hshort
        cases ha
        exact ⟨tool, arguments, input, Tool.ofName_eq_some.1 hname, hfields, not_lt.1 hshort,
          hvalid⟩

theorem route_of_affirmative {before : Session} {message : Fields} {b : Bridge} {id : Json}
    {text : String} {success : Bool}
    (h : replyTo host env before message b = some (.result id (.tool text success))) :
    ∃ params thread, route before message = .tool params thread ∧
      host.render (reported env params (askTool host env params b.world).1) = some text ∧
      (reported env params (askTool host env params b.world).1).success = success := by
  unfold replyTo at h
  cases hr : route before message with
  | tool params thread =>
    simp only [hr] at h
    obtain ⟨text', htext, heq⟩ := Option.map_eq_some_iff.1 h
    cases heq
    exact ⟨params, thread, rfl, htext, rfl⟩
  | _ =>
    simp only [hr] at h
    cases h

theorem backed_of_affirmative {before : Session} {message : Fields} {b : Bridge}
    {earlier later : List Effect} {id : Json} {text : String}
    (h : (handleServerRequest host env before message b).1 =
      earlier ++ .sent (.result id (.tool text true)) :: later) :
    Backed host env before message earlier
      (handleServerRequest host env before message b).2.runs text := by
  have hmem : Reply.result id (.tool text true) ∈
      repliesOf (handleServerRequest host env before message b).1 := by
    rw [h, repliesOf_append]
    exact List.mem_append_right _ List.mem_cons_self
  obtain ⟨params, thread, hroute, htext, hsuccess⟩ := route_of_affirmative (mem_repliesOf hmem)
  obtain ⟨hcall, hparams, hthread, hknown⟩ := route_eq_tool hroute
  obtain ⟨haudit, hasked⟩ := reported_success hsuccess
  rw [hasked] at htext hsuccess
  obtain ⟨tool, arguments, input, hname, hargs, hshort, hvalid⟩ := askTool_success hsuccess
  have htruthy : (Fields.get params "threadId").truthy = true := by
    rw [Json.truthy_of_hash hthread]
    exact before.named thread hknown
  have hrow : Effect.audited (auditRow env params (askTool host env params b.world).1) ∈
      earlier := by
    -- the row is the first effect, and it is no reply
    simp only [handleServerRequest, hroute, toolCall, haudit, if_true, List.cons_append] at h
    cases earlier with
    | nil => cases h
    | cons e earlier =>
      obtain ⟨rfl, -⟩ := List.cons.inj h
      exact List.mem_cons_self
  refine ⟨hcall, params, thread, tool, arguments, input, _, _, hparams, hthread, hknown, hname,
    hargs, hshort, hvalid, hrow, ?_, ?_, find_of_truthy htruthy, rfl, hsuccess, htext⟩
  · simp only [handleServerRequest, hroute, toolCall, haudit, if_true]
    exact List.mem_append_right _ List.mem_cons_self
  · exact congrArg (fun name => [name]) hname

theorem route_of_other {before : Session} {message : Fields}
    (happroval : asksApproval message = false) (helicitation : asksElicitation message = false)
    (hcalls : ¬ CallsTool before message) :
    route before message = .raises ∨ route before message = .deny := by
  by_cases hcall : isText (Fields.get message "method") "item/tool/call" = true
  · rcases route_of_call before hcall with ⟨hraises, -⟩ | ⟨params, thread, hp, ht, heq⟩
    · exact .inl hraises
    · have hunknown : thread ∉ before.threads := by
        intro hmem
        exact hcalls ⟨hcall, params, thread, hp, ht, hmem⟩
      rw [heq, if_neg hunknown]
      exact .inr rfl
  · rw [Bool.not_eq_true] at hcall
    unfold asksApproval at happroval
    unfold asksElicitation at helicitation
    right
    simp only [route, hcall, happroval, helicitation, Bool.false_eq_true, if_false]

/-- **A request is handled by the policy exactly when it can be answered, or the process is
dead.**  Everything but the one reply holds for every request. -/
theorem handleServerRequest_gated_iff (host : Host) (env : BridgeEnv) (before : Session)
    (message : Fields) (b : Bridge) :
    Gated host env before message (handleServerRequest host env before message b) ↔
      (env.alive = true → Answerable before message) := by
  constructor
  · intro hgated halive
    exact (one_reply_iff host halive before message b).1 (hgated.one halive)
  · intro hanswer
    refine ⟨?_, ?_, ?_, ?_, ?_⟩
    · intro earlier later id text h
      exact backed_of_affirmative h
    · intro happroval r hr
      have h := mem_repliesOf hr
      simp only [replyTo, route_of_asksApproval happroval] at h
      exact (Option.some.inj h).symm
    · intro helicitation r hr
      have h := mem_repliesOf hr
      simp only [replyTo, route_of_asksElicitation helicitation] at h
      exact (Option.some.inj h).symm
    · intro happroval helicitation hcalls r hr
      have h := mem_repliesOf hr
      rcases route_of_other happroval helicitation hcalls with hroute | hroute
      · simp only [replyTo, hroute] at h
        cases h
      · simp only [replyTo, hroute] at h
        exact (Option.some.inj h).symm
    · intro halive
      exact (one_reply_iff host halive before message b).2 (hanswer halive)

/-! A tool call whose thread id is a list. -/

/-- A session with the thread `"t1"`. -/
def oneThread : Session := Session.empty.addThread (.text "t1")

def weekBridge : Bridge := { session := oneThread, world := emptyWorld, runs := [] }

def weekBridgeEnv : BridgeEnv :=
  { tool := weekEnv, auditAccepts := true, elapsed := 12, repr := fun _ => "['t1']", alive := true }

/-- `fund.history` for the fund of five days, on a given thread. -/
def historyCall (thread : Json) : Fields :=
  [(Str.ofString "id", .int 7), (Str.ofString "method", .text "item/tool/call"),
    (Str.ofString "params", .obj
      [(Str.ofString "threadId", thread), (Str.ofString "turnId", .text "u1"),
        (Str.ofString "namespace", .text "fund"), (Str.ofString "tool", .text "history"),
        (Str.ofString "arguments", .obj weekArguments)])]

/-- The list cannot be looked up in the set of threads, and the request is never answered. -/
theorem list_thread_unanswered :
    ¬ Gated weekHost weekBridgeEnv oneThread (historyCall (.arr [.text "t1"]))
      (handleServerRequest weekHost weekBridgeEnv oneThread (historyCall (.arr [.text "t1"]))
        weekBridge) := by
  intro hgated
  obtain ⟨r, hr, -⟩ := hgated.one rfl
  have hnone : (repliesOf (handleServerRequest weekHost weekBridgeEnv oneThread
      (historyCall (.arr [.text "t1"])) weekBridge).1).length = 0 := by
    decide +kernel
  rw [hr] at hnone
  cases hnone

/-- On the thread itself the same call is answered. -/
example : (repliesOf (handleServerRequest weekHost weekBridgeEnv oneThread
    (historyCall (.text "t1")) weekBridge).1).length = 1 := by
  decide +kernel

end QuantFlow
