/-
**The runtime around the App Server process.**

`CodexAppServerRuntime` talks to one process at a time.  `start` replaces a dead process; each
process it spawns is a *generation*.  Around the process there are coroutines that outlive it: a
reader of its output, a task for each request it sent, and calls that wait for its responses.  They
share `self.process`, `self._pending` and `self._threads` with those of the next generation.

An action is what one coroutine does between two suspensions, or what happens to a process.  A
run is any list of actions that are enabled one after the other, so it is any interleaving.  What
the code does not know is kept beside the state: the generation a call was written to, the one a
task came from, the thread ids each generation returned, and where each reply went.

Main definitions:

* `Line`, `Reading`, `classify` — a line of output, and what the reader takes it for;
* `Runtime`, `Action`, `act` — the runtime and its actions;
* `Acts` — the actions with the conditions on which they are enabled;
* `Line.wellFormed` — the lines whose fields have the expected types.

Main results:

* `acts_of_act` — **what an action can do**, from which the invariants are derived;
* `receive_of_wellFormed` — a well-formed line does not make the reader raise;
* `frame_receive` — a line changes neither the process nor the readers.
-/

import QuantFlow.AgentBridge

namespace QuantFlow

open Py (Json Key Str Fields)

/-! ### Lines -/

/-- A line of output as the decoder sees it: text that is no JSON, which is skipped; a line on which
the reader raises, because it is too long or no UTF-8, has an integer of more than 4300 digits or is
nested too deeply; or a value. -/
inductive Line
  | undecodable
  | unreadable
  | value (x : Json)

/-- What the reader takes a line for. -/
inductive Reading
  | ignored
  | raises
  | request (message : Fields)
  | response (id : Key) (message : Fields)
  | notification (message : Fields)

def hasKey (d : Fields) (key : String) : Bool := (Fields.find d key).isSome

/-- A value that is no dictionary but can be searched for the two keys.  With both, a task is
created that raises at once; with one, the reader itself raises. -/
def searched (id method : Bool) : Reading :=
  if id = method then .ignored else .raises

def classifyValue : Json → Reading
  | .obj message =>
    if hasKey message "id" then
      if hasKey message "method" then .request message
      else
        match (Fields.get message "id").hash with
        | none => .raises
        | some id => .response id message
    else if hasKey message "method" then .notification message
    else .ignored
  | .arr elems => searched (elems.any (isText · "id")) (elems.any (isText · "method"))
  | .str s => searched (Str.ofString "id" <:+: s) (Str.ofString "method" <:+: s)
  | _ => .raises

def classify : Line → Reading
  | .undecodable => .ignored
  | .unreadable => .raises
  | .value x => classifyValue x

/-! ### The runtime -/

abbrev Gen := ℕ

inductive CallKind
  | initializeServer
  | threadStart
  | turnStart (thread : Key)
  | turnInterrupt (thread : Key)
  deriving DecidableEq

/-- The future of a call: waiting, answered by a line of a generation, refused by an error in such
a line, with the value that `str` makes its text of, or failed because the output ended. -/
inductive Outcome
  | waiting
  | answered (origin : Gen) (result : Json)
  | refused (message : Json)
  | disconnected

def Outcome.isWaiting : Outcome → Bool
  | .waiting => true
  | _ => false

/-- A call in `_pending`, with the generation it was written to. -/
structure Call where
  id : ℕ
  kind : CallKind
  target : Option Gen
  outcome : Outcome

/-- Where the task of a request stands: created, its tool asked, or its reply waiting to be
written. -/
inductive Stage
  | created
  | asked (before : Session)
  | writing (reply : Reply)

structure Task where
  origin : Gen
  message : Fields
  stage : Stage

/-- A reply that was written, with the generation of the request. -/
structure Written where
  dest : Gen
  origin : Gen
  reply : Reply

inductive Phase
  | idle
  | spawning
  | handshaking (call : ℕ)
  deriving DecidableEq

structure Runtime where
  process : Option Gen
  spawned : ℕ
  exited : List Gen
  hungUp : List Gen
  phase : Phase
  nextId : ℕ
  calls : List Call
  readers : List Gen
  tasks : List Task
  bridge : Bridge
  returned : List (Gen × Key)
  written : List Written

/-- A runtime before its first start. -/
def Runtime.initial (w : World) (runs : List AgentRun) : Runtime :=
  { process := none, spawned := 0, exited := [], hungUp := [], phase := .idle, nextId := 0,
    calls := [], readers := [], tasks := [],
    bridge := { session := .empty, world := w, runs := runs }, returned := [], written := [] }

/-- `self._threads`. -/
def Runtime.threads (s : Runtime) : List Key := s.bridge.session.threads

/-- `self.process and self.process.returncode is None`. -/
def Runtime.alive (s : Runtime) : Bool :=
  match s.process with
  | none => false
  | some g => g ∉ s.exited

def Runtime.withSession (s : Runtime) (session : Session) : Runtime :=
  { s with bridge := { s.bridge with session := session } }

/-- What a start clears. -/
def Session.restart (s : Session) : Session :=
  { s with
    threads := [], finalMessages := [], toolTurns := [], integrationVerified := false
    named := named_nil }

/-- What `close` clears. -/
def Session.dropThreads (s : Session) : Session := { s with threads := [], named := named_nil }

/-! ### Calls -/

/-- The first part of `_rpc`: the call is registered, and dropped again if the process is dead. -/
def Runtime.beginCall (s : Runtime) (kind : CallKind) : Runtime :=
  let id := s.nextId + 1
  { s with
    nextId := id
    calls :=
      if s.alive then s.calls ++ [{ id := id, kind := kind, target := none, outcome := .waiting }]
      else s.calls }

/-- `run_turn` and `cancel` ask for a known thread first. -/
def CallKind.permitted (kind : CallKind) (s : Runtime) : Bool :=
  match kind with
  | .initializeServer => false
  | .threadStart => true
  | .turnStart thread => thread ∈ s.threads
  | .turnInterrupt thread => thread ∈ s.threads

/-- A change of the call with a given id. -/
def Runtime.updateCall (s : Runtime) (id : ℕ) (f : Call → Call) : Runtime :=
  { s with calls := s.calls.map fun c => if c.id = id then f c else c }

/-- `self._pending.pop(call_id, None)`. -/
def Runtime.popCall (s : Runtime) (id : ℕ) : Runtime :=
  { s with calls := s.calls.filter fun c => c.id ≠ id }

/-- `response.get("thread", \x7b\x7d).get("id")`; `none` is an exception. -/
def threadIdOf : Json → Option Json
  | .obj response =>
    match (Fields.find response "thread").getD (.obj []) with
    | .obj thread => some (Fields.get thread "id")
    | _ => none
  | _ => none

/-- The end of a call: `create_thread` adds the thread it was given. -/
def Runtime.endCall (s : Runtime) (c : Call) : Runtime :=
  let s := s.popCall c.id
  match c.kind, c.outcome with
  | .threadStart, .answered _ result =>
    match threadIdOf result with
    | none => s
    | some id => s.withSession (s.bridge.session.addThread id)
  | _, _ => s

/-! ### Readers -/

/-- The `finally` of a reader: every future that is not done is failed. -/
def Runtime.failWaiting (s : Runtime) : Runtime :=
  { s with calls := s.calls.map fun c =>
      if c.outcome.isWaiting then { c with outcome := .disconnected } else c }

def Runtime.stopReader (s : Runtime) (g : Gen) : Runtime :=
  { s with readers := s.readers.erase g }.failWaiting

/-- After a line the reader looks at `self.process` again. -/
def Runtime.nextLine (s : Runtime) (g : Gen) : Runtime :=
  match s.process with
  | none => s
  | some current => { s with readers := s.readers.erase g ++ [current] }

/-- `message["error"].get("message", "RPC failed")`. -/
def refusal (e : Fields) : Json := (Fields.find e "message").getD (.text "RPC failed")

/-- A response for a waiting call; `none` is an exception. -/
def Runtime.respond (s : Runtime) (g : Gen) (id : Key) (message : Fields) : Option Runtime :=
  match s.calls.find? fun c => Key.num c.id = id && c.outcome.isWaiting with
  | none => some s
  | some c =>
    match Fields.find message "error" with
    | some (.obj e) => some (s.updateCall c.id fun c => { c with outcome := .refused (refusal e) })
    | some _ => none
    | none =>
      let result := (Fields.find message "result").getD (.obj [])
      let s := s.updateCall c.id fun c => { c with outcome := .answered g result }
      some { s with
        returned := (((threadIdOf result).bind Json.hash).map (Prod.mk g)).toList ++ s.returned }

/-- What the reader does with a line of a generation, and whether it raised. -/
def Runtime.receive (s : Runtime) (g : Gen) (line : Line) (accepts : Bool) : Runtime × Bool :=
  match classify line with
  | .ignored => (s, false)
  | .raises => (s, true)
  | .request message =>
    ({ s with tasks := s.tasks ++ [{ origin := g, message := message, stage := .created }] },
      false)
  | .response id message =>
    match s.respond g id message with
    | none => (s, true)
    | some s => (s, false)
  | .notification message =>
    let noted := recordNotification message accepts s.bridge.session
    ({ s with bridge := { s.bridge with
        session := noted.session, runs := s.bridge.runs ++ noted.row.toList } }, noted.raised)

/-! ### Actions -/

inductive Action
  | startBegin
  | spawn
  | spawnFail
  | startEnd
  | exit (g : Gen)
  | hangUp (g : Gen)
  | rpcBegin (kind : CallKind)
  | rpcWrite (id : ℕ)
  | rpcEnd (id : ℕ)
  | rpcDrop (id : ℕ)
  | readLine (g : Gen) (line : Line) (accepts : Bool)
  | readEnd (g : Gen)
  | collide (g : Gen)
  | taskBegin (i : ℕ)
  | taskEnd (i : ℕ) (env : BridgeEnv)
  | taskWrite (i : ℕ)
  | close

/-- What an action does; `none` if it is not enabled. -/
def act (host : Host) (a : Action) (s : Runtime) : Option Runtime :=
  match a with
  | .startBegin =>
    -- the start lock is free and the process is dead
    if s.phase = .idle ∧ s.alive = false then
      some { s.withSession s.bridge.session.restart with phase := .spawning }
    else none
  | .spawn =>
    if s.phase = .spawning then
      let g := s.spawned
      let s := { s with process := some g, spawned := g + 1, readers := s.readers ++ [g] }
      some { s.beginCall .initializeServer with phase := .handshaking (s.nextId + 1) }
    else none
  | .spawnFail => if s.phase = .spawning then some { s with phase := .idle } else none
  | .startEnd =>
    match s.phase with
    | .handshaking call =>
      if s.calls.any fun c => c.id = call then none else some { s with phase := .idle }
    | _ => none
  | .exit g => if g < s.spawned then some { s with exited := g :: s.exited } else none
  | .hangUp g => if g < s.spawned then some { s with hungUp := g :: s.hungUp } else none
  | .rpcBegin kind => if kind.permitted s then some (s.beginCall kind) else none
  | .rpcWrite id =>
    -- the write lock is taken after the check, and `self.process` is read again
    match s.process with
    | none => none
    | some g => some (s.updateCall id fun c => { c with target := c.target <|> some g })
  | .rpcEnd id =>
    match s.calls.find? fun c => c.id = id && c.target.isSome && !c.outcome.isWaiting with
    | none => none
    | some c => some (s.endCall c)
  | .rpcDrop id => some (s.popCall id)
  | .readLine g line accepts =>
    if g ∈ s.readers then
      match s.receive g line accepts with
      | (s, true) => some (s.stopReader g)
      | (s, false) => some (s.nextLine g)
    else none
  | .readEnd g => if g ∈ s.readers ∧ g ∈ s.hungUp then some (s.stopReader g) else none
  | .collide g => if 2 ≤ s.readers.count g then some (s.stopReader g) else none
  | .taskBegin i =>
    match s.tasks[i]? with
    | some ⟨origin, message, .created⟩ =>
      some { s with tasks := s.tasks.set i ⟨origin, message, .asked s.bridge.session⟩ }
    | _ => none
  | .taskEnd i env =>
    match s.tasks[i]? with
    | some ⟨origin, message, .asked before⟩ =>
      let (effects, bridge) :=
        handleServerRequest host { env with alive := s.alive } before message s.bridge
      let s := { s with bridge := bridge }
      match repliesOf effects with
      | [] => some { s with tasks := s.tasks.eraseIdx i }
      | reply :: _ =>
        some { s with tasks := s.tasks.set i ⟨origin, message, .writing reply⟩ }
    | _ => none
  | .taskWrite i =>
    match s.process, s.tasks[i]? with
    | some g, some ⟨origin, _, .writing reply⟩ =>
      some { s with
        tasks := s.tasks.eraseIdx i
        written := s.written ++ [{ dest := g, origin := origin, reply := reply }] }
    | _, _ => none
  | .close => some (s.withSession s.bridge.session.dropThreads)

/-- What an action does when it is enabled, with the condition on which it is.  The reader goes on
after a line or raises; a task that is asked has a reply to write or has none. -/
inductive Acts (host : Host) (s : Runtime) : Action → Runtime → Prop
  | startBegin (hphase : s.phase = .idle) (halive : s.alive = false) :
      Acts host s .startBegin
        { s.withSession s.bridge.session.restart with phase := .spawning }
  | spawn (hphase : s.phase = .spawning) :
      Acts host s .spawn
        { ({ s with process := some s.spawned, spawned := s.spawned + 1,
                    readers := s.readers ++ [s.spawned] } : Runtime).beginCall .initializeServer
          with phase := .handshaking (s.nextId + 1) }
  | spawnFail (hphase : s.phase = .spawning) : Acts host s .spawnFail { s with phase := .idle }
  | startEnd {call : ℕ} (hphase : s.phase = .handshaking call) :
      Acts host s .startEnd { s with phase := .idle }
  | exit {g : Gen} (hg : g < s.spawned) :
      Acts host s (.exit g) { s with exited := g :: s.exited }
  | hangUp {g : Gen} (hg : g < s.spawned) :
      Acts host s (.hangUp g) { s with hungUp := g :: s.hungUp }
  | rpcBegin {kind : CallKind} (hkind : kind.permitted s = true) :
      Acts host s (.rpcBegin kind) (s.beginCall kind)
  | rpcWrite {id : ℕ} {g : Gen} (hprocess : s.process = some g) :
      Acts host s (.rpcWrite id)
        (s.updateCall id fun c => { c with target := c.target <|> some g })
  | rpcEnd {id : ℕ} {c : Call} (hfind : (s.calls.find? fun c =>
        c.id = id && c.target.isSome && !c.outcome.isWaiting) = some c) :
      Acts host s (.rpcEnd id) (s.endCall c)
  | rpcDrop {id : ℕ} : Acts host s (.rpcDrop id) (s.popCall id)
  | lineRaised {g : Gen} {line : Line} {accepts : Bool} {s₁ : Runtime} (hg : g ∈ s.readers)
      (hreceive : s.receive g line accepts = (s₁, true)) :
      Acts host s (.readLine g line accepts) (s₁.stopReader g)
  | lineRead {g : Gen} {line : Line} {accepts : Bool} {s₁ : Runtime} (hg : g ∈ s.readers)
      (hreceive : s.receive g line accepts = (s₁, false)) :
      Acts host s (.readLine g line accepts) (s₁.nextLine g)
  | readEnd {g : Gen} (hg : g ∈ s.readers) (hhung : g ∈ s.hungUp) :
      Acts host s (.readEnd g) (s.stopReader g)
  | collide {g : Gen} (htwo : 2 ≤ s.readers.count g) : Acts host s (.collide g) (s.stopReader g)
  | taskBegin {i : ℕ} {origin : Gen} {message : Fields}
      (htask : s.tasks[i]? = some ⟨origin, message, .created⟩) :
      Acts host s (.taskBegin i)
        { s with tasks := s.tasks.set i ⟨origin, message, .asked s.bridge.session⟩ }
  | taskSilent {i : ℕ} {env : BridgeEnv} {origin : Gen} {message : Fields} {before : Session}
      {effects : List Effect} {bridge : Bridge}
      (htask : s.tasks[i]? = some ⟨origin, message, .asked before⟩)
      (hhandled : handleServerRequest host { env with alive := s.alive } before message s.bridge =
        (effects, bridge)) (hreplies : repliesOf effects = []) :
      Acts host s (.taskEnd i env) { s with bridge := bridge, tasks := s.tasks.eraseIdx i }
  | taskReplies {i : ℕ} {env : BridgeEnv} {origin : Gen} {message : Fields} {before : Session}
      {effects : List Effect} {bridge : Bridge} {reply : Reply} {rest : List Reply}
      (htask : s.tasks[i]? = some ⟨origin, message, .asked before⟩)
      (hhandled : handleServerRequest host { env with alive := s.alive } before message s.bridge =
        (effects, bridge)) (hreplies : repliesOf effects = reply :: rest) :
      Acts host s (.taskEnd i env)
        { s with bridge := bridge, tasks := s.tasks.set i ⟨origin, message, .writing reply⟩ }
  | taskWrite {i : ℕ} {g origin : Gen} {message : Fields} {reply : Reply}
      (hprocess : s.process = some g)
      (htask : s.tasks[i]? = some ⟨origin, message, .writing reply⟩) :
      Acts host s (.taskWrite i)
        { s with
          tasks := s.tasks.eraseIdx i
          written := s.written ++ [{ dest := g, origin := origin, reply := reply }] }
  | close : Acts host s .close (s.withSession s.bridge.session.dropThreads)

/-- **What an action can do.** -/
theorem acts_of_act {host : Host} {a : Action} {s s' : Runtime} (hact : act host a s = some s') :
    Acts host s a s' := by
  cases a with
  | startBegin =>
    simp only [act] at hact
    split at hact
    · rename_i hguard
      cases hact
      exact .startBegin hguard.1 hguard.2
    · cases hact
  | spawn =>
    simp only [act] at hact
    split at hact
    · rename_i hphase
      cases hact
      exact .spawn hphase
    · cases hact
  | spawnFail =>
    simp only [act] at hact
    split at hact
    · rename_i hphase
      cases hact
      exact .spawnFail hphase
    · cases hact
  | startEnd =>
    simp only [act] at hact
    split at hact
    · rename_i call hphase
      split at hact
      · cases hact
      · cases hact
        exact .startEnd hphase
    · cases hact
  | exit g =>
    simp only [act] at hact
    split at hact
    · rename_i hg
      cases hact
      exact .exit hg
    · cases hact
  | hangUp g =>
    simp only [act] at hact
    split at hact
    · rename_i hg
      cases hact
      exact .hangUp hg
    · cases hact
  | rpcBegin kind =>
    simp only [act] at hact
    split at hact
    · rename_i hkind
      cases hact
      exact .rpcBegin hkind
    · cases hact
  | rpcWrite id =>
    simp only [act] at hact
    split at hact
    · cases hact
    · rename_i g hprocess
      cases hact
      exact .rpcWrite hprocess
  | rpcEnd id =>
    simp only [act] at hact
    split at hact
    · cases hact
    · rename_i c hfind
      cases hact
      exact .rpcEnd hfind
  | rpcDrop id =>
    cases hact
    exact .rpcDrop
  | readLine g line accepts =>
    simp only [act] at hact
    split at hact
    · rename_i hg
      split at hact
      · rename_i hreceive
        cases hact
        exact .lineRaised hg hreceive
      · rename_i hreceive
        cases hact
        exact .lineRead hg hreceive
    · cases hact
  | readEnd g =>
    simp only [act] at hact
    split at hact
    · rename_i hguard
      cases hact
      exact .readEnd hguard.1 hguard.2
    · cases hact
  | collide g =>
    simp only [act] at hact
    split at hact
    · rename_i htwo
      cases hact
      exact .collide htwo
    · cases hact
  | taskBegin i =>
    simp only [act] at hact
    split at hact
    · rename_i htask
      cases hact
      exact .taskBegin htask
    · cases hact
  | taskEnd i env =>
    simp only [act] at hact
    split at hact
    · rename_i htask
      split at hact
      · rename_i hreplies
        cases hact
        exact .taskSilent htask rfl hreplies
      · rename_i hreplies
        cases hact
        exact .taskReplies htask rfl hreplies
    · cases hact
  | taskWrite i =>
    simp only [act] at hact
    split at hact
    · rename_i hprocess htask
      cases hact
      exact .taskWrite hprocess htask
    · cases hact
  | close =>
    cases hact
    exact .close

/-! ### Well-formed lines -/

/-- The fields of a line have the types the reader expects. -/
def Line.wellFormed (line : Line) : Bool :=
  match classify line with
  | .ignored => true
  | .raises => false
  | .request _ => true
  | .response _ message =>
    match Fields.find message "error" with
    | some (.obj _) => true
    | some _ => false
    | none => true
  | .notification message => notificationWellFormed message

/-- A well-formed line does not make the reader raise. -/
theorem receive_of_wellFormed (s : Runtime) (g : Gen) {line : Line} (accepts : Bool)
    (h : line.wellFormed = true) : (s.receive g line accepts).2 = false := by
  unfold Line.wellFormed at h
  unfold Runtime.receive
  cases hc : classify line with
  | ignored => rfl
  | raises =>
    rw [hc] at h
    cases h
  | request message => rfl
  | response id message =>
    rw [hc] at h
    simp only at h ⊢
    unfold Runtime.respond
    cases s.calls.find? fun c => Key.num c.id = id && c.outcome.isWaiting with
    | none => rfl
    | some c =>
      cases hf : Fields.find message "error" with
      | none => rfl
      | some error =>
        rw [hf] at h
        cases error with
        | obj fields => rfl
        | _ => cases h
  | notification message =>
    rw [hc] at h
    exact raised_of_wellFormed accepts s.bridge.session h

/-- A line changes neither the process nor the readers. -/
theorem frame_receive (s : Runtime) (g : Gen) (line : Line) (accepts : Bool) :
    (s.receive g line accepts).1.process = s.process ∧
      (s.receive g line accepts).1.readers = s.readers := by
  unfold Runtime.receive
  cases classify line with
  | response id message =>
    simp only
    cases hr : s.respond g id message with
    | none => exact ⟨rfl, rfl⟩
    | some s' =>
      unfold Runtime.respond at hr
      split at hr
      · cases hr
        exact ⟨rfl, rfl⟩
      · split at hr
        · cases hr
          exact ⟨rfl, rfl⟩
        · cases hr
        · cases hr
          exact ⟨rfl, rfl⟩
  | _ => exact ⟨rfl, rfl⟩

end QuantFlow
