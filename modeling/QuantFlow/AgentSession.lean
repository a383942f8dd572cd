/-
**The session of the agent bridge.**

`backend/app/agent/app_server.py` keeps, for the App Server it talks to, the threads it created, a
bounded list of events for each thread, the last message of each turn, the turns in which a tool
call succeeded, and whether one of them was completed.  The App Server's notifications change this
session; their fields are arbitrary JSON values, and reading one of an unexpected type raises.  What
was changed before an exception stays changed, so a notification gives a session in any case.

A thread is known by the key of its id.  An id that is false is never stored, and the session
carries that as a field; a message that is kept was sliced, and has the type of such values.

Main definitions:

* `Session`, `Session.emit`, `Session.addThread` — the session, an event and a thread added to it;
* `AgentRun`, `AgentRun.admitted` — an audit row, and whether SQLite takes it;
* `recordNotification`, `notificationWellFormed` — a notification, and those
  whose fields have the expected types.

Main results:

* `threads_emit`, `threads_recordNotification` — neither an event nor a
  notification changes the threads;
* `notedBy_recordNotification` — what a notification can do;
* `emits_recordNotification` — it publishes events of one thread;
* `raised_of_wellFormed` — a notification of the expected types does not raise.
-/

import QuantFlow.ToolSchemas

namespace QuantFlow

open Py (Json Key Str Fields)

/-! ### The session -/

/-- A value that can be sliced. -/
inductive Sliced
  | text (s : Str)
  | list (elems : List Json)

def Sliced.toJson : Sliced → Json
  | .text s => .str s
  | .list elems => .arr elems

/-- `x[:8000]` of such a value. -/
def Sliced.cut : Sliced → Sliced
  | .text s => .text (s.take 8000)
  | .list elems => .list (elems.take 8000)

inductive EventBody
  | tool (turnId : Json) (tool : Str) (result : ToolResult)
  | auditFailed (turnId : Json)
  | turnCompleted (turnId status : Json) (answer : Sliced)

structure Event where
  cursor : ℕ
  body : EventBody

structure Session where
  threads : List Key
  events : Key → List Event
  eventNumber : Key → ℕ
  finalMessages : List (Key × Sliced)
  toolTurns : List (Key × Key)
  integrationVerified : Bool
  named : ∀ k ∈ threads, k.truthy = true

theorem Session.named_nil : ∀ k ∈ ([] : List Key), k.truthy = true := by
  simp

def Session.empty : Session :=
  { threads := [], events := fun _ => [], eventNumber := fun _ => 0, finalMessages := [],
    toolTurns := [], integrationVerified := false, named := named_nil }

/-- `_emit(thread_id, payload)`; a list of events keeps its last 200. -/
def Session.emit (s : Session) (thread : Key) (body : EventBody) : Session :=
  if thread ∈ s.threads then
    let n := s.eventNumber thread + 1
    { s with
      eventNumber := Function.update s.eventNumber thread n
      events := Function.update s.events thread
        (lastN 200 (s.events thread ++ [{ cursor := n, body := body }])) }
  else s

@[simp] theorem threads_emit (s : Session) (thread : Key) (body : EventBody) :
    (s.emit thread body).threads = s.threads := by
  unfold Session.emit
  split <;> rfl

@[simp] theorem finalMessages_emit (s : Session) (thread : Key) (body : EventBody) :
    (s.emit thread body).finalMessages = s.finalMessages := by
  unfold Session.emit
  split <;> rfl

/-- `events(thread_id, after)`: the first 100 events after a cursor; `none` if the thread is not
known, which raises. -/
def Session.eventsAfter (s : Session) (thread : Key) (after : ℤ) : Option (List Event) :=
  if thread ∈ s.threads then
    some (((s.events thread).filter fun e => after < e.cursor).take 100)
  else none

/-- As far as threads and events go, a session is another one after several events of a thread. -/
inductive Emits (s : Session) (thread : Key) : List EventBody → Session → Prop
  | refl : Emits s thread [] s
  | frame {bodies : List EventBody} {t u : Session} (h : Emits s thread bodies t)
      (hthreads : u.threads = t.threads) (hevents : u.events = t.events)
      (hnumber : u.eventNumber = t.eventNumber) : Emits s thread bodies u
  | emit {bodies : List EventBody} {t : Session} (h : Emits s thread bodies t) (body : EventBody) :
      Emits s thread (bodies ++ [body]) (t.emit thread body)

theorem Emits.threads {s : Session} {thread : Key} {bodies : List EventBody} {t : Session}
    (h : Emits s thread bodies t) : t.threads = s.threads := by
  induction h with
  | refl => rfl
  | frame h hthreads hevents hnumber ih => exact hthreads.trans ih
  | emit h body ih => exact (threads_emit _ _ _).trans ih

/-- One more event, after a change of something else. -/
theorem Emits.frame_emit {s : Session} {thread : Key} {bodies : List EventBody} {t u : Session}
    (h : Emits s thread bodies t) (body : EventBody) (hthreads : u.threads = t.threads)
    (hevents : u.events = t.events) (hnumber : u.eventNumber = t.eventNumber) :
    Emits s thread (bodies ++ [body]) (u.emit thread body) :=
  (h.frame hthreads hevents hnumber).emit body

/-- The end of `create_thread`: an id that is false or cannot be hashed raises. -/
def Session.addThread (s : Session) (id : Json) : Session :=
  match id.hash with
  | none => s
  | some k =>
    if h : k.truthy = true then
      { s with
        threads := k :: s.threads
        named := by
          intro k' hk'
          rcases List.mem_cons.1 hk' with rfl | hmem
          · exact h
          · exact s.named k' hmem }
    else s

theorem addThread_cases (s : Session) (id : Json) :
    s.addThread id = s ∨
      ∃ (k : Key) (named : ∀ k' ∈ k :: s.threads, k'.truthy = true), id.hash = some k ∧
        s.addThread id = { s with threads := k :: s.threads, named := named } := by
  unfold Session.addThread
  split
  · exact .inl rfl
  · rename_i k hk
    split
    · rename_i htruthy
      exact .inr ⟨k, List.forall_mem_cons.2 ⟨htruthy, s.named⟩, hk, rfl⟩
    · exact .inl rfl

theorem mem_threads_addThread {s : Session} {id : Json} {k : Key}
    (h : k ∈ (s.addThread id).threads) : k ∈ s.threads ∨ id.hash = some k := by
  rcases addThread_cases s id with hsame | ⟨k', named, hk', hadded⟩
  · exact .inl (hsame ▸ h)
  · rw [hadded] at h
    rcases List.mem_cons.1 h with rfl | hmem
    · exact .inr hk'
    · exact .inl hmem

/-! ### Audit rows -/

/-- A row of `agent_runs`. -/
structure AgentRun where
  threadId : Json
  turnId : Json
  toolsCalled : List Str
  toolInputs : Json
  toolOutputs : Option ToolResult
  durationMs : Json
  finalResult : Json

/-- SQLite binds the value: proper text, a number of its range, but no list and no dictionary. -/
def bindable : Json → Bool
  | .null => true
  | .bool _ => true
  | .int n => -(2 ^ 63) ≤ n ∧ n < 2 ^ 63
  | .float _ => true
  | .str s => Str.encodable s
  | .arr _ => false
  | .obj _ => false

/-- The value is stored as `NULL`, as a NaN is. -/
def isNull : Json → Bool
  | .null => true
  | .float .nan => true
  | _ => false

/-- The value can stand in a column that is `NOT NULL`. -/
def storable (x : Json) : Bool := bindable x && !isNull x

/-- SQLite takes the row: thread and turn are `NOT NULL`, and the other values can be bound. -/
def AgentRun.admitted (row : AgentRun) : Bool :=
  storable row.threadId && storable row.turnId && bindable row.durationMs &&
    bindable row.finalResult && row.toolOutputs.all ToolResult.encodable

/-! ### Reading fields -/

/-- `x or d` for a value that is then used as a dictionary; anything else raises on `.get`. -/
def asFields (x : Json) : Except PyError Fields :=
  if x.truthy then
    match x with
    | .obj fields => .ok fields
    | _ => .error .typeError
  else .ok []

/-- `x or []` for a value that is then used as a list of dictionaries; a string or a dictionary is
iterated too, but its elements have no `.get`. -/
def asItems (x : Json) : Except PyError (List Fields) :=
  if x.truthy then
    match x with
    | .arr elems => elems.mapM fun e =>
      match e with
      | .obj fields => .ok fields
      | _ => .error .typeError
    | _ => .error .typeError
  else .ok []

/-- `x[:8000]`. -/
def cut : Json → Except PyError Sliced
  | .str s => .ok (Sliced.text s).cut
  | .arr elems => .ok (Sliced.list elems).cut
  | _ => .error .typeError

/-- The key of a value in a dictionary or a set. -/
def asKey (x : Json) : Except PyError Key :=
  match x.hash with
  | none => .error .typeError
  | some k => .ok k

/-- `d.get(key, "")`. -/
def textOr (d : Fields) (key : String) : Json := (Fields.find d key).getD (.text "")

/-- `x == s` for a text `s`. -/
def isText (x : Json) (s : String) : Bool :=
  match x with
  | .str t => t = Str.ofString s
  | _ => false

/-! ### Notifications -/

/-- What a notification leaves: the session, the audit row it wrote, and whether it raised. -/
structure Noted where
  session : Session
  row : Option AgentRun := none
  raised : Bool := false

/-- The text of an `item/completed` to keep, with the key of its turn. -/
def messageOf (params : Fields) : Except PyError (Option (Key × Sliced)) := do
  let item ← asFields (Fields.get params "item")
  if isText (Fields.get item "type") "agentMessage" && !isText (Fields.get item "phase") "commentary"
  then do
    let text ← cut (textOr item "text")
    let turn ← asKey (Fields.get params "turnId")
    .ok (some (turn, text))
  else .ok none

/-- The branch of `item/completed`. -/
def itemCompleted (message : Fields) (s : Session) : Noted :=
  match asFields (Fields.get message "params") >>= messageOf with
  | .error _ => { session := s, raised := true }
  | .ok none => { session := s }
  | .ok (some (turn, text)) =>
    { session := { s with
        finalMessages := s.finalMessages.filter (fun p => p.1 ≠ turn) ++ [(turn, text)] } }

/-- The texts of the agent's messages among the items of a turn. -/
def answersOf (items : List Fields) : List Json :=
  (items.filter fun item => isText (Fields.get item "type") "agentMessage").map
    fun item => textOr item "text"

/-- The answer of a completed turn: its last agent message, else the one kept for the turn. -/
def answerOf (turn : Fields) (items : List Fields) (s : Session) : Except PyError Sliced :=
  match (answersOf items).getLast? with
  | some answer => cut answer
  | none => do
    let k ← asKey (Fields.get turn "id")
    .ok ((s.finalMessages.lookup k).getD (.text [])).cut

/-- The turn of a `turn/completed` and its answer. -/
def readTurn (params : Fields) (s : Session) : Except PyError (Fields × Sliced) := do
  let turn ← asFields (Fields.get params "turn")
  let items ← asItems (Fields.get turn "items")
  let answer ← answerOf turn items s
  .ok (turn, answer)

/-- The row of `_audit_final`. -/
def finalRow (threadId : Json) (turn : Fields) (answer : Sliced) : AgentRun :=
  { threadId := threadId, turnId := Fields.get turn "id", toolsCalled := [], toolInputs := .obj [],
    toolOutputs := none, durationMs := Fields.get turn "durationMs", finalResult := answer.toJson }

/-- The end of a turn is audited; `accepts` is whether the database can be written. -/
def auditsFinal (threadId : Json) (turn : Fields) (answer : Sliced) (accepts : Bool) : Bool :=
  accepts && (finalRow threadId turn answer).admitted

/-- What the end of a turn does. -/
def finishTurn (thread turnKey : Key) (threadId : Json) (turn : Fields) (answer : Sliced)
    (accepts : Bool) (s : Session) : Noted :=
  let s := { s with finalMessages := s.finalMessages.filter fun p => p.1 ≠ turnKey }
  let row := finalRow threadId turn answer
  let audited := auditsFinal threadId turn answer accepts
  let answer := if audited then answer else .text []
  let s := if audited then s else s.emit thread (.auditFailed (Fields.get turn "id"))
  let verified := isText (Fields.get turn "status") "completed" &&
    decide ((thread, turnKey) ∈ s.toolTurns) && answer.toJson.truthy
  let s := { s with
    integrationVerified := s.integrationVerified || verified
    toolTurns := s.toolTurns.filter fun p => p ≠ (thread, turnKey) }
  { session := s.emit thread (.turnCompleted (Fields.get turn "id") (Fields.get turn "status") answer)
    row := if audited then some row else none }

/-- The branch of `turn/completed`. -/
def turnCompleted (message : Fields) (accepts : Bool) (s : Session) : Noted :=
  match asFields (Fields.get message "params") with
  | .error _ => { session := s, raised := true }
  | .ok params =>
    match (Fields.get params "threadId").hash with
    | none => { session := s, raised := true }
    | some thread =>
      if thread ∈ s.threads then
        match readTurn params s with
        | .error _ => { session := s, raised := true }
        | .ok (turn, answer) =>
          match (Fields.get turn "id").hash with
          | some turnKey =>
            finishTurn thread turnKey (Fields.get params "threadId") turn answer accepts s
          | none =>
            -- an empty dictionary drops a key without hashing it; SQLite then refuses to
            -- bind the id, and the set of tool turns is the one that raises
            { session :=
                if s.finalMessages = [] then
                  s.emit thread (.auditFailed (Fields.get turn "id"))
                else s
              raised := true }
      else { session := s }

/-- `_record_notification(message)`. -/
def recordNotification (message : Fields) (accepts : Bool) (s : Session) : Noted :=
  if isText (Fields.get message "method") "item/completed" then itemCompleted message s
  else if isText (Fields.get message "method") "turn/completed" then turnCompleted message accepts s
  else { session := s }

/-! ### What a notification can do -/

/-- The ways a notification ends: nothing changes, the message of an item is kept, a turn of a known
thread is finished, or the id of such a turn cannot be hashed. -/
inductive NotedBy (message : Fields) (accepts : Bool) (s : Session) : Noted → Prop
  | ignored (raised : Bool) : NotedBy message accepts s { session := s, raised := raised }
  | kept (params : Fields) (turn : Key) (text : Sliced)
      (hmethod : isText (Fields.get message "method") "item/completed" = true)
      (hparams : asFields (Fields.get message "params") = .ok params)
      (hmessage : messageOf params = .ok (some (turn, text))) :
      NotedBy message accepts s { session := { s with
        finalMessages := s.finalMessages.filter (fun p => p.1 ≠ turn) ++ [(turn, text)] } }
  | finished (params : Fields) (thread : Key) (turn : Fields) (answer : Sliced) (turnKey : Key)
      (hmethod : isText (Fields.get message "method") "turn/completed" = true)
      (hparams : asFields (Fields.get message "params") = .ok params)
      (hthread : (Fields.get params "threadId").hash = some thread) (hknown : thread ∈ s.threads)
      (hread : readTurn params s = .ok (turn, answer))
      (hkey : (Fields.get turn "id").hash = some turnKey) :
      NotedBy message accepts s
        (finishTurn thread turnKey (Fields.get params "threadId") turn answer accepts s)
  | unhashed (params : Fields) (thread : Key) (turn : Fields) (answer : Sliced)
      (hmethod : isText (Fields.get message "method") "turn/completed" = true)
      (hparams : asFields (Fields.get message "params") = .ok params)
      (hthread : (Fields.get params "threadId").hash = some thread) (hknown : thread ∈ s.threads)
      (hread : readTurn params s = .ok (turn, answer))
      (hkey : (Fields.get turn "id").hash = none) :
      NotedBy message accepts s
        { session :=
            if s.finalMessages = [] then s.emit thread (.auditFailed (Fields.get turn "id")) else s
          raised := true }

theorem notedBy_itemCompleted {message : Fields} (accepts : Bool) (s : Session)
    (hmethod : isText (Fields.get message "method") "item/completed" = true) :
    NotedBy message accepts s (itemCompleted message s) := by
  unfold itemCompleted
  cases hparams : asFields (Fields.get message "params") with
  | error e => exact .ignored true
  | ok params =>
    cases hmessage : messageOf params with
    | error e =>
      simp only [bind, Except.bind, hmessage]
      exact .ignored true
    | ok kept =>
      simp only [bind, Except.bind, hmessage]
      cases kept with
      | none => exact .ignored false
      | some pair => exact .kept params pair.1 pair.2 hmethod hparams hmessage

theorem notedBy_turnCompleted {message : Fields} (accepts : Bool) (s : Session)
    (hmethod : isText (Fields.get message "method") "turn/completed" = true) :
    NotedBy message accepts s (turnCompleted message accepts s) := by
  unfold turnCompleted
  split
  · exact .ignored true
  · rename_i params hparams
    split
    · exact .ignored true
    · rename_i thread hthread
      split
      · rename_i hknown
        split
        · exact .ignored true
        · rename_i turn answer hread
          split
          · rename_i turnKey hkey
            exact .finished params thread turn answer turnKey hmethod hparams hthread hknown hread
              hkey
          · rename_i hkey
            exact .unhashed params thread turn answer hmethod hparams hthread hknown hread hkey
      · exact .ignored false

/-- **What a notification can do.** -/
theorem notedBy_recordNotification (message : Fields) (accepts : Bool) (s : Session) :
    NotedBy message accepts s (recordNotification message accepts s) := by
  unfold recordNotification
  split
  · rename_i hmethod
    exact notedBy_itemCompleted accepts s hmethod
  · split
    · rename_i hmethod
      exact notedBy_turnCompleted accepts s hmethod
    · exact .ignored false

/-! ### What the end of a turn publishes -/

/-- The events of a turn that ends: its completion, with an empty answer after a failed audit. -/
def turnEvents (turn : Fields) (answer : Sliced) (audited : Bool) : List EventBody :=
  if audited then [.turnCompleted (Fields.get turn "id") (Fields.get turn "status") answer]
  else
    [.auditFailed (Fields.get turn "id"),
      .turnCompleted (Fields.get turn "id") (Fields.get turn "status") (.text [])]

section FinishTurn

variable (thread turnKey : Key) (threadId : Json) (turn : Fields) (answer : Sliced) (accepts : Bool)
  (s : Session)

theorem row_finishTurn :
    (finishTurn thread turnKey threadId turn answer accepts s).row =
      if auditsFinal threadId turn answer accepts then some (finalRow threadId turn answer)
      else none := rfl

/-- The session of a turn that ends, before its completion is published. -/
theorem session_finishTurn :
    (finishTurn thread turnKey threadId turn answer accepts s).session =
      let audited := auditsFinal threadId turn answer accepts
      let dropped := { s with finalMessages := s.finalMessages.filter fun p => p.1 ≠ turnKey }
      let shown := if audited then answer else .text []
      let told := if audited then dropped
        else dropped.emit thread (.auditFailed (Fields.get turn "id"))
      Session.emit { told with
        integrationVerified := told.integrationVerified ||
          (isText (Fields.get turn "status") "completed" &&
            decide ((thread, turnKey) ∈ told.toolTurns) && shown.toJson.truthy)
        toolTurns := told.toolTurns.filter fun p => p ≠ (thread, turnKey) }
        thread (.turnCompleted (Fields.get turn "id") (Fields.get turn "status") shown) := rfl

theorem finalMessages_finishTurn :
    (finishTurn thread turnKey threadId turn answer accepts s).session.finalMessages =
      s.finalMessages.filter fun p => p.1 ≠ turnKey := by
  rw [session_finishTurn]
  cases auditsFinal threadId turn answer accepts with
  | true => exact finalMessages_emit _ _ _
  | false => exact (finalMessages_emit _ _ _).trans (finalMessages_emit _ _ _)

theorem emits_finishTurn :
    Emits s thread (turnEvents turn answer (auditsFinal threadId turn answer accepts))
      (finishTurn thread turnKey threadId turn answer accepts s).session := by
  rw [session_finishTurn]
  unfold turnEvents
  have hdropped : Emits s thread [] { s with
      finalMessages := s.finalMessages.filter fun p => p.1 ≠ turnKey } := .frame .refl rfl rfl rfl
  cases auditsFinal threadId turn answer accepts with
  | true => refine hdropped.frame_emit _ ?_ ?_ ?_ <;> rfl
  | false => refine (hdropped.emit _).frame_emit _ ?_ ?_ ?_ <;> rfl

end FinishTurn

/-- A notification publishes events of one thread, if any. -/
theorem emits_recordNotification (message : Fields) (accepts : Bool) (s : Session) :
    ∃ thread bodies, Emits s thread bodies (recordNotification message accepts s).session := by
  have h := notedBy_recordNotification message accepts s
  generalize recordNotification message accepts s = noted at h ⊢
  cases h with
  | ignored raised => exact ⟨.none, [], .refl⟩
  | kept params turn text hmethod hparams hmessage => exact ⟨turn, [], .frame .refl rfl rfl rfl⟩
  | finished params thread turn answer turnKey hmethod hparams hthread hknown hread hkey =>
    exact ⟨thread, _, emits_finishTurn _ _ _ _ _ _ _⟩
  | unhashed params thread turn answer hmethod hparams hthread hknown hread hkey =>
    simp only
    split
    · exact ⟨thread, _, Emits.refl.emit _⟩
    · exact ⟨thread, [], .refl⟩

theorem threads_recordNotification (message : Fields) (accepts : Bool) (s : Session) :
    (recordNotification message accepts s).session.threads = s.threads := by
  obtain ⟨thread, bodies, hemits⟩ := emits_recordNotification message accepts s
  exact hemits.threads

/-! ### Notifications that do not raise -/

/-- The outcome is no exception. -/
def succeeds {α : Type} (x : Except PyError α) : Bool :=
  match x with
  | .ok _ => true
  | .error _ => false

theorem succeeds_iff {α : Type} {x : Except PyError α} : succeeds x = true ↔ ∃ y, x = .ok y := by
  cases x with
  | error e => simp [succeeds]
  | ok y => simp [succeeds]

/-- The turn of a `turn/completed` is a dictionary whose id can be hashed, with a list of
dictionaries for its items, and texts or lists for the agent's messages. -/
def turnWellFormed (turn : Fields) : Bool :=
  (Fields.get turn "id").hash.isSome &&
    match asItems (Fields.get turn "items") with
    | .error _ => false
    | .ok items => (answersOf items).all fun answer => succeeds (cut answer)

/-- The fields of a notification have the types its handler expects. -/
def notificationWellFormed (message : Fields) : Bool :=
  if isText (Fields.get message "method") "item/completed" then
    succeeds (asFields (Fields.get message "params") >>= messageOf)
  else if isText (Fields.get message "method") "turn/completed" then
    match asFields (Fields.get message "params") with
    | .error _ => false
    | .ok params => (Fields.get params "threadId").hash.isSome &&
        match asFields (Fields.get params "turn") with
        | .error _ => false
        | .ok turn => turnWellFormed turn
  else true

theorem steps_of_readTurn {params turn : Fields} {s : Session} {answer : Sliced}
    (hread : readTurn params s = .ok (turn, answer)) :
    asFields (Fields.get params "turn") = .ok turn ∧
      ∃ items, asItems (Fields.get turn "items") = .ok items ∧
        answerOf turn items s = .ok answer := by
  unfold readTurn at hread
  obtain ⟨turn', hturn, hread⟩ := except_bind_eq_ok.1 hread
  obtain ⟨items, hitems, hread⟩ := except_bind_eq_ok.1 hread
  obtain ⟨answer', hanswer, hread⟩ := except_bind_eq_ok.1 hread
  cases hread
  exact ⟨hturn, items, hitems, hanswer⟩

theorem readTurn_of_wellFormed {params turn : Fields} (s : Session)
    (hturn : asFields (Fields.get params "turn") = .ok turn) (h : turnWellFormed turn = true) :
    ∃ answer, readTurn params s = .ok (turn, answer) := by
  obtain ⟨hid, hrest⟩ := Bool.and_eq_true_iff.1 h
  obtain ⟨k, hk⟩ := Option.isSome_iff_exists.1 hid
  split at hrest
  · cases hrest
  · rename_i items hitems
    have hanswer : ∃ answer, answerOf turn items s = .ok answer := by
      unfold answerOf
      cases hl : (answersOf items).getLast? with
      | none =>
        have hkey : asKey (Fields.get turn "id") = .ok k := by
          unfold asKey
          rw [hk]
        exact ⟨_, by simp only [hkey]; rfl⟩
      | some answer =>
        have hmem : answer ∈ answersOf items := List.mem_of_getLast? hl
        exact succeeds_iff.1 (List.all_eq_true.1 hrest answer hmem)
    obtain ⟨answer, hanswer⟩ := hanswer
    refine ⟨answer, ?_⟩
    simp only [readTurn, hturn, hitems, hanswer, bind, Except.bind]

/-- A notification of the expected types does not raise. -/
theorem raised_of_wellFormed {message : Fields} (accepts : Bool) (s : Session)
    (h : notificationWellFormed message = true) :
    (recordNotification message accepts s).raised = false := by
  unfold notificationWellFormed at h
  unfold recordNotification
  split at h
  · rename_i hitem
    rw [if_pos hitem]
    obtain ⟨out, hout⟩ := succeeds_iff.1 h
    unfold itemCompleted
    rw [hout]
    cases out with
    | none => rfl
    | some kept => rfl
  · rename_i hitem
    rw [if_neg hitem]
    split at h
    · rename_i hcompleted
      rw [if_pos hcompleted]
      unfold turnCompleted
      split at h
      · cases h
      · rename_i params hparams
        obtain ⟨hthread, hrest⟩ := Bool.and_eq_true_iff.1 h
        obtain ⟨thread, hthread⟩ := Option.isSome_iff_exists.1 hthread
        split at hrest
        · cases hrest
        · rename_i turn hturn
          obtain ⟨answer, hread⟩ := readTurn_of_wellFormed s hturn hrest
          obtain ⟨turnKey, hkey⟩ := Option.isSome_iff_exists.1 (Bool.and_eq_true_iff.1 hrest).1
          simp only [hthread, hread, hkey]
          split <;> rfl
    · rename_i hcompleted
      rw [if_neg hcompleted]

end QuantFlow
