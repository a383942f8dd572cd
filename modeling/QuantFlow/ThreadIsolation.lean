/-
**One thread among others.**

The threads of a session share one map of kept messages, keyed by turn, and one reader.  What a
client can see of its thread are the events of that thread.  If a turn belongs to one thread, the
messages of the others touch neither those events nor the messages kept for its turns, so a history
looks to the client like the part of it that is its own.

But the reader is shared.  A message of any thread that makes the handler raise ends it, and no
thread hears of a message or of the end of a turn any more.

Main definitions:

* `Message`, `Message.thread`, `Message.turn` — a notification or a tool call, and what it belongs to;
* `Listening`, `listen` — the session and its reader under a message;
* `Agree` — two sessions look the same to a thread;
* `OneThread` — every turn of a history belongs to one thread.

Main results:

* `listen_readLine`, `listen_taskEnd` — messages are what the runtime makes of
  lines and of finished tools;
* `threads_isolated` — **histories whose notifications can all be read show a thread the
  same events, if its own part of them is the same**.
-/

import QuantFlow.ReaderLoop
import QuantFlow.Unwinding

namespace QuantFlow

open Py (Json Key Str Fields)

/-! ### Messages -/

/-- A message of the App Server: a notification, with whether the database takes its row, or a tool
call, with the result that is reported for it. -/
inductive Message
  | notify (message : Fields) (accepts : Bool)
  | tool (thread : Key) (params : Fields) (name : Str) (result : ToolResult)

/-- The session, and whether its reader still reads. -/
structure Listening where
  session : Session
  reading : Bool

/-- What a message does.  A notification that raises ends the reader, and no notification after it is
read; a tool that was asked before reports its result all the same, and is denied only if its thread
is unknown. -/
def listen (m : Message) (l : Listening) : Listening :=
  match m with
  | .notify message accepts =>
    if l.reading then
      let noted := recordNotification message accepts l.session
      { session := noted.session, reading := !noted.raised }
    else l
  | .tool thread params name result =>
    if thread ∈ l.session.threads then
      { l with session := l.session.toolDone thread params name result }
    else l

/-- A history of messages. -/
def listenAll (history : List Message) (l : Listening) : Listening :=
  Unwinding.play listen history l

/-- The parameters of a notification. -/
def paramsOf (message : Fields) : Option Fields :=
  match asFields (Fields.get message "params") with
  | .ok params => some params
  | .error _ => none

/-- The turn that the parameters of a notification name. -/
def turnOf (message params : Fields) : Option Key :=
  if isText (Fields.get message "method") "item/completed" then
    (Fields.get params "turnId").hash
  else if isText (Fields.get message "method") "turn/completed" then
    match asFields (Fields.get params "turn") with
    | .ok turn => (Fields.get turn "id").hash
    | .error _ => none
  else none

/-- The thread a message belongs to. -/
def Message.thread : Message → Option Key
  | .notify message _ => (paramsOf message).bind fun params => (Fields.get params "threadId").hash
  | .tool thread _ _ _ => some thread

/-- The turn a message belongs to. -/
def Message.turn : Message → Option Key
  | .notify message _ => (paramsOf message).bind fun params => turnOf message params
  | .tool _ params _ _ => (Fields.get params "turnId").hash

/-- Every turn of the history belongs to one thread. -/
def OneThread (owner : Key → Option Key) (history : List Message) : Prop :=
  ∀ m ∈ history, ∀ turn, m.turn = some turn → m.thread = owner turn

/-- The notification can be read, with these threads known. -/
def Message.readable (threads : List Key) : Message → Bool
  | .notify message _ => notificationReadable threads message
  | .tool _ _ _ _ => true

/-! ### Messages of the runtime -/

/-- A line with a notification is such a message, and ends the reader if the message does. -/
theorem listen_readLine {host : Host} {g : Gen} {line : Line} {accepts : Bool} {message : Fields}
    {s s' : Runtime} (hact : act host (.readLine g line accepts) s = some s')
    (hclass : classify line = .notification message) :
    s'.bridge.session = (listen (.notify message accepts) ⟨s.bridge.session, true⟩).session ∧
      (s'.readers.length < s.readers.length ↔
        (listen (.notify message accepts) ⟨s.bridge.session, true⟩).reading = false) := by
  refine ⟨records_act hact hclass, ?_⟩
  have hraised := not_congr (raised_iff message accepts s.bridge.session).symm
  simp only [Bool.not_eq_true, Bool.not_eq_false] at hraised
  rw [shortens_readLine hact]
  simp only [acceptable, hclass, listen, if_true, Bool.not_eq_false']
  exact hraised

/-- A finished tool of a known thread is such a message, whether or not a reader still reads. -/
theorem listen_taskEnd {host : Host} {i : ℕ} {env : BridgeEnv} {s s' : Runtime} {origin : Gen}
    {before : Session} {message params : Fields} {thread : Key}
    (hact : act host (.taskEnd i env) s = some s')
    (htask : s.tasks[i]? = some ⟨origin, message, .asked before⟩)
    (hroute : route before message = .tool params thread) (hknown : thread ∈ s.threads)
    (reading : Bool) :
    ∃ name result, s'.bridge.session =
      (listen (.tool thread params name result) ⟨s.bridge.session, reading⟩).session := by
  have hbridge := bridge_act hact
  simp only [deedOf, htask, Bridge.afterAction, Bridge.after, handleServerRequest, hroute] at hbridge
  refine ⟨toolName env.repr params,
    reported { env with alive := s.alive } params
      (askTool host { env with alive := s.alive } params s.bridge.world).1, ?_⟩
  have hmem : thread ∈ s.bridge.session.threads := hknown
  rw [hbridge]
  simp only [listen, hmem, if_true]
  rfl

/-! ### What a thread can see -/

/-- Two sessions look the same to a thread: it is known to both, has the same events, and the
messages kept for its turns are the same. -/
structure Agree (A : Key) (mine : Key → Prop) (s t : Session) : Prop where
  known : A ∈ s.threads ∧ A ∈ t.threads
  events : s.events A = t.events A
  number : s.eventNumber A = t.eventNumber A
  kept : ∀ turn, mine turn → s.finalMessages.lookup turn = t.finalMessages.lookup turn

theorem Agree.eventsAfter {A : Key} {mine : Key → Prop} {s t : Session} (h : Agree A mine s t)
    (after : ℤ) : s.eventsAfter A after = t.eventsAfter A after := by
  simp only [Session.eventsAfter, h.known.1, h.known.2, if_true, h.events]

theorem Emits.other {s : Session} {thread : Key} {bodies : List EventBody} {t : Session}
    (h : Emits s thread bodies t) {A : Key} (hne : A ≠ thread) :
    t.events A = s.events A ∧ t.eventNumber A = s.eventNumber A := by
  induction h with
  | refl => exact ⟨rfl, rfl⟩
  | frame h hthreads hevents hnumber ih => rwa [hevents, hnumber]
  | emit h body ih =>
    unfold Session.emit
    split
    · simp only [Function.update_of_ne hne]
      exact ih
    · exact ih

/-- The number and the list of a thread after an event. -/
def pushEvent (log : ℕ × List Event) (body : EventBody) : ℕ × List Event :=
  (log.1 + 1, lastN 200 (log.2 ++ [{ cursor := log.1 + 1, body := body }]))

theorem Emits.own {s : Session} {A : Key} {bodies : List EventBody} {t : Session}
    (h : Emits s A bodies t) (hknown : A ∈ s.threads) :
    (t.eventNumber A, t.events A) = bodies.foldl pushEvent (s.eventNumber A, s.events A) := by
  induction h with
  | refl => rfl
  | frame h hthreads hevents hnumber ih => rwa [hevents, hnumber]
  | @emit bodies t h body ih =>
    have hmem : A ∈ t.threads := h.threads ▸ hknown
    rw [List.foldl_append, ← ih]
    simp only [Session.emit, hmem, if_true, Function.update_self, List.foldl_cons, List.foldl_nil,
      pushEvent]

/-- Both sessions publish the same events of the thread. -/
theorem Agree.emits {A : Key} {mine : Key → Prop} {s t s' t' : Session} (h : Agree A mine s t)
    {bodies : List EventBody} (hs : Emits s A bodies s') (ht : Emits t A bodies t')
    (hkept : ∀ turn, mine turn → s'.finalMessages.lookup turn = t'.finalMessages.lookup turn) :
    Agree A mine s' t' := by
  have hlogs := (hs.own h.known.1).trans
    ((congrArg₂ (fun n es => bodies.foldl pushEvent (n, es)) h.number h.events).trans
      (ht.own h.known.2).symm)
  exact ⟨⟨hs.threads ▸ h.known.1, ht.threads ▸ h.known.2⟩, (Prod.mk.inj hlogs).2,
    (Prod.mk.inj hlogs).1, hkept⟩

/-- One session publishes events of another thread. -/
theorem Agree.other {A thread : Key} {mine : Key → Prop} {s t s' : Session} (h : Agree A mine s t)
    {bodies : List EventBody} (hs : Emits s thread bodies s') (hne : A ≠ thread)
    (hkept : ∀ turn, mine turn → s'.finalMessages.lookup turn = s.finalMessages.lookup turn) :
    Agree A mine s' t := by
  obtain ⟨hevents, hnumber⟩ := hs.other hne
  exact ⟨⟨hs.threads ▸ h.known.1, h.known.2⟩, hevents.trans h.events, hnumber.trans h.number,
    fun turn hturn => (hkept turn hturn).trans (h.kept turn hturn)⟩

/-! ### Messages that are kept -/

theorem lookup_filter_ne {α β : Type} [DecidableEq α] (xs : List (α × β)) (k k' : α) :
    (xs.filter fun p => p.1 ≠ k').lookup k = if k = k' then none else xs.lookup k := by
  induction xs with
  | nil => simp
  | cons p xs ih =>
    obtain ⟨a, b⟩ := p
    by_cases ha : a = k'
    · rw [List.filter_cons_of_neg (by simpa using ha), ih, List.lookup_cons]
      subst ha
      by_cases hk : k = a
      · simp [hk]
      · have hbeq : (k == a) = false := by simpa using hk
        simp [hk, hbeq]
    · rw [List.filter_cons_of_pos (by simpa using ha), List.lookup_cons, List.lookup_cons, ih]
      by_cases hk : k = a
      · subst hk
        simp [ha]
      · have hbeq : (k == a) = false := by simpa using hk
        simp [hbeq]

theorem lookup_keep {α β : Type} [DecidableEq α] (xs : List (α × β)) (k k' : α) (v : β) :
    (xs.filter (fun p => p.1 ≠ k') ++ [(k', v)]).lookup k =
      if k = k' then some v else xs.lookup k := by
  rw [List.lookup_append, lookup_filter_ne]
  by_cases hk : k = k'
  · simp [hk]
  · have hbeq : (k == k') = false := by simpa using hk
    simp [hk, List.lookup_cons, hbeq]

theorem paramsOf_eq {message params : Fields}
    (h : asFields (Fields.get message "params") = .ok params) : paramsOf message = some params := by
  simp only [paramsOf, h]

theorem turnOf_item {message params : Fields} {turn : Key} {text : Sliced}
    (hmethod : isText (Fields.get message "method") "item/completed" = true)
    (hmessage : messageOf params = .ok (some (turn, text))) :
    turnOf message params = some turn := by
  unfold messageOf at hmessage
  obtain ⟨item, -, hmessage⟩ := except_bind_eq_ok.1 hmessage
  split at hmessage
  · obtain ⟨text', -, hmessage⟩ := except_bind_eq_ok.1 hmessage
    obtain ⟨turn', hturn, hmessage⟩ := except_bind_eq_ok.1 hmessage
    cases hmessage
    unfold asKey at hturn
    split at hturn
    · cases hturn
    · rename_i k hk
      cases hturn
      simp only [turnOf, hmethod, if_true, hk]
  · cases hmessage

/-- The turn of a `turn/completed` that was read. -/
theorem turnOf_turn {message params turn : Fields} {answer : Sliced} {s : Session} {turnKey : Key}
    (hmethod : isText (Fields.get message "method") "turn/completed" = true)
    (hread : readTurn params s = .ok (turn, answer))
    (hkey : (Fields.get turn "id").hash = some turnKey) :
    turnOf message params = some turnKey := by
  have hnot := isText_of_ne (t := "item/completed") hmethod (by decide)
  have hturn := (steps_of_readTurn hread).1
  simp only [turnOf, hnot, Bool.false_eq_true, if_false, hmethod, if_true, hturn, hkey]

/-! ### One message -/

section Step

variable {A : Key} {mine : Key → Prop} {s t : Session}

/-- A notification of another thread is not seen. -/
theorem agree_notify_other {message : Fields} {accepts : Bool} (h : Agree A mine s t)
    (hthread : (Message.notify message accepts).thread ≠ some A)
    (hturn : ∀ turn, (Message.notify message accepts).turn = some turn → ¬ mine turn) :
    Agree A mine (recordNotification message accepts s).session t := by
  have hnoted := notedBy_recordNotification message accepts s
  generalize recordNotification message accepts s = noted at hnoted ⊢
  cases hnoted with
  | ignored raised => exact h
  | kept params turn text hmethod hparams hmessage =>
    refine ⟨h.known, h.events, h.number, ?_⟩
    intro turn' hmine
    have hnot : ¬ mine turn := by
      refine hturn turn ?_
      simp only [Message.turn, paramsOf_eq hparams, Option.bind_some]
      exact turnOf_item hmethod hmessage
    have hne : turn' ≠ turn := by
      rintro rfl
      exact hnot hmine
    rw [lookup_keep, if_neg hne]
    exact h.kept turn' hmine
  | finished params thread turn answer turnKey hmethod hparams hthread' hknown hread hkey =>
    have hne : A ≠ thread := by
      rintro rfl
      exact hthread (by simp only [Message.thread, paramsOf_eq hparams, Option.bind_some, hthread'])
    have hnot : ¬ mine turnKey := by
      refine hturn turnKey ?_
      simp only [Message.turn, paramsOf_eq hparams, Option.bind_some]
      exact turnOf_turn hmethod hread hkey
    refine h.other (emits_finishTurn _ _ _ _ _ _ _) hne ?_
    intro turn' hmine
    have hother : turn' ≠ turnKey := by
      rintro rfl
      exact hnot hmine
    rw [finalMessages_finishTurn, lookup_filter_ne, if_neg hother]
  | unhashed params thread turn answer hmethod hparams hthread' hknown hread hkey =>
    have hne : A ≠ thread := by
      rintro rfl
      exact hthread (by simp only [Message.thread, paramsOf_eq hparams, Option.bind_some, hthread'])
    simp only
    split
    · refine h.other (Emits.refl.emit _) hne ?_
      intro turn' _
      rw [finalMessages_emit]
    · exact h

/-- A turn is read alike, if the message kept for it is the same. -/
theorem readTurn_congr {params : Fields}
    (hkept : ∀ turn turnKey, asFields (Fields.get params "turn") = .ok turn →
      (Fields.get turn "id").hash = some turnKey →
      s.finalMessages.lookup turnKey = t.finalMessages.lookup turnKey) :
    readTurn params s = readTurn params t := by
  unfold readTurn
  cases hturn : asFields (Fields.get params "turn") with
  | error e => rfl
  | ok turn =>
    cases hitems : asItems (Fields.get turn "items") with
    | error e => simp only [bind, Except.bind, hitems]
    | ok items =>
      simp only [bind, Except.bind, hitems]
      have hanswer : answerOf turn items s = answerOf turn items t := by
        unfold answerOf
        cases (answersOf items).getLast? with
        | some answer => rfl
        | none =>
          unfold asKey
          cases hkey : (Fields.get turn "id").hash with
          | none => rfl
          | some turnKey =>
            simp only [bind, Except.bind, hkept turn turnKey hturn hkey]
      rw [hanswer]

/-- A `turn/completed` of the thread looks the same from both sessions. -/
theorem agree_turn_own {message params : Fields} {accepts : Bool} (h : Agree A mine s t)
    (hmethod : isText (Fields.get message "method") "turn/completed" = true)
    (hparams : asFields (Fields.get message "params") = .ok params)
    (hthread : (Fields.get params "threadId").hash = some A)
    (hturn : ∀ turn, turnOf message params = some turn → mine turn)
    (hreadable : notificationReadable s.threads message = true) :
    Agree A mine (recordNotification message accepts s).session
      (recordNotification message accepts t).session := by
  have hnot := isText_of_ne (t := "item/completed") hmethod (by decide)
  -- the turn can be read, and is read alike
  have hok : ∃ turn, asFields (Fields.get params "turn") = .ok turn ∧ turnReadable turn = true := by
    simp only [notificationReadable, hnot, hmethod, hparams, hthread, h.known.1, if_true,
      Bool.false_eq_true, if_false] at hreadable
    split at hreadable
    · cases hreadable
    · rename_i turn hturn'
      exact ⟨turn, hturn', hreadable⟩
  obtain ⟨turn, answer, turnKey, hread, hkey⟩ := (readTurn_ok_iff params s).2 hok
  have hsame : readTurn params t = .ok (turn, answer) := by
    rw [← hread]
    refine (readTurn_congr ?_).symm
    intro turn' turnKey' hturn' hkey'
    refine h.kept turnKey' (hturn turnKey' ?_)
    simp only [turnOf, hnot, Bool.false_eq_true, if_false, hmethod, if_true, hturn', hkey']
  have hfinish : ∀ u : Session, A ∈ u.threads → readTurn params u = .ok (turn, answer) →
      recordNotification message accepts u =
        finishTurn A turnKey (Fields.get params "threadId") turn answer accepts u := by
    intro u hknown hu
    simp only [recordNotification, turnCompleted, hnot, hmethod, hparams, hthread, hknown, hu, hkey,
      if_true, Bool.false_eq_true, if_false]
  rw [hfinish s h.known.1 hread, hfinish t h.known.2 hsame]
  refine h.emits (emits_finishTurn _ _ _ _ _ _ _) (emits_finishTurn _ _ _ _ _ _ _) ?_
  intro turn' hmine
  rw [finalMessages_finishTurn, finalMessages_finishTurn, lookup_filter_ne, lookup_filter_ne,
    h.kept turn' hmine]

/-- A notification of the thread looks the same from both sessions. -/
theorem agree_notify_own {message : Fields} {accepts : Bool} (h : Agree A mine s t)
    (hthread : (Message.notify message accepts).thread = some A)
    (hturn : ∀ turn, (Message.notify message accepts).turn = some turn → mine turn)
    (hreadable : notificationReadable s.threads message = true) :
    Agree A mine (recordNotification message accepts s).session
      (recordNotification message accepts t).session := by
  obtain ⟨params, hparams', hhash⟩ := Option.bind_eq_some_iff.1 hthread
  have hparams : asFields (Fields.get message "params") = .ok params := by
    unfold paramsOf at hparams'
    split at hparams'
    · rename_i params' heq
      cases hparams'
      exact heq
    · cases hparams'
  by_cases hitem : isText (Fields.get message "method") "item/completed" = true
  · simp only [recordNotification, hitem, if_true, itemCompleted]
    split
    · exact h
    · exact h
    · refine ⟨h.known, h.events, h.number, ?_⟩
      intro turn' hmine
      rw [lookup_keep, lookup_keep, h.kept turn' hmine]
  · by_cases hcompleted : isText (Fields.get message "method") "turn/completed" = true
    · refine agree_turn_own h hcompleted hparams hhash ?_ hreadable
      intro turn hof
      exact hturn turn (by simp only [Message.turn, hparams', Option.bind_some, hof])
    · simp only [recordNotification, hitem, hcompleted, Bool.false_eq_true, if_false]
      exact h

end Step

/-! ### Histories -/

/-- Both readers read, and what they made of it looks the same to the thread. -/
structure Hearing (A : Key) (mine : Key → Prop) (threads threads' : List Key)
    (l k : Listening) : Prop where
  reading : l.reading = true ∧ k.reading = true
  threads : l.session.threads = threads ∧ k.session.threads = threads'
  agree : Agree A mine l.session k.session

section Hearing

variable {A : Key} {mine : Key → Prop} {threads threads' : List Key} {l k : Listening} {m : Message}

/-- The session and the reader after a message that can be read. -/
theorem listen_of_readable (hreading : l.reading = true) (h : m.readable l.session.threads = true) :
    (listen m l).reading = true ∧ (listen m l).session.threads = l.session.threads := by
  cases m with
  | notify message accepts =>
    have hquiet := (raised_iff message accepts l.session).2 h
    simp only [listen, hreading, if_true, hquiet, Bool.not_false, true_and]
    exact threads_recordNotification message accepts l.session
  | tool thread params name result =>
    simp only [listen]
    split
    · exact ⟨hreading, (emits_toolDone _ _ _ _ _).threads⟩
    · exact ⟨hreading, rfl⟩

theorem hearing_other (h : Hearing A mine threads threads' l k)
    (hreadable : m.readable threads = true) (hthread : m.thread ≠ some A)
    (hturn : ∀ turn, m.turn = some turn → ¬ mine turn) :
    Hearing A mine threads threads' (listen m l) k := by
  have hlisten := listen_of_readable h.reading.1 (h.threads.1 ▸ hreadable)
  refine ⟨⟨hlisten.1, h.reading.2⟩, ⟨hlisten.2.trans h.threads.1, h.threads.2⟩, ?_⟩
  cases m with
  | notify message accepts =>
    simp only [listen, h.reading.1, if_true]
    exact agree_notify_other h.agree hthread hturn
  | tool thread params name result =>
    simp only [listen]
    split
    · refine h.agree.other (emits_toolDone _ _ _ _ _) ?_ ?_
      · rintro rfl
        exact hthread rfl
      · intro turn _
        rw [finalMessages_toolDone]
    · exact h.agree

theorem hearing_own (h : Hearing A mine threads threads' l k)
    (hreadable : m.readable threads = true) (hreadable' : m.readable threads' = true)
    (hthread : m.thread = some A) (hturn : ∀ turn, m.turn = some turn → mine turn) :
    Hearing A mine threads threads' (listen m l) (listen m k) := by
  have hl := listen_of_readable h.reading.1 (h.threads.1 ▸ hreadable)
  have hk := listen_of_readable h.reading.2 (h.threads.2 ▸ hreadable')
  refine ⟨⟨hl.1, hk.1⟩, ⟨hl.2.trans h.threads.1, hk.2.trans h.threads.2⟩, ?_⟩
  cases m with
  | notify message accepts =>
    simp only [listen, h.reading.1, h.reading.2, if_true]
    exact agree_notify_own h.agree hthread hturn (h.threads.1 ▸ hreadable)
  | tool thread params name result =>
    cases hthread
    simp only [listen, h.agree.known.1, h.agree.known.2, if_true]
    refine h.agree.emits (emits_toolDone _ _ _ _ _) (emits_toolDone _ _ _ _ _) ?_
    intro turn hmine
    rw [finalMessages_toolDone, finalMessages_toolDone]
    exact h.agree.kept turn hmine

end Hearing

/-- The messages of a thread. -/
def ownPart (A : Key) (history : List Message) : List Message :=
  history.filter fun m => m.thread = some A

/-- A history looks to a thread like its own part of it. -/
theorem hearing_ownPart {A : Key} {owner : Key → Option Key} {s : Session} {history : List Message}
    (hknown : A ∈ s.threads) (hone : OneThread owner history)
    (hread : ∀ m ∈ history, m.readable s.threads = true) :
    Hearing A (fun turn => owner turn = some A) s.threads s.threads
      (listenAll history ⟨s, true⟩) (listenAll (ownPart A history) ⟨s, true⟩) := by
  refine Unwinding.purge history ?_ ?_
    ⟨⟨rfl, rfl⟩, ⟨rfl, rfl⟩, ⟨hknown, hknown⟩, rfl, rfl, fun _ _ => rfl⟩
  · intro m hm hother l k h
    have hthread : m.thread ≠ some A := by simpa using hother
    refine hearing_other h (hread m hm) hthread ?_
    intro turn hturn hmine
    exact hthread ((hone m hm turn hturn).trans hmine)
  · intro m hm hmine l k h
    have hthread : m.thread = some A := by simpa using hmine
    refine hearing_own h (hread m hm) (hread m hm) hthread ?_
    intro turn hturn
    exact (hone m hm turn hturn).symm.trans hthread

/-- **Histories whose notifications can all be read show a thread the same events, if every turn
belongs to one thread and the thread's own part of them is the same.** -/
theorem threads_isolated (A : Key) (s₁ s₂ : Session) (history₁ history₂ : List Message)
    (owner₁ owner₂ : Key → Option Key) (hknown₁ : A ∈ s₁.threads) (hknown₂ : A ∈ s₂.threads)
    (hevents : s₁.events A = s₂.events A) (hnumber : s₁.eventNumber A = s₂.eventNumber A)
    (hnone₁ : s₁.finalMessages = []) (hnone₂ : s₂.finalMessages = [])
    (hone₁ : OneThread owner₁ history₁) (hone₂ : OneThread owner₂ history₂)
    (hread₁ : ∀ m ∈ history₁, m.readable s₁.threads = true)
    (hread₂ : ∀ m ∈ history₂, m.readable s₂.threads = true)
    (hsame : ownPart A history₁ = ownPart A history₂) (after : ℤ) :
    (listenAll history₁ ⟨s₁, true⟩).session.eventsAfter A after =
      (listenAll history₂ ⟨s₂, true⟩).session.eventsAfter A after := by
  have hleft := hearing_ownPart hknown₁ hone₁ hread₁
  have hright := hearing_ownPart hknown₂ hone₂ hread₂
  -- the thread's own messages, from the two sessions
  have hmiddle : Hearing A (fun _ => True) s₁.threads s₂.threads
      (listenAll (ownPart A history₁) ⟨s₁, true⟩) (listenAll (ownPart A history₁) ⟨s₂, true⟩) := by
    refine Unwinding.play_congr (ownPart A history₁) ?_ ⟨⟨rfl, rfl⟩, ⟨rfl, rfl⟩,
      ⟨hknown₁, hknown₂⟩, hevents, hnumber, fun turn _ => by rw [hnone₁, hnone₂]⟩
    intro m hm l k h
    obtain ⟨hm₁, hthread⟩ := List.mem_filter.1 hm
    obtain ⟨hm₂, -⟩ := List.mem_filter.1 (hsame ▸ hm)
    exact hearing_own h (hread₁ m hm₁) (hread₂ m hm₂) (of_decide_eq_true hthread) fun _ _ => trivial
  rw [hleft.agree.eventsAfter, hmiddle.agree.eventsAfter, hsame, hright.agree.eventsAfter]

/-! Two threads, with a turn each. -/

/-- Thread `"t1"` alone, and with `"t2"`. -/
def firstAlone : Session := Session.empty.addThread (.text "t1")

def bothThreads : Session := firstAlone.addThread (.text "t2")

def keyOf (id : String) : Key := .str (Str.ofString id)

/-- The turn `"b"` is of thread `"t2"`, the others are of `"t1"`. -/
def ownerOf (turn : Key) : Option Key :=
  if turn = keyOf "b" then some (keyOf "t2") else some (keyOf "t1")

/-- The first thread's turn: a final message, and its end. -/
def firstTurn : List Message :=
  [.notify (itemMessage "t1" "a" (agentMessage .null (.text "yes"))) true,
    .notify (turnMessage "t1" "a" []) true]

/-- A message of the second thread comes before each of them. -/
def mixedTurns : List Message :=
  [.notify (itemMessage "t2" "b" (agentMessage .null (.text "no"))) true,
    .notify (itemMessage "t1" "a" (agentMessage .null (.text "yes"))) true,
    .notify (turnMessage "t2" "b" []) true, .notify (turnMessage "t1" "a" []) true]

/-- The second thread sends a message without a text first. -/
def silencedTurn : List Message :=
  .notify (itemMessage "t2" "b" (agentMessage .null .null)) true :: firstTurn

/-- The thread of a turn, for a list of messages that can be checked one by one. -/
theorem oneThread_of_all {owner : Key → Option Key} {history : List Message}
    (h : history.all (fun m => m.turn.all fun turn => m.thread = owner turn) = true) :
    OneThread owner history := by
  intro m hm turn hturn
  have hall := List.all_eq_true.1 h m hm
  rw [hturn] at hall
  exact of_decide_eq_true hall

/-- A message of the second thread is no part of the first one's. -/
theorem ownPart_cons_other (m : Message) (history : List Message)
    (h : m.thread = some (keyOf "t2")) :
    ownPart (keyOf "t1") (m :: history) = ownPart (keyOf "t1") history := by
  refine List.filter_cons_of_neg ?_
  rw [h]
  decide +kernel

theorem ownPart_cons_own (m : Message) (history : List Message)
    (h : m.thread = some (keyOf "t1")) :
    ownPart (keyOf "t1") (m :: history) = m :: ownPart (keyOf "t1") history :=
  List.filter_cons_of_pos (by simpa using h)

theorem threads_isolated_mixedTurns :
    ((listenAll firstTurn ⟨firstAlone, true⟩).session.eventsAfter (keyOf "t1") 0).map List.length =
        some 1 ∧
      (listenAll firstTurn ⟨firstAlone, true⟩).session.eventsAfter (keyOf "t1") 0 =
        (listenAll mixedTurns ⟨bothThreads, true⟩).session.eventsAfter (keyOf "t1") 0 := by
  refine ⟨by decide +kernel, ?_⟩
  refine threads_isolated (keyOf "t1") firstAlone bothThreads firstTurn mixedTurns ownerOf ownerOf
    (by decide +kernel) (by decide +kernel) rfl rfl rfl rfl
    (oneThread_of_all (by decide +kernel)) (oneThread_of_all (by decide +kernel))
    (List.all_eq_true.1 (by decide +kernel)) (List.all_eq_true.1 (by decide +kernel)) ?_ 0
  have hpart : ownPart (keyOf "t1") mixedTurns = ownPart (keyOf "t1") firstTurn := by
    unfold mixedTurns
    rw [ownPart_cons_other _ _ (by decide +kernel), ownPart_cons_own _ _ (by decide +kernel),
      ownPart_cons_other _ _ (by decide +kernel), ← ownPart_cons_own _ _ (by decide +kernel)]
    rfl
  exact hpart.symm

/-- The second thread, which need not be known, ends the reader: the turn of the first one is
completed, but its client is never told. -/
theorem other_thread_silences :
    OneThread ownerOf firstTurn ∧ OneThread ownerOf silencedTurn ∧
      ownPart (keyOf "t1") firstTurn = ownPart (keyOf "t1") silencedTurn ∧
      keyOf "t1" ∈ firstAlone.threads ∧
      (listenAll firstTurn ⟨firstAlone, true⟩).session.eventsAfter (keyOf "t1") 0 ≠
        (listenAll silencedTurn ⟨firstAlone, true⟩).session.eventsAfter (keyOf "t1") 0 := by
  refine ⟨oneThread_of_all (by decide +kernel), oneThread_of_all (by decide +kernel), ?_,
    by decide +kernel, ?_⟩
  · exact (ownPart_cons_other _ _ (by decide +kernel)).symm
  · intro heq
    have hlength := congrArg (Option.map List.length) heq
    exact absurd hlength (by decide +kernel)

end QuantFlow
