/-
**The reader of the App Server's output.**

`_read_stdout` catches one exception, that of a line that is no JSON.  Anything else that is raised
while a line is handled ends the loop: the test for a key in a value that has none, an error that is
no dictionary, a text that cannot be sliced, an id that cannot be hashed.  The process lives on, but
nothing it writes is read any more.

Whether a line does this depends on the line and on what it meets: a bad error is only looked at if
a call waits for it, and a turn only if its thread is known.

Main definitions:

* `notificationReadable`, `acceptable` — the lines that raise nothing in a state;
* `Survives` — over the past of a run, lines were handled and no line ended a reader.

Main results:

* `raised_iff`, `receive_quiet_iff` — a notification, and a line, raises nothing
  exactly if it is acceptable;
* `reader_survives_iff` — **a run leaves its readers alone exactly when every line it read
  was acceptable where it was read**.
-/

import QuantFlow.BridgeRuns
import QuantFlow.RpcCorrelation

namespace QuantFlow

open Py (Json Key Str Fields)
open Runs (Transition)

/-! ### Notifications that raise -/

/-- The turn of a known thread can be read: its id can be hashed, its items are dictionaries, and
the last message of the agent among them can be sliced. -/
def turnReadable (turn : Fields) : Bool :=
  (Fields.get turn "id").hash.isSome &&
    match asItems (Fields.get turn "items") with
    | .error _ => false
    | .ok items => (answersOf items).getLast?.all fun answer => succeeds (cut answer)

/-- The notification can be read, with these threads known. -/
def notificationReadable (threads : List Key) (message : Fields) : Bool :=
  if isText (Fields.get message "method") "item/completed" then
    succeeds (asFields (Fields.get message "params") >>= messageOf)
  else if isText (Fields.get message "method") "turn/completed" then
    match asFields (Fields.get message "params") with
    | .error _ => false
    | .ok params =>
      match (Fields.get params "threadId").hash with
      | none => false
      | some thread =>
        if thread ∈ threads then
          match asFields (Fields.get params "turn") with
          | .error _ => false
          | .ok turn => turnReadable turn
        else true
  else true

theorem answerOf_ok_iff {turn : Fields} {items : List Fields} {s : Session} {turnKey : Key}
    (hkey : (Fields.get turn "id").hash = some turnKey) :
    (∃ answer, answerOf turn items s = .ok answer) ↔
      ((answersOf items).getLast?.all fun answer => succeeds (cut answer)) = true := by
  unfold answerOf
  cases (answersOf items).getLast? with
  | none =>
    have hasKey : asKey (Fields.get turn "id") = .ok turnKey := by
      unfold asKey
      rw [hkey]
    simp only [hasKey, Option.all_none, iff_true]
    exact ⟨_, rfl⟩
  | some answer => exact succeeds_iff.symm

/-- A turn can be read exactly if its fields allow it. -/
theorem readTurn_ok_iff (params : Fields) (s : Session) :
    (∃ turn answer turnKey, readTurn params s = .ok (turn, answer) ∧
      (Fields.get turn "id").hash = some turnKey) ↔
    ∃ turn, asFields (Fields.get params "turn") = .ok turn ∧ turnReadable turn = true := by
  unfold readTurn turnReadable
  cases hturn : asFields (Fields.get params "turn") with
  | error e =>
    constructor
    · rintro ⟨turn, answer, turnKey, hread, -⟩
      cases hread
    · rintro ⟨turn, hok, -⟩
      cases hok
  | ok turn =>
    cases hitems : asItems (Fields.get turn "items") with
    | error e =>
      constructor
      · rintro ⟨turn', answer, turnKey, hread, -⟩
        simp only [bind, Except.bind, hitems] at hread
        cases hread
      · rintro ⟨turn', hok, hreadable⟩
        cases hok
        simp [hitems] at hreadable
    | ok items =>
      simp only [bind, Except.bind, hitems]
      constructor
      · rintro ⟨turn', answer, turnKey, hread, hkey⟩
        split at hread
        · cases hread
        · rename_i hanswer
          cases hread
          refine ⟨turn, rfl, ?_⟩
          simp only [hkey, Option.isSome_some, Bool.true_and, hitems]
          exact (answerOf_ok_iff hkey).1 ⟨_, hanswer⟩
      · rintro ⟨turn', hok, hreadable⟩
        cases hok
        obtain ⟨hid, hlast⟩ := Bool.and_eq_true_iff.1 hreadable
        obtain ⟨turnKey, hkey⟩ := Option.isSome_iff_exists.1 hid
        simp only [hitems] at hlast
        obtain ⟨answer, hanswer⟩ := (answerOf_ok_iff (s := s) hkey).2 hlast
        exact ⟨turn, answer, turnKey, by rw [hanswer], hkey⟩

theorem raised_itemCompleted (message : Fields) (s : Session) :
    (itemCompleted message s).raised = false ↔
      succeeds (asFields (Fields.get message "params") >>= messageOf) = true := by
  unfold itemCompleted
  cases asFields (Fields.get message "params") >>= messageOf with
  | error e => simp [succeeds]
  | ok kept =>
    cases kept with
    | none => simp [succeeds]
    | some pair => simp [succeeds]

/-- **A notification raises nothing exactly if it can be read.** -/
theorem raised_iff (message : Fields) (accepts : Bool) (s : Session) :
    (recordNotification message accepts s).raised = false ↔
      notificationReadable s.threads message = true := by
  unfold recordNotification notificationReadable
  split
  · exact raised_itemCompleted message s
  · split
    · unfold turnCompleted
      cases hparams : asFields (Fields.get message "params") with
      | error e => simp
      | ok params =>
        simp only
        cases hthread : (Fields.get params "threadId").hash with
        | none => simp
        | some thread =>
          simp only
          split
          · -- the turn of a known thread is read, and its id is hashed
            have hread := readTurn_ok_iff params s
            cases hturn : asFields (Fields.get params "turn") with
            | error e =>
              simp only [readTurn, hturn, bind, Except.bind]
              simp
            | ok turn =>
              simp only [hturn, Except.ok.injEq, exists_eq_left'] at hread
              rw [← hread]
              constructor
              · intro hquiet
                split at hquiet
                · cases hquiet
                · rename_i turn' answer hok
                  split at hquiet
                  · rename_i turnKey hkey
                    exact ⟨turn', answer, turnKey, hok, hkey⟩
                  · cases hquiet
              · rintro ⟨turn', answer, turnKey, hok, hkey⟩
                simp only [hok, hkey]
                rfl
          · simp
    · simp

/-! ### Lines that raise -/

/-- The line raises nothing in the state: it is no JSON, or a dictionary or another value that can
be searched; the error of a response that a call waits for is a dictionary; a notification can be
read. -/
def acceptable (s : Runtime) (line : Line) : Bool :=
  match classify line with
  | .ignored => true
  | .raises => false
  | .request _ => true
  | .response id message =>
    !(s.calls.any fun c => decide (Key.num c.id = id) && c.outcome.isWaiting) ||
      (verdict 0 message).isSome
  | .notification message => notificationReadable s.threads message

theorem respond_eq_none_iff (s : Runtime) (g : Gen) (id : Key) (message : Fields) :
    s.respond g id message = none ↔
      (s.calls.any fun c => decide (Key.num c.id = id) && c.outcome.isWaiting) = true ∧
        verdict 0 message = none := by
  unfold Runtime.respond verdict
  cases hfind : s.calls.find? fun c => Key.num c.id = id && c.outcome.isWaiting with
  | none =>
    have hnone := List.find?_eq_none.1 hfind
    simp only [reduceCtorEq, false_iff, not_and]
    intro hany
    obtain ⟨c, hc, hwaits⟩ := List.any_eq_true.1 hany
    exact absurd hwaits (hnone c hc)
  | some c =>
    have hwaits := List.find?_some hfind
    have hany : (s.calls.any fun c => decide (Key.num c.id = id) && c.outcome.isWaiting) = true :=
      List.any_eq_true.2 ⟨c, List.mem_of_find?_eq_some hfind, hwaits⟩
    simp only [hany, true_and]
    -- both sides look at the error of the response
    cases Fields.find message "error" with
    | none => simp
    | some error =>
      cases error with
      | obj fields => simp
      | _ => simp

/-- **A line raises nothing exactly if it is acceptable.** -/
theorem receive_quiet_iff (s : Runtime) (g : Gen) (line : Line) (accepts : Bool) :
    (s.receive g line accepts).2 = false ↔ acceptable s line = true := by
  unfold Runtime.receive acceptable
  cases classify line with
  | ignored => simp
  | raises => simp
  | request message => simp
  | response id message =>
    have hnone := respond_eq_none_iff s g id message
    simp only
    cases hr : s.respond g id message with
    | none =>
      obtain ⟨hany, hverdict⟩ := hnone.1 hr
      simp [hany, hverdict]
    | some s' =>
      rw [hr] at hnone
      simp only [reduceCtorEq, false_iff, not_and] at hnone
      simp only [true_iff]
      cases hany : s.calls.any fun c => decide (Key.num c.id = id) && c.outcome.isWaiting with
      | true => exact Option.isSome_iff_ne_none.2 (hnone hany)
      | false => rfl
  | notification message => exact raised_iff message accepts s.bridge.session

/-! ### Readers that end -/

theorem shortens_stopReader {s : Runtime} {g : Gen} (hg : g ∈ s.readers) :
    (s.stopReader g).readers.length < s.readers.length := by
  have hpos := List.length_pos_of_mem hg
  have hshort : (s.stopReader g).readers.length = s.readers.length - 1 :=
    List.length_erase_of_mem hg
  omega

theorem length_readers_nextLine {s : Runtime} {g : Gen} (hg : g ∈ s.readers) :
    (s.nextLine g).readers.length = s.readers.length := by
  have hpos := List.length_pos_of_mem hg
  unfold Runtime.nextLine
  split
  · rfl
  · simp only [List.length_append, List.length_erase_of_mem hg, List.length_singleton]
    omega

/-- The reading of a line ends a reader exactly if it raises. -/
theorem shortens_readLine {host : Host} {g : Gen} {line : Line} {accepts : Bool} {s s' : Runtime}
    (hact : act host (.readLine g line accepts) s = some s') :
    s'.readers.length < s.readers.length ↔ acceptable s line = false := by
  have hquiet := receive_quiet_iff s g line accepts
  obtain ⟨-, hreaders⟩ := frame_receive s g line accepts
  cases acts_of_act hact with
  | lineRaised hg hreceive =>
    rw [hreceive] at hquiet hreaders
    simp only at hquiet hreaders
    have hnot : acceptable s line = false := by simpa using hquiet
    simp only [hnot, iff_true]
    rw [← hreaders] at hg ⊢
    exact shortens_stopReader hg
  | lineRead hg hreceive =>
    rw [hreceive] at hquiet hreaders
    simp only at hquiet hreaders
    have haccepted : acceptable s line = true := by simpa using hquiet
    rw [← hreaders] at hg ⊢
    simp [haccepted, length_readers_nextLine hg]

theorem readers_endCall (s : Runtime) (c : Call) : (s.endCall c).readers = s.readers := by
  unfold Runtime.endCall
  simp only
  split
  · split <;> rfl
  · rfl

/-- An action that is not the reader's leaves the readers alone, or adds one. -/
theorem readers_le_act {host : Host} {a : Action} {s s' : Runtime}
    (hline : ∀ g line accepts, a ≠ .readLine g line accepts) (hend : ∀ g, a ≠ .readEnd g)
    (hcollide : ∀ g, a ≠ .collide g) (hact : act host a s = some s') :
    s.readers.length ≤ s'.readers.length := by
  cases acts_of_act hact with
  | lineRaised hg hreceive => exact absurd rfl (hline _ _ _)
  | lineRead hg hreceive => exact absurd rfl (hline _ _ _)
  | readEnd hg hhung => exact absurd rfl (hend _)
  | collide htwo => exact absurd rfl (hcollide _)
  | spawn hphase => simp [Runtime.beginCall]
  | rpcEnd hfind => rw [readers_endCall]
  | _ => exact le_refl _

/-- **What ends a reader**: the end of the output, two readers of one output, or a line that
raises. -/
theorem shortens_iff {host : Host} {a : Action} {s s' : Runtime} (hact : act host a s = some s') :
    s'.readers.length < s.readers.length ↔
      (∃ g, a = .readEnd g ∨ a = .collide g) ∨
        ∃ g line accepts, a = .readLine g line accepts ∧ acceptable s line = false := by
  constructor
  · intro hshort
    by_cases hline : ∃ g line accepts, a = .readLine g line accepts
    · obtain ⟨g, line, accepts, rfl⟩ := hline
      exact .inr ⟨g, line, accepts, rfl, (shortens_readLine hact).1 hshort⟩
    · refine .inl ?_
      by_contra hother
      have hle := readers_le_act (fun g line accepts h => hline ⟨g, line, accepts, h⟩)
        (fun g h => hother ⟨g, .inl h⟩) (fun g h => hother ⟨g, .inr h⟩) hact
      omega
  · rintro (⟨g, rfl | rfl⟩ | ⟨g, line, accepts, rfl, hnot⟩)
    · cases acts_of_act hact with
      | readEnd hg hhung => exact shortens_stopReader hg
    · cases acts_of_act hact with
      | collide htwo => exact shortens_stopReader (List.count_pos_iff.1 (by omega))
    · exact (shortens_readLine hact).2 hnot

/-! ### What a line does -/

/-- A response that a call waits for completes it. -/
theorem completes_act {host : Host} {a : Action} {s s' : Runtime} (hact : act host a s = some s')
    {id : ℕ} {outcome : Outcome} (hdelivers : Delivers a id outcome) (hwaits : Waiting s id) :
    ∃ c ∈ s'.calls, c.id = id ∧ c.outcome = outcome := by
  obtain ⟨g, line, accepts, message, rfl, hclass, hverdict⟩ := hdelivers
  obtain ⟨c, hc, hid, hwaiting⟩ := hwaits
  have hrespond : ∃ s₁, s.respond g (.num id) message = some s₁ ∧
      { c with outcome := outcome } ∈ s₁.calls := by
    unfold Runtime.respond
    cases hfind : s.calls.find? fun c => Key.num c.id = Key.num id && c.outcome.isWaiting with
    | none => exact absurd ⟨c, hc, hid, hwaiting⟩ (not_waiting_of_find hfind)
    | some c₀ =>
      obtain ⟨-, hkey, -⟩ := waiting_of_find hfind
      rw [Key.num.injEq, Nat.cast_inj] at hkey
      have hmem : { c with outcome := outcome } ∈ s.calls.map (fun c =>
          if c.id = c₀.id then { c with outcome := outcome } else c) :=
        List.mem_map.2 ⟨c, hc, if_pos (hid.trans hkey)⟩
      unfold verdict at hverdict
      generalize Fields.find message "error" = error at hverdict ⊢
      cases error with
      | none =>
        cases hverdict
        exact ⟨_, rfl, hmem⟩
      | some error =>
        cases error with
        | obj fields =>
          cases hverdict
          exact ⟨_, rfl, hmem⟩
        | _ => cases hverdict
  obtain ⟨s₁, hs₁, hmem⟩ := hrespond
  have hreads : s.receive g line accepts = (s₁, false) := by
    simp only [Runtime.receive, hclass, hs₁]
  refine ⟨{ c with outcome := outcome }, ?_, hid, rfl⟩
  cases acts_of_act hact with
  | lineRaised hg hreceive =>
    rw [hreads] at hreceive
    cases hreceive
  | lineRead hg hreceive =>
    rw [hreads] at hreceive
    cases hreceive
    rw [calls_nextLine]
    exact hmem

/-- A notification is recorded, whether it raises or not. -/
theorem records_act {host : Host} {g : Gen} {line : Line} {accepts : Bool} {message : Fields}
    {s s' : Runtime} (hact : act host (.readLine g line accepts) s = some s')
    (hclass : classify line = .notification message) :
    s'.bridge.session = (recordNotification message accepts s.bridge.session).session := by
  have hbridge := bridge_act hact
  simp only [deedOf, hclass] at hbridge
  rw [hbridge]
  rfl

/-! ### Runs -/

/-- **The readers survive what they read**: one ends only at the end of the output (or because two
of them read the same output), a response that a call waits for completes it, and a notification is
recorded. -/
structure Survives (past : List (Transition Runtime Action)) : Prop where
  ends : ∀ x ∈ past, x.target.readers.length < x.source.readers.length →
    ∃ g, x.action = .readEnd g ∨ x.action = .collide g
  completes : ∀ x ∈ past, ∀ id outcome, Delivers x.action id outcome → Waiting x.source id →
    ∃ c ∈ x.target.calls, c.id = id ∧ c.outcome = outcome
  records : ∀ x ∈ past, ∀ g line accepts message, x.action = .readLine g line accepts →
    classify line = .notification message → x.target.bridge.session =
      (recordNotification message accepts x.source.bridge.session).session

/-- A line that is read is acceptable in the state it is read in. -/
def acceptableAction (s : Runtime) : Action → Bool
  | .readLine _ line _ => acceptable s line
  | _ => true

/-- **A run leaves its readers alone exactly when every line it read was acceptable where it was
read.** -/
theorem reader_survives_iff (host : Host) (s₀ : Runtime) (actions : List Action)
    (t : Runs.Trace Runtime Action)
    (hrun : Runs.run (Runs.traced (act host)) actions (.start s₀) = some t) :
    Survives t.past ↔ ∀ x ∈ t.past, acceptableAction x.source x.action = true := by
  constructor
  · intro h x hx
    cases ha : x.action with
    | readLine g line accepts =>
      by_contra hnot
      have hshort := (shortens_iff (Runs.step_of_mem_past actions hrun hx)).2
        (.inr ⟨g, line, accepts, ha, Bool.not_eq_true _ ▸ hnot⟩)
      obtain ⟨g', hend | hcollide⟩ := h.ends x hx hshort
      · rw [ha] at hend
        cases hend
      · rw [ha] at hcollide
        cases hcollide
    | _ => rfl
  · intro hall
    refine ⟨?_, ?_, ?_⟩
    · intro x hx hshort
      have hact := Runs.step_of_mem_past actions hrun hx
      rcases (shortens_iff hact).1 hshort with hend | ⟨g, line, accepts, ha, hnot⟩
      · exact hend
      · have haccepted := hall x hx
        rw [ha] at haccepted
        exact absurd (haccepted.symm.trans hnot) (by simp)
    · intro x hx id outcome hdelivers hwaits
      exact completes_act (Runs.step_of_mem_past actions hrun hx) hdelivers hwaits
    · intro x hx g line accepts message ha hclass
      have hact := Runs.step_of_mem_past actions hrun hx
      rw [ha] at hact
      exact records_act hact hclass

def isReadLine : Action → Bool
  | .readLine _ _ _ => true
  | _ => false

/-- The first generation up to the thread it creates. -/
def threadAsked : List Action :=
  [.startBegin, .spawn, .rpcWrite 1, .readLine 0 (responseLine 1 (.obj [])) true, .rpcEnd 1,
    .startEnd, .rpcBegin .threadStart, .rpcWrite 2]

theorem reader_survives_iff_response :
    ∃ t, Runs.run (Runs.traced (act weekHost))
        (threadAsked ++ [.readLine 0 .undecodable true, .readLine 0 (responseLine 2 .null) true])
        (.start (Runtime.initial emptyWorld [])) = some t ∧
      t.past.length = 10 ∧ Survives t.past := by
  have hend : (Runs.run (Runs.traced (act weekHost))
      (threadAsked ++ [.readLine 0 .undecodable true, .readLine 0 (responseLine 2 .null) true])
      (.start (Runtime.initial emptyWorld []))).any (fun t => t.past.length = 10 &&
        t.past.all fun x => acceptableAction x.source x.action) = true := by
    decide +kernel
  obtain ⟨t, hrun, ht⟩ := (Option.any_eq_true _ _).1 hend
  obtain ⟨hlength, hall⟩ := Bool.and_eq_true_iff.1 ht
  exact ⟨t, hrun, of_decide_eq_true hlength,
    (reader_survives_iff weekHost _ _ t hrun).2 (List.all_eq_true.1 hall)⟩

/-- The App Server writes the line `5` before its response: the reader ends while the process is
alive, the call that waited has failed, and the response is never read. -/
theorem number_ends_reader :
    ∃ t, Runs.run (Runs.traced (act weekHost))
        (threadAsked ++ [.readLine 0 (.value (.int 5)) true])
        (.start (Runtime.initial emptyWorld [])) = some t ∧
      ¬ Survives t.past ∧ t.now.alive = true ∧
      act weekHost (.readLine 0 (responseLine 2 .null) true) t.now = none := by
  have hend : (Runs.run (Runs.traced (act weekHost))
      (threadAsked ++ [.readLine 0 (.value (.int 5)) true])
      (.start (Runtime.initial emptyWorld []))).any (fun t =>
        (t.past.any fun x => isReadLine x.action &&
          decide (x.target.readers.length < x.source.readers.length)) &&
        (t.now.alive && (act weekHost (.readLine 0 (responseLine 2 .null) true) t.now).isNone))
      = true := by
    decide +kernel
  obtain ⟨t, hrun, ht⟩ := (Option.any_eq_true _ _).1 hend
  obtain ⟨hshort, hrest⟩ := Bool.and_eq_true_iff.1 ht
  obtain ⟨halive, hnone⟩ := Bool.and_eq_true_iff.1 hrest
  refine ⟨t, hrun, ?_, halive, Option.isNone_iff_eq_none.1 hnone⟩
  intro hsurvives
  obtain ⟨x, hx, hpred⟩ := List.any_eq_true.1 hshort
  obtain ⟨hline, hlt⟩ := Bool.and_eq_true_iff.1 hpred
  obtain ⟨g, ha | ha⟩ := hsurvives.ends x hx (of_decide_eq_true hlt)
  · rw [ha] at hline
    cases hline
  · rw [ha] at hline
    cases hline

end QuantFlow
