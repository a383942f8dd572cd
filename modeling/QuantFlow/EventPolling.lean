/-
**Polling the events of a thread.**

The events of a thread are numbered as they are published, and the session keeps the last 200.  A
client asks for the events after the last one it has and is given at most 100.  Whatever happens to
the bridge between two polls, the events of a thread are a bounded log read by cursor: no action
drops an event but the publishing of another one, and none reuses a number.

Main definitions:

* `Numbered` — the events of every thread are the last of the numbers given out;
* `Polled`, `pollStep` — the bridge with a client that polls a thread.

Main results:

* `numberedStep_after` — no deed breaks the numbering, and the numbers only grow;
* `polling_faithful` — **in every interleaving of deeds and polls, the client gets the
  events in order, and skips one only if 200 others followed it**.
-/

import QuantFlow.BridgeRuns
import QuantFlow.CursorLog

namespace QuantFlow

open Py (Json Key Str Fields)

/-! ### The numbers of the events -/

/-- The numbers of the events that are kept for a thread. -/
def Session.cursors (s : Session) (thread : Key) : List ℕ := (s.events thread).map Event.cursor

/-- The events of every thread are the last 200 that were published. -/
def Numbered (s : Session) : Prop :=
  ∀ thread, s.cursors thread = CursorLog.kept 200 (s.eventNumber thread)

/-- A step that keeps the numbering, in which numbers only grow. -/
structure NumberedStep (s s' : Session) : Prop where
  numbered : Numbered s → Numbered s'
  grows : ∀ thread, s.eventNumber thread ≤ s'.eventNumber thread

theorem NumberedStep.of_eq {s s' : Session} (hevents : s'.events = s.events)
    (hnumber : s'.eventNumber = s.eventNumber) : NumberedStep s s' := by
  refine ⟨?_, fun thread => (congrFun hnumber thread).ge⟩
  intro h thread
  rw [Session.cursors, hevents, hnumber]
  exact h thread

theorem NumberedStep.trans {s t u : Session} (h₁ : NumberedStep s t) (h₂ : NumberedStep t u) :
    NumberedStep s u :=
  ⟨h₂.numbered ∘ h₁.numbered, fun thread => (h₁.grows thread).trans (h₂.grows thread)⟩

/-- Publishing an event: the thread gets the next number, and the oldest event goes if there are
200. -/
theorem numberedStep_emit (s : Session) (thread : Key) (body : EventBody) :
    NumberedStep s (s.emit thread body) := by
  unfold Session.emit
  split
  · refine ⟨?_, ?_⟩
    · intro h k
      by_cases hk : k = thread
      · subst hk
        have hthread := h k
        simp only [Session.cursors] at hthread
        simp only [Session.cursors, Function.update_self, lastN, List.map_drop, List.map_append,
          List.map_cons, List.map_nil, hthread]
        have hlen : (s.events k ++ [(⟨s.eventNumber k + 1, body⟩ : Event)]).length =
            (CursorLog.kept 200 (s.eventNumber k) ++ [s.eventNumber k + 1]).length := by
          rw [← hthread]
          simp
        rw [hlen]
        exact CursorLog.drop_kept 200 (s.eventNumber k)
      · simp only [Session.cursors, Function.update_of_ne hk]
        exact h k
    · intro k
      by_cases hk : k = thread
      · subst hk
        simp only [Function.update_self]
        omega
      · simp only [Function.update_of_ne hk]
        exact le_refl _
  · exact .of_eq rfl rfl

theorem Emits.numberedStep {s : Session} {thread : Key} {bodies : List EventBody} {t : Session}
    (h : Emits s thread bodies t) : NumberedStep s t := by
  induction h with
  | refl => exact .of_eq rfl rfl
  | frame h hthreads hevents hnumber ih => exact ih.trans (.of_eq hevents hnumber)
  | emit h body ih => exact ih.trans (numberedStep_emit _ thread body)

/-- **No deed breaks the numbering, and the numbers only grow.** -/
theorem numberedStep_after (host : Host) (d : Deed) (b : Bridge) :
    NumberedStep b.session (b.after host d).session := by
  cases d with
  | notify message accepts =>
    obtain ⟨thread, bodies, hemits⟩ := emits_recordNotification message accepts b.session
    exact hemits.numberedStep
  | request env before message =>
    obtain ⟨thread, bodies, hemits⟩ := emits_handleServerRequest host env before message b
    exact hemits.numberedStep
  | register id =>
    simp only [Bridge.after]
    rcases addThread_cases b.session id with hsame | ⟨k, named, -, hadded⟩
    · rw [hsame]
      exact .of_eq rfl rfl
    · rw [hadded]
      exact .of_eq rfl rfl
  | restart => exact .of_eq rfl rfl
  | forget => exact .of_eq rfl rfl

/-! ### Polls -/

/-- The bridge, with what a client of a thread asked and got. -/
structure Polled where
  bridge : Bridge
  polls : List CursorLog.Poll

inductive PollMove
  | deed (d : Deed)
  | poll

/-- A poll passes the last cursor received; one that raises tells the client nothing. -/
def pollStep (host : Host) (thread : Key) (move : PollMove) (p : Polled) : Option Polled :=
  match move with
  | .deed d => some { p with bridge := p.bridge.after host d }
  | .poll =>
    let after := CursorLog.lastReceived p.polls
    match p.bridge.session.eventsAfter thread after with
    | none => some p
    | some events =>
      some { p with polls := p.polls ++
        [{ after := after, count := p.bridge.session.eventNumber thread,
           cursors := events.map Event.cursor }] }

/-- The log of a thread, with what its client asked and got. -/
def Polled.feed (p : Polled) (thread : Key) : CursorLog.Feed :=
  { count := p.bridge.session.eventNumber thread, polls := p.polls }

theorem cursors_eventsAfter {s : Session} (h : Numbered s) {thread : Key} {after : ℕ}
    {events : List Event} (hevents : s.eventsAfter thread after = some events) :
    events.map Event.cursor = CursorLog.page 200 100 (s.eventNumber thread) after := by
  unfold Session.eventsAfter at hevents
  split at hevents
  · cases hevents
    have hcursors : (s.events thread).map Event.cursor = _ := h thread
    rw [CursorLog.page, ← hcursors, List.filter_map, List.map_take]
    congr 2
    refine List.filter_congr ?_
    intro e _
    simp only [Function.comp_apply, Nat.cast_lt]
  · cases hevents

theorem feed_poll {host : Host} {thread : Key} {p p' : Polled} (h : Numbered p.bridge.session)
    (hstep : pollStep host thread .poll p = some p') :
    p'.bridge = p.bridge ∧
      (p'.feed thread = p.feed thread ∨ p'.feed thread = (p.feed thread).poll 200 100) := by
  simp only [pollStep] at hstep
  split at hstep
  · cases hstep
    exact ⟨rfl, .inl rfl⟩
  · rename_i events hevents
    cases hstep
    refine ⟨rfl, .inr ?_⟩
    simp only [Polled.feed, CursorLog.Feed.poll, cursors_eventsAfter h hevents]

theorem faithful_pollStep {host : Host} {thread : Key} {move : PollMove} {p p' : Polled}
    (h : Numbered p.bridge.session ∧ CursorLog.Faithful 200 100 (p.feed thread))
    (hstep : pollStep host thread move p = some p') :
    Numbered p'.bridge.session ∧ CursorLog.Faithful 200 100 (p'.feed thread) := by
  obtain ⟨hnumbered, hfaithful⟩ := h
  cases move with
  | deed d =>
    cases hstep
    have hdeed := numberedStep_after host d p.bridge
    exact ⟨hdeed.numbered hnumbered, hfaithful.mono (hdeed.grows thread)⟩
  | poll =>
    obtain ⟨hbridge, hfeed⟩ := feed_poll hnumbered hstep
    refine ⟨hbridge ▸ hnumbered, ?_⟩
    rcases hfeed with hsame | hpoll
    · exact hsame ▸ hfaithful
    · exact hpoll ▸ hfaithful.poll

/-- **In every interleaving of deeds and polls, the client of a thread gets consecutive numbers in
pages of at most 100, in increasing order, and skips one only if 200 later events of the thread
followed it by then.** -/
theorem polling_faithful (host : Host) (thread : Key) (w : World) (runs : List AgentRun)
    (moves : List PollMove) (p : Polled)
    (hrun : Runs.run (pollStep host thread) moves ⟨Bridge.initial w runs, []⟩ = some p) :
    CursorLog.Faithful 200 100 (p.feed thread) := by
  refine (Runs.run_invariant
    (P := fun p => Numbered p.bridge.session ∧ CursorLog.Faithful 200 100 (p.feed thread))
    (fun p move p' h _ hstep => faithful_pollStep h hstep) moves ⟨?_, ?_⟩
    (Runs.disciplined_true (pollStep host thread) moves _) hrun).2
  · intro k
    simp [Session.cursors, Bridge.initial, Session.empty, CursorLog.kept]
  · exact CursorLog.faithful_nil 200 100 0

/-- Two turns are completed and polled, then a third. -/
def threeTurns : List PollMove :=
  [.deed (.register (.text "t1")), .deed (.notify (turnMessage "t1" "a" []) true),
    .deed (.notify (turnMessage "t1" "b" []) true), .poll,
    .deed (.notify (turnMessage "t1" "c" []) true), .poll]

theorem polling_faithful_threeTurns :
    ∃ p, Runs.run (pollStep weekHost (.str (Str.ofString "t1"))) threeTurns
        ⟨Bridge.initial emptyWorld [], []⟩ = some p ∧
      p.polls.map CursorLog.Poll.cursors = [[1, 2], [3]] ∧
      CursorLog.Faithful 200 100 (p.feed (.str (Str.ofString "t1"))) := by
  have hend : (Runs.run (pollStep weekHost (.str (Str.ofString "t1"))) threeTurns
      ⟨Bridge.initial emptyWorld [], []⟩).any
        (fun p => p.polls.map CursorLog.Poll.cursors = [[1, 2], [3]]) = true := by
    decide +kernel
  obtain ⟨p, hrun, hpages⟩ := (Option.any_eq_true _ _).1 hend
  exact ⟨p, hrun, of_decide_eq_true hpages,
    polling_faithful weekHost (.str (Str.ofString "t1")) emptyWorld [] threeTurns p hrun⟩

end QuantFlow
