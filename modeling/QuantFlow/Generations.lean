/-
**Generations of the App Server.**

Each process the runtime spawns is a generation.  The coroutines of one generation reach the next
through what they share, and in general they do: a reply can go to a process that never asked, the
end of an old output can fail a new call, and a thread of a dead process can be added after a start
cleared them.  All of it needs something of the old generation to be in flight when the new one is
started, or a line that makes the reader raise.  Without these, everything in flight belongs to the
current generation, and that is the invariant here.

Main definitions:

* `orderly` — nothing of an old generation is left when a new one is started, and the
  lines that are read are well formed;
* `Unmixed` — the generations do not mix;
* `Separated` — everything in flight belongs to the current generation.

Main results:

* `separated_act` — an orderly action keeps the generations apart;
* `orderly_run_unmixed` — **in every orderly run, the generations do not mix**.
-/

import QuantFlow.AppServer
import QuantFlow.GuardedRuns

namespace QuantFlow

open Py (Json Key Str Fields)

/-! ### The discipline -/

/-- Nothing of an old generation is left when a new one is started, and the lines that are read
are well formed. -/
def orderly (s : Runtime) : Action → Bool
  | .startBegin => s.readers.isEmpty && s.tasks.isEmpty && s.calls.isEmpty
  | .readLine _ line _ => line.wellFormed
  | _ => true

/-- **The generations do not mix**: a reply goes to the process that sent the request, a call is
failed by a disconnect only if the output of the process it was written to has ended, and the
threads were returned by the process the runtime now talks to. -/
structure Unmixed (s : Runtime) : Prop where
  replies : ∀ w ∈ s.written, w.dest = w.origin
  disconnects : ∀ c ∈ s.calls, c.outcome = .disconnected → ∀ g, c.target = some g → g ∈ s.hungUp
  threads : ∀ k ∈ s.threads, ∃ g, s.process = some g ∧ (g, k) ∈ s.returned

/-! ### The invariant -/

/-- A call belongs to the current generation. -/
structure CallOk (process : Option Gen) (hungUp : List Gen) (returned : List (Gen × Key))
    (c : Call) : Prop where
  target : ∀ g, c.target = some g → process = some g
  answered : ∀ g r, c.outcome = .answered g r → process = some g ∧
    ∀ id k, threadIdOf r = some id → id.hash = some k → (g, k) ∈ returned
  disconnected : c.outcome = .disconnected → ∃ g, process = some g ∧ g ∈ hungUp

/-- Everything in flight belongs to the current generation. -/
structure Separated (s : Runtime) : Prop where
  spawning : s.phase = .spawning →
    s.readers = [] ∧ s.tasks = [] ∧ s.calls = [] ∧ s.alive = false ∧ s.threads = []
  reader : s.readers = [] ∨ ∃ g, s.process = some g ∧ s.readers = [g]
  tasks : ∀ t ∈ s.tasks, s.process = some t.origin
  calls : ∀ c ∈ s.calls, CallOk s.process s.hungUp s.returned c
  written : ∀ w ∈ s.written, w.dest = w.origin
  threads : ∀ k ∈ s.threads, ∃ g, s.process = some g ∧ (g, k) ∈ s.returned

theorem Separated.unmixed {s : Runtime} (h : Separated s) : Unmixed s := by
  refine ⟨h.written, ?_, h.threads⟩
  intro c hc hdisconnected g htarget
  obtain ⟨g', hprocess, hhung⟩ := (h.calls c hc).disconnected hdisconnected
  have hsame := (h.calls c hc).target g htarget
  rw [hprocess] at hsame
  cases hsame
  exact hhung

theorem separated_initial (w : World) (runs : List AgentRun) :
    Separated (Runtime.initial w runs) := by
  refine ⟨?_, .inl rfl, ?_, ?_, ?_, ?_⟩
  · intro hphase
    cases hphase
  · intro t ht
    cases ht
  · intro c hc
    cases hc
  · intro w hw
    cases hw
  · intro k hk
    cases hk

/-- The reader of a generation is the only one, and the generation is the current one. -/
theorem Separated.reader_eq {s : Runtime} (h : Separated s) {g : Gen} (hg : g ∈ s.readers) :
    s.process = some g ∧ s.readers = [g] := by
  rcases h.reader with hnil | ⟨g', hprocess, hone⟩
  · rw [hnil] at hg
    cases hg
  · rw [hone, List.mem_singleton] at hg
    subst hg
    exact ⟨hprocess, hone⟩

/-- No start is under way while something is in flight. -/
theorem Separated.not_spawning_of_reader {s : Runtime} (h : Separated s) {g : Gen}
    (hg : g ∈ s.readers) : s.phase ≠ .spawning := by
  intro hphase
  rw [(h.spawning hphase).1] at hg
  cases hg

theorem CallOk.mono {process : Option Gen} {hungUp hungUp' : List Gen}
    {returned returned' : List (Gen × Key)} {c : Call} (h : CallOk process hungUp returned c)
    (hhung : hungUp ⊆ hungUp') (hreturned : returned ⊆ returned') :
    CallOk process hungUp' returned' c := by
  refine ⟨h.target, ?_, ?_⟩
  · intro g r hr
    obtain ⟨hprocess, hids⟩ := h.answered g r hr
    refine ⟨hprocess, ?_⟩
    intro id k hid hk
    exact hreturned (hids id k hid hk)
  · intro hdisconnected
    obtain ⟨g, hprocess, hg⟩ := h.disconnected hdisconnected
    exact ⟨g, hprocess, hhung hg⟩

/-! ### Actions on calls -/

/-- A change of the calls that leaves none where there was none. -/
theorem Separated.withCalls {s : Runtime} (h : Separated s) {calls : List Call}
    (hok : ∀ c ∈ calls, CallOk s.process s.hungUp s.returned c)
    (hspawning : s.phase = .spawning → calls = []) : Separated { s with calls := calls } := by
  refine ⟨?_, h.reader, h.tasks, hok, h.written, h.threads⟩
  intro hphase
  obtain ⟨hreaders, htasks, -, halive, hthreads⟩ := h.spawning hphase
  exact ⟨hreaders, htasks, hspawning hphase, halive, hthreads⟩

/-- A call that was just registered belongs to any generation. -/
theorem callOk_fresh (process : Option Gen) (hungUp : List Gen) (returned : List (Gen × Key))
    (id : ℕ) (kind : CallKind) :
    CallOk process hungUp returned
      { id := id, kind := kind, target := none, outcome := .waiting } := by
  refine ⟨?_, ?_, ?_⟩
  · intro g hg
    cases hg
  · intro g r hr
    cases hr
  · intro hdisconnected
    cases hdisconnected

theorem mem_beginCall {s : Runtime} {kind : CallKind} {c : Call}
    (hc : c ∈ (s.beginCall kind).calls) :
    c ∈ s.calls ∨ c = { id := s.nextId + 1, kind := kind, target := none, outcome := .waiting } := by
  simp only [Runtime.beginCall] at hc
  split at hc
  · rcases List.mem_append.1 hc with hold | hnew
    · exact .inl hold
    · exact .inr (List.mem_singleton.1 hnew)
  · exact .inl hc

theorem separated_beginCall {s : Runtime} (h : Separated s) (kind : CallKind) :
    Separated (s.beginCall kind) := by
  refine ⟨?_, h.reader, h.tasks, ?_, h.written, h.threads⟩
  · -- while a process is spawned the old one is dead, and the call is dropped at once
    intro hphase
    obtain ⟨hreaders, htasks, hcalls, halive, hthreads⟩ := h.spawning hphase
    refine ⟨hreaders, htasks, ?_, halive, hthreads⟩
    simp only [Runtime.beginCall, halive, Bool.false_eq_true, if_false]
    exact hcalls
  · intro c hc
    rcases mem_beginCall hc with hold | rfl
    · exact h.calls c hold
    · exact callOk_fresh _ _ _ _ _

theorem separated_updateCall {s : Runtime} (h : Separated s) (id : ℕ) (f : Call → Call)
    (hf : ∀ c ∈ s.calls, CallOk s.process s.hungUp s.returned (f c)) :
    Separated (s.updateCall id f) := by
  refine h.withCalls ?_ ?_
  · intro c hc
    obtain ⟨c', hc', rfl⟩ := List.mem_map.1 hc
    split
    · exact hf c' hc'
    · exact h.calls c' hc'
  · intro hphase
    rw [(h.spawning hphase).2.2.1]
    rfl

theorem separated_popCall {s : Runtime} (h : Separated s) (id : ℕ) : Separated (s.popCall id) := by
  refine h.withCalls ?_ ?_
  · intro c hc
    exact h.calls c (List.mem_filter.1 hc).1
  · intro hphase
    rw [(h.spawning hphase).2.2.1]
    rfl

/-- A new session with the same threads, or with threads of the current generation. -/
theorem Separated.withSession {s : Runtime} (h : Separated s) {session : Session}
    (hthreads : ∀ k ∈ session.threads, ∃ g, s.process = some g ∧ (g, k) ∈ s.returned)
    (hspawning : s.phase = .spawning → session.threads = []) :
    Separated (s.withSession session) := by
  refine ⟨?_, h.reader, h.tasks, h.calls, h.written, hthreads⟩
  intro hphase
  obtain ⟨hreaders, htasks, hcalls, halive, -⟩ := h.spawning hphase
  exact ⟨hreaders, htasks, hcalls, halive, hspawning hphase⟩

/-- The thread a call adds was returned by the current generation. -/
theorem separated_endCall {s : Runtime} (h : Separated s) {c : Call} (hc : c ∈ s.calls) :
    Separated (s.endCall c) := by
  have hpop := separated_popCall h c.id
  unfold Runtime.endCall
  simp only
  split
  · rename_i g result hkind houtcome
    split
    · exact hpop
    · rename_i id hid
      obtain ⟨hprocess, hids⟩ := (h.calls c hc).answered g result houtcome
      refine hpop.withSession ?_ ?_
      · intro k hk
        rcases mem_threads_addThread hk with hold | hnew
        · exact h.threads k hold
        · exact ⟨g, hprocess, hids id k hid hnew⟩
      · intro hphase
        have hnone := (h.spawning hphase).2.2.1
        rw [hnone] at hc
        cases hc
  · exact hpop

/-- The end of the output of the current generation fails calls of that generation. -/
theorem separated_stopReader {s : Runtime} (h : Separated s) {g : Gen} (hg : g ∈ s.readers)
    (hhung : g ∈ s.hungUp) : Separated (s.stopReader g) := by
  obtain ⟨hprocess, hone⟩ := h.reader_eq hg
  have hnot := h.not_spawning_of_reader hg
  refine ⟨fun hphase => absurd hphase hnot, .inl ?_, h.tasks, ?_, h.written, h.threads⟩
  · show s.readers.erase g = []
    rw [hone]
    simp
  · intro c hc
    obtain ⟨c', hc', rfl⟩ := List.mem_map.1 hc
    split
    · refine ⟨(h.calls c' hc').target, ?_, ?_⟩
      · intro g' r hr
        cases hr
      · intro _
        exact ⟨g, hprocess, hhung⟩
    · exact h.calls c' hc'

/-! ### Lines -/

/-- A response answers a call of the current generation, and records the thread it returns. -/
theorem separated_respond {s s' : Runtime} (h : Separated s) {g : Gen} {id : Key} {message : Fields}
    (hprocess : s.process = some g) (hrespond : s.respond g id message = some s') :
    Separated s' := by
  unfold Runtime.respond at hrespond
  split at hrespond
  · cases hrespond
    exact h
  · rename_i c hfind
    split at hrespond
    · cases hrespond
      refine separated_updateCall h _ _ ?_
      intro c' hc'
      refine ⟨(h.calls c' hc').target, ?_, ?_⟩
      · intro g' r hr
        cases hr
      · intro hdisconnected
        cases hdisconnected
    · cases hrespond
    · cases hrespond
      set result := (Fields.find message "result").getD (.obj []) with hresult
      set fresh := (((threadIdOf result).bind Json.hash).map (Prod.mk g)).toList with hfresh
      -- first the ids are recorded, then the call is answered
      have hrecorded : Separated { s with returned := fresh ++ s.returned } := by
        refine ⟨h.spawning, h.reader, h.tasks, ?_, h.written, ?_⟩
        · intro c' hc'
          exact (h.calls c' hc').mono (List.Subset.refl _) (List.subset_append_right _ _)
        · intro k hk
          obtain ⟨g', hg', hmem⟩ := h.threads k hk
          exact ⟨g', hg', List.mem_append_right _ hmem⟩
      refine separated_updateCall hrecorded c.id (fun c => { c with outcome := .answered g result })
        ?_
      intro c' hc'
      refine ⟨(h.calls c' hc').target, ?_, ?_⟩
      · intro g' r hr
        cases hr
        refine ⟨hprocess, ?_⟩
        intro id' k hid hk
        refine List.mem_append_left _ ?_
        rw [hfresh, hid, Option.bind_some, hk]
        exact List.mem_singleton.2 rfl
      · intro hdisconnected
        cases hdisconnected

theorem separated_receive {s : Runtime} (h : Separated s) {g : Gen} (hg : g ∈ s.readers)
    (line : Line) (accepts : Bool) : Separated (s.receive g line accepts).1 := by
  obtain ⟨hprocess, -⟩ := h.reader_eq hg
  have hnot := h.not_spawning_of_reader hg
  unfold Runtime.receive
  cases classify line with
  | ignored => exact h
  | raises => exact h
  | request message =>
    refine ⟨fun hphase => absurd hphase hnot, h.reader, ?_, h.calls, h.written, h.threads⟩
    intro t ht
    rcases List.mem_append.1 ht with hold | hnew
    · exact h.tasks t hold
    · rw [List.mem_singleton.1 hnew]
      exact hprocess
  | response id message =>
    simp only
    cases hr : s.respond g id message with
    | none => exact h
    | some s' => exact separated_respond h hprocess hr
  | notification message =>
    refine ⟨fun hphase => absurd hphase hnot, h.reader, h.tasks, h.calls, h.written, ?_⟩
    intro k hk
    have hmem : k ∈ (recordNotification message accepts s.bridge.session).session.threads := hk
    rw [threads_recordNotification] at hmem
    exact h.threads k hmem

/-- The reader of the current generation stays with it. -/
theorem separated_nextLine {s : Runtime} (h : Separated s) {g : Gen} (hg : g ∈ s.readers) :
    Separated (s.nextLine g) := by
  obtain ⟨hprocess, hone⟩ := h.reader_eq hg
  have hnot := h.not_spawning_of_reader hg
  unfold Runtime.nextLine
  split
  · exact h
  · rename_i current hcurrent
    rw [hprocess] at hcurrent
    cases hcurrent
    refine ⟨fun hphase => absurd hphase hnot, .inr ⟨g, hprocess, ?_⟩, h.tasks, h.calls, h.written,
      h.threads⟩
    show s.readers.erase g ++ [g] = [g]
    rw [hone, List.erase_cons_head]
    rfl

/-! ### Starts and tasks -/

theorem separated_startBegin {s : Runtime} (h : Separated s) (halive : s.alive = false)
    (hreaders : s.readers = []) (htasks : s.tasks = []) (hcalls : s.calls = []) :
    Separated { s.withSession s.bridge.session.restart with phase := .spawning } := by
  refine ⟨?_, h.reader, h.tasks, h.calls, h.written, ?_⟩
  · intro _
    exact ⟨hreaders, htasks, hcalls, halive, rfl⟩
  · intro k hk
    cases hk

theorem separated_spawn {s : Runtime} (h : Separated s) (hphase : s.phase = .spawning) (g : Gen)
    (n call : ℕ) :
    Separated { Runtime.beginCall { s with process := some g, spawned := n, readers := s.readers ++ [g] }
      .initializeServer with phase := .handshaking call } := by
  obtain ⟨hreaders, htasks, hcalls, -, hthreads⟩ := h.spawning hphase
  refine ⟨?_, .inr ⟨g, rfl, ?_⟩, ?_, ?_, h.written, ?_⟩
  · intro hcontra
    cases hcontra
  · show s.readers ++ [g] = [g]
    rw [hreaders]
    rfl
  · intro t ht
    have hnone : t ∈ s.tasks := ht
    rw [htasks] at hnone
    cases hnone
  · intro c hc
    rcases mem_beginCall hc with hold | rfl
    · have hnone : c ∈ s.calls := hold
      rw [hcalls] at hnone
      cases hnone
    · exact callOk_fresh _ _ _ _ _
  · intro k hk
    have hnone : k ∈ s.threads := hk
    rw [hthreads] at hnone
    cases hnone

/-- A change of the tasks to tasks of the current generation. -/
theorem Separated.withTasks {s : Runtime} (h : Separated s) {tasks : List Task}
    (hok : ∀ t ∈ tasks, s.process = some t.origin) (hnot : s.phase ≠ .spawning) :
    Separated { s with tasks := tasks } :=
  ⟨fun hphase => absurd hphase hnot, h.reader, hok, h.calls, h.written, h.threads⟩

theorem Separated.not_spawning_of_task {s : Runtime} (h : Separated s) {i : ℕ} {t : Task}
    (ht : s.tasks[i]? = some t) : s.phase ≠ .spawning := by
  intro hphase
  rw [(h.spawning hphase).2.1] at ht
  cases ht

theorem separated_setStage {s : Runtime} (h : Separated s) {i : ℕ} {t : Task}
    (ht : s.tasks[i]? = some t) (stage : Stage) :
    Separated { s with tasks := s.tasks.set i ⟨t.origin, t.message, stage⟩ } := by
  refine h.withTasks ?_ (h.not_spawning_of_task ht)
  intro t' ht'
  rcases List.mem_or_eq_of_mem_set ht' with hold | rfl
  · exact h.tasks t' hold
  · exact h.tasks t (List.mem_of_getElem? ht)

theorem separated_dropTask {s : Runtime} (h : Separated s) {i : ℕ} {t : Task}
    (ht : s.tasks[i]? = some t) : Separated { s with tasks := s.tasks.eraseIdx i } := by
  refine h.withTasks ?_ (h.not_spawning_of_task ht)
  intro t' ht'
  exact h.tasks t' (List.mem_of_mem_eraseIdx ht')

/-- The reply of a task goes to the process its request came from. -/
theorem separated_taskWrite {s : Runtime} (h : Separated s) {i : ℕ} {t : Task} {g : Gen}
    (ht : s.tasks[i]? = some t) (hprocess : s.process = some g) (reply : Reply) :
    Separated { s with
      tasks := s.tasks.eraseIdx i
      written := s.written ++ [{ dest := g, origin := t.origin, reply := reply }] } := by
  have hdrop := separated_dropTask h ht
  refine ⟨hdrop.spawning, hdrop.reader, hdrop.tasks, hdrop.calls, ?_, hdrop.threads⟩
  intro w hw
  rcases List.mem_append.1 hw with hold | hnew
  · exact h.written w hold
  · rw [List.mem_singleton.1 hnew]
    have horigin := h.tasks t (List.mem_of_getElem? ht)
    rw [hprocess] at horigin
    exact Option.some.inj horigin

/-- The end of a tool changes the bridge, but not its threads. -/
theorem Separated.withBridge {s : Runtime} (h : Separated s) {bridge : Bridge}
    (hsame : bridge.session.threads = s.bridge.session.threads) :
    Separated { s with bridge := bridge } := by
  refine ⟨?_, h.reader, h.tasks, h.calls, h.written, ?_⟩
  · intro hphase
    obtain ⟨hreaders, htasks, hcalls, halive, hthreads⟩ := h.spawning hphase
    exact ⟨hreaders, htasks, hcalls, halive, hsame.trans hthreads⟩
  · intro k hk
    have hmem : k ∈ bridge.session.threads := hk
    rw [hsame] at hmem
    exact h.threads k hmem

/-- A process that exits is no longer alive, and changes nothing else. -/
theorem separated_exit {s : Runtime} (h : Separated s) (g : Gen) :
    Separated { s with exited := g :: s.exited } := by
  refine ⟨?_, h.reader, h.tasks, h.calls, h.written, h.threads⟩
  intro hphase
  obtain ⟨hreaders, htasks, hcalls, halive, hthreads⟩ := h.spawning hphase
  refine ⟨hreaders, htasks, hcalls, ?_, hthreads⟩
  unfold Runtime.alive at halive ⊢
  cases hp : s.process with
  | none => rfl
  | some g' =>
    simp only [hp, decide_eq_false_iff_not, not_not] at halive ⊢
    exact List.mem_cons_of_mem g halive

theorem separated_hangUp {s : Runtime} (h : Separated s) (g : Gen) :
    Separated { s with hungUp := g :: s.hungUp } := by
  refine ⟨h.spawning, h.reader, h.tasks, ?_, h.written, h.threads⟩
  intro c hc
  exact (h.calls c hc).mono (List.subset_cons_self _ _) (List.Subset.refl _)

/-- A start that ends, with a process or without, leaves what it has. -/
theorem separated_idle {s : Runtime} (h : Separated s) : Separated { s with phase := .idle } := by
  refine ⟨?_, h.reader, h.tasks, h.calls, h.written, h.threads⟩
  intro hphase
  cases hphase

/-! ### Runs -/

/-- **An orderly action keeps the generations apart.** -/
theorem separated_act (host : Host) (s : Runtime) (a : Action) (s' : Runtime) (h : Separated s)
    (horderly : orderly s a = true) (hact : act host a s = some s') : Separated s' := by
  cases acts_of_act hact with
  | startBegin hphase halive =>
    simp only [orderly, Bool.and_eq_true, List.isEmpty_iff] at horderly
    obtain ⟨⟨hreaders, htasks⟩, hcalls⟩ := horderly
    exact separated_startBegin h halive hreaders htasks hcalls
  | spawn hphase => exact separated_spawn h hphase _ _ _
  | spawnFail hphase => exact separated_idle h
  | startEnd hphase => exact separated_idle h
  | exit hg => exact separated_exit h _
  | hangUp hg => exact separated_hangUp h _
  | rpcBegin hkind => exact separated_beginCall h _
  | rpcWrite hprocess =>
    refine separated_updateCall h _ _ ?_
    intro c hc
    refine ⟨?_, (h.calls c hc).answered, (h.calls c hc).disconnected⟩
    -- a call keeps the process it was first written to
    intro g' hg'
    cases ht : c.target with
    | none =>
      simp only [ht] at hg'
      cases hg'
      exact hprocess
    | some first =>
      simp only [ht] at hg'
      cases hg'
      exact (h.calls c hc).target _ ht
  | rpcEnd hfind => exact separated_endCall h (List.mem_of_find?_eq_some hfind)
  | rpcDrop => exact separated_popCall h _
  | @lineRaised g line accepts s₁ hg hreceive =>
    -- an orderly line does not raise
    have hquiet := receive_of_wellFormed s g accepts horderly
    rw [hreceive] at hquiet
    cases hquiet
  | @lineRead g line accepts s₁ hg hreceive =>
    have hseparated := separated_receive h hg line accepts
    obtain ⟨-, hreaders⟩ := frame_receive s g line accepts
    rw [hreceive] at hseparated hreaders
    rw [← hreaders] at hg
    exact separated_nextLine hseparated hg
  | readEnd hg hhung => exact separated_stopReader h hg hhung
  | @collide g htwo =>
    -- there is at most one reader
    have hmem : g ∈ s.readers := List.count_pos_iff.1 (by omega)
    rw [(h.reader_eq hmem).2] at htwo
    simp at htwo
  | taskBegin htask => exact separated_setStage h htask _
  | @taskSilent i env origin message before effects bridge htask hhandled hreplies =>
    have hbridge := h.withBridge (threads_handleServerRequest host
      { env with alive := s.alive } before message s.bridge)
    rw [hhandled] at hbridge
    exact separated_dropTask hbridge htask
  | @taskReplies i env origin message before effects bridge reply rest htask hhandled hreplies =>
    have hbridge := h.withBridge (threads_handleServerRequest host
      { env with alive := s.alive } before message s.bridge)
    rw [hhandled] at hbridge
    exact separated_setStage hbridge htask _
  | taskWrite hprocess htask => exact separated_taskWrite h htask hprocess _
  | close =>
    refine h.withSession ?_ (fun _ => rfl)
    intro k hk
    cases hk

/-- **In every orderly run, the generations do not mix.** -/
theorem orderly_run_unmixed (host : Host) (w : World) (runs : List AgentRun)
    (actions : List Action) (s : Runtime)
    (horderly : Runs.disciplined (act host) orderly actions (Runtime.initial w runs) = true)
    (hrun : Runs.run (act host) actions (Runtime.initial w runs) = some s) : Unmixed s :=
  (Runs.run_invariant (separated_act host) actions (separated_initial w runs) horderly
    hrun).unmixed

/-! A restart after a tool call, and one in the middle of it. -/

/-- The response to a call, with a result. -/
def responseLine (id : ℤ) (result : Json) : Line :=
  .value (.obj [(Str.ofString "id", .int id), (Str.ofString "result", result)])

/-- The first generation starts, creates the thread `"t1"` and asks for the history of a fund. -/
def firstGeneration : List Action :=
  [.startBegin, .spawn, .rpcWrite 1, .readLine 0 (responseLine 1 (.obj [])) true, .rpcEnd 1,
    .startEnd, .rpcBegin .threadStart, .rpcWrite 2,
    .readLine 0 (responseLine 2 (.obj [(Str.ofString "thread",
      .obj [(Str.ofString "id", .text "t1")])])) true,
    .rpcEnd 2, .readLine 0 (.value (.obj (historyCall (.text "t1")))) true, .taskBegin 0]

/-- The process dies, its output ends, and a new one is started. -/
def restart : List Action := [.exit 0, .hangUp 0, .readEnd 0, .startBegin, .spawn]

/-- The tool returns and its reply is written. -/
def toolReturns : List Action := [.taskEnd 0 weekBridgeEnv, .taskWrite 0]

theorem orderly_run_unmixed_restart :
    ∃ s, Runs.run (act weekHost) (firstGeneration ++ toolReturns ++ restart)
        (Runtime.initial emptyWorld []) = some s ∧
      s.spawned = 2 ∧ s.written.length = 1 ∧ Unmixed s := by
  have horderly : Runs.disciplined (act weekHost) orderly
      (firstGeneration ++ toolReturns ++ restart) (Runtime.initial emptyWorld []) = true := by
    decide +kernel
  have hend : (Runs.run (act weekHost) (firstGeneration ++ toolReturns ++ restart)
      (Runtime.initial emptyWorld [])).any
        (fun s => s.spawned = 2 && s.written.length = 1) = true := by
    decide +kernel
  obtain ⟨s, hrun, hs⟩ := (Option.any_eq_true _ _).1 hend
  obtain ⟨hspawned, hwritten⟩ := Bool.and_eq_true_iff.1 hs
  exact ⟨s, hrun, of_decide_eq_true hspawned, of_decide_eq_true hwritten,
    orderly_run_unmixed weekHost emptyWorld [] _ s horderly hrun⟩

/-- The tool returns to the second generation, which is sent the answer to a request it never
made. -/
theorem stale_reply_crosses :
    ∃ s, Runs.run (act weekHost) (firstGeneration ++ restart ++ toolReturns)
        (Runtime.initial emptyWorld []) = some s ∧ ¬ Unmixed s := by
  have hend : (Runs.run (act weekHost) (firstGeneration ++ restart ++ toolReturns)
      (Runtime.initial emptyWorld [])).any
        (fun s => s.written.any fun w => w.dest ≠ w.origin) = true := by
    decide +kernel
  obtain ⟨s, hrun, hs⟩ := (Option.any_eq_true _ _).1 hend
  obtain ⟨w, hw, hne⟩ := List.any_eq_true.1 hs
  refine ⟨s, hrun, ?_⟩
  intro hunmixed
  exact absurd (hunmixed.replies w hw) (of_decide_eq_true hne)

end QuantFlow
