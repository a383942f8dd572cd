/-
**Calls and their responses.**

A call registers a future under a fresh number, writes the number with its request and waits.  The
reader completes the future from the first response with that number; a future that is done, or
whose call has gone, is left alone.  At the end of the output every future that is not done fails.
Calls, timeouts, lines and the end of the output come in any order.

What happens to a call is read off one action at a time: it is new, it stays as it is, a response
settles it, or it fails with the others.  Everything else is about the past of a run.

Main definitions:

* `Pending`, `Waiting` — a number is in `_pending`, and its future is not done;
* `FirstResponse` — the outcome of a call comes from the first response with its number
  that was read while the call was pending;
* `Correlated` — calls and responses belong together, over the past of a run.

Main results:

* `callFrom_act` — what an action can do to a call;
* `run_correlated` — **in every run, calls and responses belong together**.
-/

import QuantFlow.Generations

namespace QuantFlow

open Py (Json Key Str Fields)
open Runs (Transition)

/-! ### Calls and responses -/

/-- The number is in `_pending`. -/
def Pending (s : Runtime) (id : ℕ) : Prop := ∃ c ∈ s.calls, c.id = id

/-- The number is in `_pending`, and its future is not done. -/
def Waiting (s : Runtime) (id : ℕ) : Prop := ∃ c ∈ s.calls, c.id = id ∧ c.outcome = .waiting

/-- The action reads a response whose id is the key: a number, or whatever else can be hashed. -/
def Bears (a : Action) (key : Key) : Prop :=
  ∃ g line accepts message, a = .readLine g line accepts ∧ classify line = .response key message

/-- What a response makes of a waiting call; `none` is an exception. -/
def verdict (g : Gen) (message : Fields) : Option Outcome :=
  match Fields.find message "error" with
  | some (.obj e) => some (.refused (refusal e))
  | some _ => none
  | none => some (.answered g ((Fields.find message "result").getD (.obj [])))

/-- The action reads a response with the number that has this outcome. -/
def Delivers (a : Action) (id : ℕ) (outcome : Outcome) : Prop :=
  ∃ g line accepts message, a = .readLine g line accepts ∧
    classify line = .response (.num id) message ∧ verdict g message = some outcome

/-- The action begins a call. -/
def begins : Action → Bool
  | .spawn => true
  | .rpcBegin _ => true
  | _ => false

/-- The number of the call that an action begins. -/
def begunId (x : Transition Runtime Action) : Option ℕ :=
  if begins x.action then some (x.source.nextId + 1) else none

/-- The call with the number ends: it returns, it is given up (its time is over or it could not be
written), or the process was dead when it began. -/
def Ends (x : Transition Runtime Action) (id : ℕ) : Prop :=
  (Pending x.source id ∧ (x.action = .rpcEnd id ∨ x.action = .rpcDrop id)) ∨
    ∃ kind, x.action = .rpcBegin kind ∧ x.source.alive = false ∧ id = x.source.nextId + 1

/-- The outcome of a call comes from the first response with its number that was read while the
call was pending. -/
def FirstResponse (past : List (Transition Runtime Action)) (id : ℕ) (outcome : Outcome) : Prop :=
  ∃ earlier x later, past = earlier ++ x :: later ∧ Delivers x.action id outcome ∧
    Waiting x.source id ∧ ∀ y ∈ earlier, Bears y.action (.num id) → ¬ Pending y.source id

/-- **Calls and responses belong together.**  A call returns its outcome at `rpcEnd`: the value it
was answered with, the error it was refused with, or the failure of a disconnect. -/
structure Correlated (past : List (Transition Runtime Action)) (s : Runtime) : Prop where
  distinct : (past.filterMap begunId).Nodup
  returned : ∀ earlier x later id, past = earlier ++ x :: later → x.action = .rpcEnd id →
    ∀ c ∈ x.source.calls, c.id = id →
      c.outcome = .disconnected ∨ FirstResponse earlier id c.outcome
  inert : ∀ x ∈ past, ∀ key, Bears x.action key →
    (∀ id : ℕ, key = .num id → ¬ Waiting x.source id) →
      x.target = { x.source with readers := x.target.readers }
  popped : ∀ x ∈ past, ∀ id, Ends x id → ¬ Pending s id
  disconnected : ∀ earlier x later g id, past = earlier ++ x :: later → x.action = .readEnd g →
    Waiting x.source id →
      (∃ c ∈ x.target.calls, c.id = id ∧ c.outcome = .disconnected) ∧
      ∀ y ∈ later, y.action = .rpcEnd id → ∀ c ∈ y.source.calls, c.id = id →
        c.outcome = .disconnected

/-! ### What an action does to a call -/

theorem waiting_of_find {s : Runtime} {key : Key} {c : Call}
    (h : s.calls.find? (fun c => Key.num c.id = key && c.outcome.isWaiting) = some c) :
    c ∈ s.calls ∧ key = .num c.id ∧ c.outcome = .waiting := by
  have hmem := List.mem_of_find?_eq_some h
  have hpred := List.find?_some h
  simp only [Bool.and_eq_true, decide_eq_true_eq] at hpred
  refine ⟨hmem, hpred.1.symm, ?_⟩
  cases ho : c.outcome with
  | waiting => rfl
  | _ =>
    rw [ho] at hpred
    cases hpred.2

theorem not_waiting_of_find {s : Runtime} {id : ℕ}
    (h : s.calls.find? (fun c => Key.num c.id = Key.num id && c.outcome.isWaiting) = none) :
    ¬ Waiting s id := by
  rintro ⟨c, hc, rfl, hwaiting⟩
  have hnone := List.find?_eq_none.1 h c hc
  simp [hwaiting, Outcome.isWaiting] at hnone

/-- Where a call comes from, after an action. -/
inductive CallFrom (s : Runtime) (a : Action) (c' : Call) : Prop
  | fresh (hbegins : begins a = true) (hid : c'.id = s.nextId + 1) (hnew : c'.outcome = .waiting)
  | kept (c : Call) (hc : c ∈ s.calls) (hid : c.id = c'.id) (hsame : c'.outcome = c.outcome)
      (hquiet : c.outcome = .waiting → ¬ Bears a (.num c.id))
  | settled (c : Call) (hc : c ∈ s.calls) (hid : c.id = c'.id) (hwaiting : Waiting s c'.id)
      (hdelivers : Delivers a c'.id c'.outcome)
  | failed (c : Call) (hc : c ∈ s.calls) (hid : c.id = c'.id) (hwaiting : c.outcome = .waiting)
      (hfailed : c'.outcome = .disconnected)

theorem CallFrom.of_calls_eq {s s' : Runtime} {a : Action} (hcalls : s'.calls = s.calls)
    (hquiet : ∀ key, ¬ Bears a key) {c' : Call} (hc' : c' ∈ s'.calls) : CallFrom s a c' :=
  .kept c' (hcalls ▸ hc') rfl rfl fun _ => hquiet (.num c'.id)

theorem not_bears {a : Action} (h : ∀ g line accepts, a ≠ .readLine g line accepts) (key : Key) :
    ¬ Bears a key := by
  rintro ⟨g, line, accepts, message, rfl, -⟩
  exact h g line accepts rfl

/-- A line that makes the reader raise changes no call, and neither does one that is no
response. -/
theorem calls_receive (s : Runtime) (g : Gen) (line : Line) (accepts : Bool)
    (h : (s.receive g line accepts).2 = true ∨ ∀ key message, classify line ≠ .response key message) :
    (s.receive g line accepts).1.calls = s.calls := by
  unfold Runtime.receive at h ⊢
  cases hc : classify line with
  | response key message =>
    rw [hc] at h
    simp only at h ⊢
    cases hr : s.respond g key message with
    | none => rfl
    | some s' =>
      rw [hr] at h
      rcases h with hraised | hnot
      · cases hraised
      · exact absurd rfl (hnot key message)
  | _ => rfl

theorem callFrom_stopReader {s s₁ : Runtime} {a : Action} (hcalls : s₁.calls = s.calls) (g : Gen)
    {c' : Call} (hc' : c' ∈ (s₁.stopReader g).calls) : CallFrom s a c' := by
  obtain ⟨c, hc, rfl⟩ := List.mem_map.1 hc'
  have hmem : c ∈ s.calls := hcalls ▸ hc
  cases ho : c.outcome with
  | waiting =>
    simp only [Outcome.isWaiting, if_true]
    exact .failed c hmem rfl ho rfl
  | _ =>
    simp only [Outcome.isWaiting, Bool.false_eq_true, if_false]
    refine .kept c hmem rfl rfl ?_
    intro hwaiting
    rw [ho] at hwaiting
    cases hwaiting

theorem callFrom_respond {s s' : Runtime} {g : Gen} {line : Line} {accepts : Bool} {key : Key}
    {message : Fields} (hclass : classify line = .response key message)
    (hrespond : s.respond g key message = some s') {c' : Call} (hc' : c' ∈ s'.calls) :
    CallFrom s (.readLine g line accepts) c' := by
  have hbears : ∀ key', Bears (.readLine g line accepts) key' → key = key' := by
    rintro key' ⟨g', line', accepts', message', ha, hclass'⟩
    cases ha
    rw [hclass] at hclass'
    cases hclass'
    rfl
  unfold Runtime.respond at hrespond
  split at hrespond
  · rename_i hfind
    cases hrespond
    refine .kept c' hc' rfl rfl ?_
    intro hwaiting hb
    rw [hbears _ hb] at hfind
    exact not_waiting_of_find hfind ⟨c', hc', rfl, hwaiting⟩
  · rename_i c₀ hfind
    obtain ⟨hc₀, rfl, hwaiting₀⟩ := waiting_of_find hfind
    -- the calls with the number of the one found are settled, the others stay
    have hupdate : ∀ outcome, verdict g message = some outcome → ∀ c' ∈ s.calls.map (fun c =>
        if c.id = c₀.id then { c with outcome := outcome } else c),
        CallFrom s (.readLine g line accepts) c' := by
      intro outcome hverdict c' hc'
      obtain ⟨c, hc, rfl⟩ := List.mem_map.1 hc'
      split
      · rename_i hid
        refine .settled c hc rfl ⟨c₀, hc₀, hid.symm, hwaiting₀⟩ ?_
        refine ⟨g, line, accepts, message, rfl, ?_, hverdict⟩
        rw [hclass, ← hid]
      · rename_i hid
        refine .kept c hc rfl rfl ?_
        intro _ hb
        have hkey := hbears _ hb
        rw [Key.num.injEq, Nat.cast_inj] at hkey
        exact hid hkey.symm
    split at hrespond
    · rename_i hfield
      cases hrespond
      exact hupdate _ (by simp only [verdict, hfield]) c' hc'
    · cases hrespond
    · rename_i hfield
      cases hrespond
      exact hupdate _ (by simp only [verdict, hfield]) c' hc'

/-- What a line that does not raise does to a call. -/
theorem callFrom_receive {s s₁ : Runtime} {g : Gen} {line : Line} {accepts : Bool}
    (hreceive : s.receive g line accepts = (s₁, false)) {c' : Call} (hc' : c' ∈ s₁.calls) :
    CallFrom s (.readLine g line accepts) c' := by
  have hcalls := calls_receive s g line accepts
  rw [hreceive] at hcalls
  cases hclass : classify line with
  | response key message =>
    simp only [Runtime.receive, hclass] at hreceive
    cases hrespond : s.respond g key message with
    | none =>
      rw [hrespond] at hreceive
      cases hreceive
    | some s₂ =>
      rw [hrespond] at hreceive
      cases hreceive
      exact callFrom_respond hclass hrespond hc'
  | _ =>
    refine .of_calls_eq (hcalls (.inr ?_)) ?_ hc'
    · intro key message h
      rw [hclass] at h
      cases h
    · rintro key ⟨g', line', accepts', message', ha, h⟩
      cases ha
      rw [hclass] at h
      cases h

theorem calls_nextLine (s : Runtime) (g : Gen) : (s.nextLine g).calls = s.calls := by
  unfold Runtime.nextLine
  split <;> rfl

/-- The actions that can change the calls. -/
def touchesCalls : Action → Bool
  | .spawn => true
  | .rpcBegin _ => true
  | .rpcWrite _ => true
  | .rpcEnd _ => true
  | .rpcDrop _ => true
  | .readLine _ _ _ => true
  | .readEnd _ => true
  | .collide _ => true
  | _ => false

/-- Starts, exits and tasks leave the calls and their counter alone. -/
theorem frame_calls {host : Host} {a : Action} {s s' : Runtime} (htouches : touchesCalls a = false)
    (hact : act host a s = some s') : s'.calls = s.calls ∧ s'.nextId = s.nextId := by
  cases acts_of_act hact with
  | spawn hphase => cases htouches
  | rpcBegin hkind => cases htouches
  | rpcWrite hprocess => cases htouches
  | rpcEnd hfind => cases htouches
  | rpcDrop => cases htouches
  | lineRaised hg hreceive => cases htouches
  | lineRead hg hreceive => cases htouches
  | readEnd hg hhung => cases htouches
  | collide htwo => cases htouches
  | _ => exact ⟨rfl, rfl⟩

theorem calls_endCall (s : Runtime) (c : Call) : (s.endCall c).calls = (s.popCall c.id).calls := by
  unfold Runtime.endCall
  simp only
  split
  · split <;> rfl
  · rfl

/-- The call that returns is the one with the number. -/
theorem rpcEnd_eq_some {host : Host} {id : ℕ} {s s' : Runtime}
    (hact : act host (.rpcEnd id) s = some s') : s'.calls = (s.popCall id).calls := by
  cases acts_of_act hact with
  | rpcEnd hfind =>
    have hpred := List.find?_some hfind
    simp only [Bool.and_eq_true, decide_eq_true_eq] at hpred
    rw [calls_endCall, hpred.1.1]

theorem callFrom_beginCall {s s₁ : Runtime} {a : Action} (hcalls : s₁.calls = s.calls)
    (hnext : s₁.nextId = s.nextId) (kind : CallKind) (ha : begins a = true)
    (hquiet : ∀ key, ¬ Bears a key) {c' : Call} (hc' : c' ∈ (s₁.beginCall kind).calls) :
    CallFrom s a c' := by
  simp only [Runtime.beginCall, hcalls, hnext] at hc'
  split at hc'
  · rcases List.mem_append.1 hc' with hold | hnew
    · exact .kept c' hold rfl rfl fun _ => hquiet (.num c'.id)
    · rw [List.mem_singleton.1 hnew]
      exact .fresh ha rfl rfl
  · exact .kept c' hc' rfl rfl fun _ => hquiet (.num c'.id)

/-- **What an action can do to a call.** -/
theorem callFrom_act {host : Host} {a : Action} {s s' : Runtime} (hact : act host a s = some s')
    {c' : Call} (hc' : c' ∈ s'.calls) : CallFrom s a c' := by
  cases acts_of_act hact with
  | spawn hphase =>
    refine callFrom_beginCall ?_ ?_ .initializeServer rfl (not_bears (by simp)) hc'
    · rfl
    · rfl
  | rpcBegin hkind => exact callFrom_beginCall rfl rfl _ rfl (not_bears (by simp)) hc'
  | rpcWrite hprocess =>
    obtain ⟨c, hc, rfl⟩ := List.mem_map.1 hc'
    refine .kept c hc ?_ ?_ fun _ => not_bears (by simp) (.num c.id)
    · split <;> rfl
    · split <;> rfl
  | rpcEnd hfind =>
    rw [rpcEnd_eq_some hact] at hc'
    exact .kept c' (List.mem_filter.1 hc').1 rfl rfl fun _ => not_bears (by simp) (.num c'.id)
  | rpcDrop => exact .kept c' (List.mem_filter.1 hc').1 rfl rfl fun _ => not_bears (by simp) (.num c'.id)
  | @lineRaised g line accepts s₁ hg hreceive =>
    have hcalls := calls_receive s g line accepts
    rw [hreceive] at hcalls
    exact callFrom_stopReader (hcalls (.inl rfl)) g hc'
  | lineRead hg hreceive =>
    rw [calls_nextLine] at hc'
    exact callFrom_receive hreceive hc'
  | readEnd hg hhung | collide htwo => exact callFrom_stopReader rfl _ hc'
  | _ => exact .of_calls_eq (frame_calls rfl hact).1 (not_bears (by simp)) hc'

/-! ### The numbers of the calls -/

/-- The numbers in `_pending`. -/
def Runtime.ids (s : Runtime) : List ℕ := s.calls.map Call.id

theorem pending_iff_mem_ids {s : Runtime} {id : ℕ} : Pending s id ↔ id ∈ s.ids := by
  simp only [Pending, Runtime.ids, List.mem_map]

theorem ids_map (s : Runtime) (f : Call → Call) (hf : ∀ c, (f c).id = c.id) :
    (s.calls.map f).map Call.id = s.ids := by
  rw [List.map_map]
  exact List.map_congr_left fun c _ => hf c

theorem ids_updateCall (s : Runtime) (id : ℕ) (f : Call → Call) (hf : ∀ c, (f c).id = c.id) :
    (s.updateCall id f).ids = s.ids := by
  refine ids_map s _ fun c => ?_
  split
  · exact hf c
  · rfl

theorem ids_stopReader (s : Runtime) (g : Gen) : (s.stopReader g).ids = s.ids := by
  refine ids_map s _ fun c => ?_
  split <;> rfl

theorem ids_popCall (s : Runtime) (id : ℕ) : (s.popCall id).ids = s.ids.filter (· ≠ id) := by
  simp only [Runtime.ids, Runtime.popCall, List.filter_map]
  rfl

/-- A line changes no number and begins no call. -/
theorem ids_receive (s : Runtime) (g : Gen) (line : Line) (accepts : Bool) :
    (s.receive g line accepts).1.ids = s.ids ∧
      (s.receive g line accepts).1.nextId = s.nextId := by
  unfold Runtime.receive
  cases classify line with
  | response key message =>
    simp only
    cases hr : s.respond g key message with
    | none => exact ⟨rfl, rfl⟩
    | some s' =>
      unfold Runtime.respond at hr
      split at hr
      · cases hr
        exact ⟨rfl, rfl⟩
      · split at hr
        · cases hr
          exact ⟨ids_updateCall s _ _ fun _ => rfl, rfl⟩
        · cases hr
        · cases hr
          exact ⟨ids_updateCall s _ _ fun _ => rfl, rfl⟩
  | _ => exact ⟨rfl, rfl⟩

/-- The counter stays, and no number is added. -/
structure NumbersKept (s s' : Runtime) : Prop where
  nextId : s'.nextId = s.nextId
  ids : s'.ids.Sublist s.ids

theorem NumbersKept.of_eq {s s' : Runtime} (hnext : s'.nextId = s.nextId) (hids : s'.ids = s.ids) :
    NumbersKept s s' := by
  refine ⟨hnext, ?_⟩
  rw [hids]

theorem numbersKept_popCall (s : Runtime) (id : ℕ) : NumbersKept s (s.popCall id) := by
  refine ⟨rfl, ?_⟩
  rw [ids_popCall]
  exact List.filter_sublist

theorem numbersKept_endCall (s : Runtime) (c : Call) : NumbersKept s (s.endCall c) := by
  have hids : (s.endCall c).ids = (s.popCall c.id).ids := by
    rw [Runtime.ids, calls_endCall]
    rfl
  refine ⟨?_, hids ▸ (numbersKept_popCall s c.id).ids⟩
  unfold Runtime.endCall
  simp only
  split
  · split <;> rfl
  · rfl

theorem numbersKept_nextLine (s : Runtime) (g : Gen) : NumbersKept s (s.nextLine g) := by
  unfold Runtime.nextLine
  split <;> exact .of_eq rfl rfl

/-- Only the beginning of a call gives out a number. -/
theorem numbersKept_act {host : Host} {a : Action} {s s' : Runtime} (hnot : begins a = false)
    (hact : act host a s = some s') : NumbersKept s s' := by
  cases acts_of_act hact with
  | spawn hphase => cases hnot
  | rpcBegin hkind => cases hnot
  | rpcWrite hprocess => exact .of_eq rfl (ids_updateCall s _ _ fun _ => rfl)
  | rpcEnd hfind => exact numbersKept_endCall s _
  | rpcDrop => exact numbersKept_popCall s _
  | @lineRaised g line accepts s₁ hg hreceive =>
    obtain ⟨hids, hnext⟩ := ids_receive s g line accepts
    rw [hreceive] at hids hnext
    exact .of_eq hnext ((ids_stopReader s₁ g).trans hids)
  | @lineRead g line accepts s₁ hg hreceive =>
    obtain ⟨hids, hnext⟩ := ids_receive s g line accepts
    rw [hreceive] at hids hnext
    have hkept := numbersKept_nextLine s₁ g
    exact ⟨hkept.nextId.trans hnext, hids ▸ hkept.ids⟩
  | readEnd hg hhung | collide htwo => exact .of_eq rfl (ids_stopReader s _)
  | _ =>
    obtain ⟨hcalls, hnext⟩ := frame_calls rfl hact
    exact .of_eq hnext (congrArg (List.map Call.id) hcalls)

/-- A call that begins takes the next number, if it is entered at all. -/
theorem ids_beginCall {s s₁ : Runtime} (kind : CallKind) (hcalls : s₁.calls = s.calls)
    (hnext : s₁.nextId = s.nextId) :
    (s₁.beginCall kind).nextId = s.nextId + 1 ∧
      (s₁.beginCall kind).ids.Sublist (s.ids ++ [s.nextId + 1]) := by
  simp only [Runtime.ids, Runtime.beginCall, hcalls, hnext, true_and]
  split
  · rw [List.map_append]
    exact List.Sublist.refl _
  · exact List.sublist_append_left _ _

/-- The counter grows by one when a call begins, and every number in `_pending` was there before
or is the new one. -/
theorem ids_act {host : Host} {a : Action} {s s' : Runtime} (hact : act host a s = some s') :
    s'.nextId = s.nextId + (if begins a then 1 else 0) ∧
      s'.ids.Sublist (s.ids ++ if begins a then [s.nextId + 1] else []) := by
  cases hbegins : begins a with
  | false =>
    have hkept := numbersKept_act hbegins hact
    simp only [Bool.false_eq_true, if_false, List.append_nil]
    exact ⟨hkept.nextId, hkept.ids⟩
  | true =>
    simp only [if_true]
    cases acts_of_act hact with
    | spawn hphase => exact ids_beginCall .initializeServer rfl rfl
    | rpcBegin hkind => exact ids_beginCall _ rfl rfl
    | _ => cases hbegins

/-! ### One action -/

/-- The calls of a state against its past. -/
structure Correlating (past : List (Transition Runtime Action)) (s : Runtime) : Prop where
  numbers : past.filterMap begunId = List.range' 1 s.nextId
  below : ∀ id, Pending s id → id ≤ s.nextId
  unique : s.ids.Nodup
  seen : ∀ x ∈ past, ∀ id, Pending x.source id → id ≤ s.nextId
  unanswered : ∀ c ∈ s.calls, c.outcome = .waiting →
    ∀ x ∈ past, Bears x.action (.num c.id) → ¬ Pending x.source c.id
  settled : ∀ c ∈ s.calls, c.outcome = .waiting ∨ c.outcome = .disconnected ∨
    FirstResponse past c.id c.outcome
  popped : ∀ x ∈ past, ∀ id, Ends x id → id ≤ s.nextId ∧ ¬ Pending s id
  failed : ∀ x ∈ past, ∀ g id, x.action = .readEnd g → Waiting x.source id →
    ∀ c ∈ s.calls, c.id = id → c.outcome = .disconnected

theorem correlating_initial (w : World) (runs : List AgentRun) :
    Correlating [] (Runtime.initial w runs) := by
  refine ⟨rfl, ?_, List.nodup_nil, by simp, ?_, ?_, by simp, by simp⟩
  · rintro id ⟨c, hc, -⟩
    cases hc
  · intro c hc
    cases hc
  · intro c hc
    cases hc

theorem Correlating.call_eq {past : List (Transition Runtime Action)} {s : Runtime}
    (h : Correlating past s) {c d : Call} (hc : c ∈ s.calls) (hd : d ∈ s.calls)
    (hid : c.id = d.id) : c = d :=
  List.inj_on_of_nodup_map h.unique hc hd hid

/-- A number in `_pending` after an action was there before, or is the one of a new call. -/
theorem pending_act {host : Host} {a : Action} {s s' : Runtime} (hact : act host a s = some s')
    {id : ℕ} (hid : Pending s' id) : Pending s id ∨ (begins a = true ∧ id = s.nextId + 1) := by
  have hmem := (ids_act hact).2.subset (pending_iff_mem_ids.1 hid)
  rcases List.mem_append.1 hmem with hold | hnew
  · exact .inl (pending_iff_mem_ids.2 hold)
  · split at hnew
    · rename_i hbegins
      exact .inr ⟨hbegins, List.mem_singleton.1 hnew⟩
    · cases hnew

theorem nextId_le_act {host : Host} {a : Action} {s s' : Runtime} (hact : act host a s = some s') :
    s.nextId ≤ s'.nextId := by
  rw [(ids_act hact).1]
  omega

theorem not_bears_of_begins {a : Action} (h : begins a = true) (key : Key) : ¬ Bears a key := by
  rintro ⟨g, line, accepts, message, rfl, -⟩
  cases h

theorem not_delivers_waiting {a : Action} {id : ℕ} : ¬ Delivers a id .waiting := by
  rintro ⟨g, line, accepts, message, -, -, hverdict⟩
  unfold verdict at hverdict
  split at hverdict <;> cases hverdict

theorem FirstResponse.append {past : List (Transition Runtime Action)} {id : ℕ} {outcome : Outcome}
    (h : FirstResponse past id outcome) (x : Transition Runtime Action) :
    FirstResponse (past ++ [x]) id outcome := by
  obtain ⟨earlier, y, later, rfl, hdelivers, hwaiting, hfirst⟩ := h
  exact ⟨earlier, y, later ++ [x], by simp, hdelivers, hwaiting, hfirst⟩

theorem not_waiting_stopReader {s : Runtime} {g : Gen} {c' : Call}
    (hc' : c' ∈ (s.stopReader g).calls) : c'.outcome ≠ .waiting := by
  obtain ⟨c, -, rfl⟩ := List.mem_map.1 hc'
  cases ho : c.outcome <;> simp [Outcome.isWaiting, ho]

theorem readEnd_eq_some {host : Host} {g : Gen} {s s' : Runtime}
    (hact : act host (.readEnd g) s = some s') : s' = s.stopReader g := by
  simp only [act] at hact
  split at hact <;> cases hact
  rfl

section Step

variable {host : Host} {past : List (Transition Runtime Action)} {a : Action} {s s' : Runtime}

theorem numbers_act (h : Correlating past s) (hact : act host a s = some s') :
    List.filterMap begunId (past ++ [⟨s, a, s'⟩]) = List.range' 1 s'.nextId := by
  rw [List.filterMap_append, h.numbers, (ids_act hact).1]
  cases hbegins : begins a with
  | false => simp [begunId, hbegins]
  | true => simp [begunId, hbegins, List.range'_1_concat, Nat.add_comm]

theorem below_act (h : Correlating past s) (hact : act host a s = some s') {id : ℕ}
    (hid : Pending s' id) : id ≤ s'.nextId := by
  have hnext := (ids_act hact).1
  rcases pending_act hact hid with hold | ⟨hbegins, rfl⟩
  · have hle := h.below id hold
    omega
  · rw [hnext, if_pos hbegins]

theorem unique_act (h : Correlating past s) (hact : act host a s = some s') : s'.ids.Nodup := by
  refine (ids_act hact).2.nodup (List.nodup_append'.2 ⟨h.unique, ?_, ?_⟩)
  · split <;> simp
  · intro id hold hnew
    have hle := h.below id (pending_iff_mem_ids.2 hold)
    split at hnew
    · have heq := List.mem_singleton.1 hnew
      omega
    · cases hnew

theorem unanswered_act (h : Correlating past s) (hact : act host a s = some s') {c' : Call}
    (hc' : c' ∈ s'.calls) (hwaiting' : c'.outcome = .waiting) {x : Transition Runtime Action}
    (hx : x ∈ past ++ [⟨s, a, s'⟩]) (hbears : Bears x.action (.num c'.id)) :
    ¬ Pending x.source c'.id := by
  cases callFrom_act hact hc' with
  | fresh hbegins hid hfresh =>
    rcases List.mem_append.1 hx with hold | hnew
    · intro hpending
      have hle := h.seen x hold _ hpending
      omega
    · rw [List.mem_singleton.1 hnew] at hbears
      exact absurd hbears (not_bears_of_begins hbegins _)
  | kept c hc hid hsame hquiet =>
    rw [← hid] at hbears ⊢
    rcases List.mem_append.1 hx with hold | hnew
    · exact h.unanswered c hc (hsame ▸ hwaiting') x hold hbears
    · rw [List.mem_singleton.1 hnew] at hbears
      exact absurd hbears (hquiet (hsame ▸ hwaiting'))
  | settled c hc hid hwaiting hdelivers =>
    rw [hwaiting'] at hdelivers
    exact absurd hdelivers not_delivers_waiting
  | failed c hc hid hwaiting hfailed =>
    rw [hfailed] at hwaiting'
    cases hwaiting'

theorem settled_act (h : Correlating past s) (hact : act host a s = some s') {c' : Call}
    (hc' : c' ∈ s'.calls) : c'.outcome = .waiting ∨ c'.outcome = .disconnected ∨
      FirstResponse (past ++ [⟨s, a, s'⟩]) c'.id c'.outcome := by
  cases callFrom_act hact hc' with
  | fresh hbegins hid hfresh => exact .inl hfresh
  | kept c hc hid hsame hquiet =>
    rw [hsame, ← hid]
    rcases h.settled c hc with hwaiting | hdisconnected | hfirst
    · exact .inl hwaiting
    · exact .inr (.inl hdisconnected)
    · exact .inr (.inr (hfirst.append _))
  | settled c hc hid hwaiting hdelivers =>
    -- the call was waiting, so no response with its number was read before this one
    refine .inr (.inr ⟨past, _, [], rfl, hdelivers, hwaiting, ?_⟩)
    obtain ⟨c₀, hc₀, hid₀, hwaiting₀⟩ := hwaiting
    rw [← hid₀]
    exact h.unanswered c₀ hc₀ hwaiting₀
  | failed c hc hid hwaiting hfailed => exact .inr (.inl hfailed)

/-- The call that ends in an action is not in `_pending` afterwards. -/
theorem not_pending_of_ends (h : Correlating past s) (hact : act host a s = some s') {id : ℕ}
    (hends : Ends ⟨s, a, s'⟩ id) : id ≤ s'.nextId ∧ ¬ Pending s' id := by
  rcases hends with ⟨hpending, hpops⟩ | ⟨kind, rfl, hdead, rfl⟩
  · have hle := (h.below id hpending).trans (nextId_le_act hact)
    have hids : s'.ids = s.ids.filter (· ≠ id) := by
      rw [← ids_popCall]
      rcases hpops with rfl | rfl
      · rw [Runtime.ids, rpcEnd_eq_some hact]
        rfl
      · cases hact
        rfl
    refine ⟨hle, ?_⟩
    rw [pending_iff_mem_ids, hids]
    simp
  · have hnext := (ids_act hact).1
    refine ⟨by simpa [begins] using hnext.ge, ?_⟩
    have hcalls : s'.calls = s.calls := by
      simp only [act] at hact
      split at hact <;> cases hact
      simp only [Runtime.beginCall, hdead, Bool.false_eq_true, if_false]
    intro hpending
    have hle := h.below (s.nextId + 1) (by simpa [Pending, hcalls] using hpending)
    omega

theorem popped_act (h : Correlating past s) (hact : act host a s = some s')
    {x : Transition Runtime Action} (hx : x ∈ past ++ [⟨s, a, s'⟩]) {id : ℕ} (hends : Ends x id) :
    id ≤ s'.nextId ∧ ¬ Pending s' id := by
  rcases List.mem_append.1 hx with hold | hnew
  · obtain ⟨hle, hnot⟩ := h.popped x hold id hends
    refine ⟨hle.trans (nextId_le_act hact), ?_⟩
    intro hpending
    rcases pending_act hact hpending with hbefore | ⟨-, rfl⟩
    · exact hnot hbefore
    · omega
  · rw [List.mem_singleton.1 hnew] at hends
    exact not_pending_of_ends h hact hends

theorem failed_act (h : Correlating past s) (hact : act host a s = some s')
    {x : Transition Runtime Action} (hx : x ∈ past ++ [⟨s, a, s'⟩]) {g : Gen} {id : ℕ}
    (hend : x.action = .readEnd g) (hwaits : Waiting x.source id) {c' : Call} (hc' : c' ∈ s'.calls)
    (hid' : c'.id = id) : c'.outcome = .disconnected := by
  rcases List.mem_append.1 hx with hold | hnew
  · have hbefore := h.failed x hold g id hend hwaits
    cases callFrom_act hact hc' with
    | fresh hbegins hid hfresh =>
      obtain ⟨c₀, hc₀, hid₀, -⟩ := hwaits
      have hle := h.seen x hold id ⟨c₀, hc₀, hid₀⟩
      omega
    | kept c hc hid hsame hquiet => exact hsame.trans (hbefore c hc (hid.trans hid'))
    | settled c hc hid hwaiting hdelivers =>
      -- a call that failed is not waiting, so no response settles it
      obtain ⟨c₀, hc₀, hid₀, hwaiting₀⟩ := hwaiting
      rw [hbefore c₀ hc₀ (hid₀.trans hid')] at hwaiting₀
      cases hwaiting₀
    | failed c hc hid hwaiting hfailed => exact hfailed
  · have heq := List.mem_singleton.1 hnew
    subst heq
    simp only at hend hwaits
    subst hend
    have hnot : c'.outcome ≠ .waiting := by
      rw [readEnd_eq_some hact] at hc'
      exact not_waiting_stopReader hc'
    obtain ⟨c₀, hc₀, hid₀, hwaiting₀⟩ := hwaits
    cases callFrom_act hact hc' with
    | fresh hbegins hid hfresh => cases hbegins
    | kept c hc hid hsame hquiet =>
      have hsameCall := h.call_eq hc hc₀ ((hid.trans hid').trans hid₀.symm)
      rw [hsame, hsameCall] at hnot
      exact absurd hwaiting₀ hnot
    | settled c hc hid hwaiting hdelivers =>
      obtain ⟨g', line, accepts, message, ha, -⟩ := hdelivers
      cases ha
    | failed c hc hid hwaiting hfailed => exact hfailed

/-- **An action keeps the calls in step with the past.** -/
theorem correlating_act (h : Correlating past s) (hact : act host a s = some s') :
    Correlating (past ++ [⟨s, a, s'⟩]) s' := by
  refine ⟨numbers_act h hact, fun id => below_act h hact, unique_act h hact, ?_,
    fun c hc hwaiting x hx => unanswered_act h hact hc hwaiting hx,
    fun c hc => settled_act h hact hc, fun x hx id => popped_act h hact hx,
    fun x hx g id hend hwaits c hc => failed_act h hact hx hend hwaits hc⟩
  intro x hx id hpending
  rcases List.mem_append.1 hx with hold | hnew
  · exact (h.seen x hold id hpending).trans (nextId_le_act hact)
  · rw [List.mem_singleton.1 hnew] at hpending
    exact (h.below id hpending).trans (nextId_le_act hact)

end Step

/-! ### Runs -/

theorem not_waiting_of_rpcEnd {host : Host} {past : List (Transition Runtime Action)} {id : ℕ}
    {s s' : Runtime} (h : Correlating past s) (hact : act host (.rpcEnd id) s = some s') {c : Call}
    (hc : c ∈ s.calls) (hid : c.id = id) : c.outcome ≠ .waiting := by
  simp only [act] at hact
  split at hact
  · cases hact
  · rename_i d hfind
    have hpred := List.find?_some hfind
    simp only [Bool.and_eq_true, decide_eq_true_eq] at hpred
    rw [h.call_eq hc (List.mem_of_find?_eq_some hfind) (hid.trans hpred.1.1.symm)]
    intro hwaiting
    rw [hwaiting] at hpred
    simp [Outcome.isWaiting] at hpred

/-- A response for no waiting call changes nothing; the reader goes on to the next line. -/
theorem inert_act {host : Host} {a : Action} {s s' : Runtime} (hact : act host a s = some s')
    {key : Key} (hbears : Bears a key) (hnot : ∀ id : ℕ, key = .num id → ¬ Waiting s id) :
    s' = { s with readers := s'.readers } := by
  obtain ⟨g, line, accepts, message, rfl, hclass⟩ := hbears
  have hrespond : s.respond g key message = some s := by
    unfold Runtime.respond
    split
    · rfl
    · rename_i c hfind
      obtain ⟨hc, hkey, hwaiting⟩ := waiting_of_find hfind
      exact absurd ⟨c, hc, rfl, hwaiting⟩ (hnot c.id hkey)
  simp only [act, Runtime.receive, hclass, hrespond] at hact
  split at hact
  · cases hact
    unfold Runtime.nextLine
    split <;> rfl
  · cases hact

/-- The end of the output fails a call that waits. -/
theorem disconnected_of_readEnd {host : Host} {g : Gen} {s s' : Runtime}
    (hact : act host (.readEnd g) s = some s') {id : ℕ} (hwaits : Waiting s id) :
    ∃ c ∈ s'.calls, c.id = id ∧ c.outcome = .disconnected := by
  obtain ⟨c, hc, hid, hwaiting⟩ := hwaits
  rw [readEnd_eq_some hact]
  refine ⟨{ c with outcome := .disconnected }, List.mem_map.2 ⟨c, hc, ?_⟩, hid, rfl⟩
  simp only [hwaiting, Outcome.isWaiting, if_true]

/-- **In every run, calls and responses belong together**: the numbers of the calls are distinct,
a call returns what the first response with its number says, other responses change nothing, a call
that ended is not pending again, and the end of the output fails every call that waits. -/
theorem run_correlated (host : Host) (w : World) (runs : List AgentRun) (actions : List Action)
    (t : Runs.Trace Runtime Action)
    (hrun : Runs.run (Runs.traced (act host)) actions (.start (Runtime.initial w runs)) = some t) :
    Correlated t.past t.now := by
  have hfree := Runs.disciplined_true (act host) actions (Runtime.initial w runs)
  have hnow := Runs.traced_invariant (fun _ _ _ _ h _ hact => correlating_act h hact) actions
    (correlating_initial w runs) hfree hrun
  -- at every moment of the past the calls were in step with what came before
  have hthen : ∀ {earlier x later}, t.past = earlier ++ x :: later →
      Correlating earlier x.source ∧ act host x.action x.source = some x.target := by
    intro earlier x later hsplit
    obtain ⟨hat, -, hact⟩ := Runs.traced_past (fun _ _ _ _ h _ hact => correlating_act h hact)
      actions (correlating_initial w runs) hfree hrun hsplit
    exact ⟨hat, hact⟩
  refine ⟨?_, ?_, ?_, ?_, ?_⟩
  · rw [hnow.numbers]
    exact List.nodup_range'
  · intro earlier x later id hsplit hend c hc hid
    obtain ⟨hat, hact⟩ := hthen hsplit
    rw [hend] at hact
    rcases hat.settled c hc with hwaiting | hdisconnected | hfirst
    · exact absurd hwaiting (not_waiting_of_rpcEnd hat hact hc hid)
    · exact .inl hdisconnected
    · exact .inr (hid ▸ hfirst)
  · intro x hx key hbears hnot
    obtain ⟨earlier, later, hsplit⟩ := List.append_of_mem hx
    exact inert_act (hthen hsplit).2 hbears hnot
  · intro x hx id hends
    exact (hnow.popped x hx id hends).2
  · intro earlier x later g id hsplit hend hwaits
    refine ⟨?_, ?_⟩
    · obtain ⟨-, hact⟩ := hthen hsplit
      rw [hend] at hact
      exact disconnected_of_readEnd hact hwaits
    · intro y hy _ c hc hid
      obtain ⟨before, after, rfl⟩ := List.append_of_mem hy
      have hsplit' : t.past = (earlier ++ x :: before) ++ y :: after := by
        rw [hsplit]
        simp
      exact (hthen hsplit').1.failed x (by simp) g id hend hwaits c hc hid

/-- Three calls at once: the third is answered first, twice; a response has an unknown number; the
fourth runs out of time and is answered late; the output ends while the second waits. -/
def crossedCalls : List Action :=
  [.startBegin, .spawn, .rpcWrite 1, .readLine 0 (responseLine 1 (.obj [])) true, .rpcEnd 1,
    .startEnd, .rpcBegin .threadStart, .rpcBegin .threadStart, .rpcBegin .threadStart, .rpcWrite 3,
    .rpcWrite 2, .rpcWrite 4, .readLine 0 (responseLine 3 (.int 7)) true,
    .readLine 0 (responseLine 3 (.int 8)) true, .readLine 0 (responseLine 9 (.int 8)) true,
    .rpcEnd 3, .rpcDrop 4, .readLine 0 (responseLine 4 (.int 8)) true, .hangUp 0, .readEnd 0,
    .rpcEnd 2]

theorem run_correlated_crossedCalls :
    ∃ t, Runs.run (Runs.traced (act weekHost)) crossedCalls
        (.start (Runtime.initial emptyWorld [])) = some t ∧
      t.past.length = 21 ∧ Correlated t.past t.now := by
  have hend : (Runs.run (Runs.traced (act weekHost)) crossedCalls
      (.start (Runtime.initial emptyWorld []))).any (fun t => t.past.length = 21) = true := by
    decide +kernel
  obtain ⟨t, hrun, hlength⟩ := (Option.any_eq_true _ _).1 hend
  exact ⟨t, hrun, of_decide_eq_true hlength,
    run_correlated weekHost emptyWorld [] crossedCalls t hrun⟩

end QuantFlow
