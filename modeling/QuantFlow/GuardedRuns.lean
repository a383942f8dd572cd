/-
**Runs of a machine, and what they keep under a discipline.**

A machine has states and actions; an action is enabled in a state or not, and leads to one next
state.  Whatever nondeterminism there is lies in the choice of the action.  A discipline says of an
action in a state whether it is allowed.  An invariant need only be kept by the allowed actions to
hold after every run that is disciplined throughout.

Main definitions:

* `run` — the state after a list of actions, if each was enabled;
* `disciplined` — each action was allowed in the state it was taken in;
* `traced` — the machine that also keeps its past.

Main results:

* `run_invariant` — **what every allowed action keeps, every disciplined run keeps**;
* `history_invariant`, `traced_invariant` — the same for what relates a state to the
  actions, and to the transitions, that led to it;
* `traced_past` — and it held at every moment of that past;
* `holds_since` — what holds from one action until another.
-/

import Mathlib.Data.Option.Basic

namespace Runs

variable {σ α : Type*}

/-- The state after a list of actions; `none` if one of them is not enabled. -/
def run (step : α → σ → Option σ) : List α → σ → Option σ
  | [], s => some s
  | a :: actions, s => (step a s).bind (run step actions)

/-- Each action is allowed in the state it is taken in. -/
def disciplined (step : α → σ → Option σ) (allowed : σ → α → Bool) : List α → σ → Bool
  | [], _ => true
  | a :: actions, s => allowed s a && (step a s).all (disciplined step allowed actions)

variable {step : α → σ → Option σ} {allowed : σ → α → Bool}

theorem run_append (xs ys : List α) (s : σ) :
    run step (xs ++ ys) s = (run step xs s).bind (run step ys) := by
  induction xs generalizing s with
  | nil => rfl
  | cons a xs ih =>
    simp only [List.cons_append, run]
    cases step a s with
    | none => rfl
    | some s' => exact ih s'

/-- **What every allowed action keeps, every disciplined run keeps.** -/
theorem run_invariant {P : σ → Prop}
    (hstep : ∀ s a s', P s → allowed s a = true → step a s = some s' → P s')
    (actions : List α) {s s' : σ} (hs : P s) (hd : disciplined step allowed actions s = true)
    (hrun : run step actions s = some s') : P s' := by
  -- by induction on the actions, the first of which leads to a state with the property
  induction actions generalizing s with
  | nil =>
    cases hrun
    exact hs
  | cons a actions ih =>
    obtain ⟨mid, hmid, hrest⟩ := Option.bind_eq_some_iff.1 hrun
    obtain ⟨hallowed, hall⟩ := Bool.and_eq_true_iff.1 hd
    rw [hmid] at hall
    exact ih (hstep s a mid hs hallowed hmid) hall hrest

/-- **What every allowed action keeps of a state and the actions that led to it, every disciplined
run keeps.** -/
theorem history_invariant {P : List α → σ → Prop}
    (hstep : ∀ past s a s', P past s → allowed s a = true → step a s = some s' →
      P (past ++ [a]) s')
    (actions : List α) {s s' : σ} (hs : P [] s) (hd : disciplined step allowed actions s = true)
    (hrun : run step actions s = some s') : P actions s' := by
  suffices hgen : ∀ past s, P past s → disciplined step allowed actions s = true →
      run step actions s = some s' → P (past ++ actions) s' by
    exact hgen [] s hs hd hrun
  clear hs hd hrun
  induction actions with
  | nil =>
    intro past s hs _ hrun
    cases hrun
    rwa [List.append_nil]
  | cons a actions ih =>
    intro past s hs hd hrun
    obtain ⟨mid, hmid, hrest⟩ := Option.bind_eq_some_iff.1 hrun
    obtain ⟨hallowed, hall⟩ := Bool.and_eq_true_iff.1 hd
    rw [hmid] at hall
    have hnext := ih (past ++ [a]) mid (hstep past s a mid hs hallowed hmid) hall hrest
    rwa [List.append_assoc] at hnext

/-- Every run keeps to the discipline that allows everything. -/
theorem disciplined_true (step : α → σ → Option σ) (actions : List α) (s : σ) :
    disciplined step (fun _ _ => true) actions s = true := by
  induction actions generalizing s with
  | nil => rfl
  | cons a actions ih =>
    refine Bool.and_eq_true_iff.2 ⟨rfl, ?_⟩
    cases step a s with
    | none => rfl
    | some s' => exact ih s'

/-! ### The past of a run -/

/-- An action that was taken, with the state it was taken in and the one it led to. -/
structure Transition (σ α : Type*) where
  source : σ
  action : α
  target : σ

/-- A state with everything that led to it, the oldest transition first. -/
structure Trace (σ α : Type*) where
  past : List (Transition σ α)
  now : σ

def Trace.start (s : σ) : Trace σ α := ⟨[], s⟩

/-- The machine that also keeps its past. -/
def traced (step : α → σ → Option σ) (a : α) (t : Trace σ α) : Option (Trace σ α) :=
  (step a t.now).map fun s' => ⟨t.past ++ [⟨t.now, a, s'⟩], s'⟩

theorem traced_eq_some {a : α} {t t' : Trace σ α} :
    traced step a t = some t' ↔
      ∃ s', step a t.now = some s' ∧ t' = ⟨t.past ++ [⟨t.now, a, s'⟩], s'⟩ := by
  unfold traced
  rw [Option.map_eq_some_iff]
  simp only [eq_comm]

theorem disciplined_traced (actions : List α) (t : Trace σ α) :
    disciplined (traced step) (fun t a => allowed t.now a) actions t =
      disciplined step allowed actions t.now := by
  induction actions generalizing t with
  | nil => rfl
  | cons a actions ih =>
    simp only [disciplined, traced]
    cases step a t.now with
    | none => rfl
    | some s' =>
      simp only [Option.map_some, Option.all_some]
      rw [ih]

/-- **What every allowed action keeps of a state and its past, every disciplined run keeps.** -/
theorem traced_invariant {P : List (Transition σ α) → σ → Prop}
    (hstep : ∀ past s a s', P past s → allowed s a = true → step a s = some s' →
      P (past ++ [⟨s, a, s'⟩]) s')
    (actions : List α) {s : σ} {t : Trace σ α} (hs : P [] s)
    (hd : disciplined step allowed actions s = true)
    (hrun : run (traced step) actions (.start s) = some t) : P t.past t.now := by
  refine run_invariant (P := fun t : Trace σ α => P t.past t.now) ?_ actions hs
    ((disciplined_traced actions (.start s)).trans hd) hrun
  intro t a t' ht hallowed hact
  obtain ⟨s', hs', rfl⟩ := traced_eq_some.1 hact
  exact hstep t.past t.now a s' ht hallowed hs'

/-- A place in a list that grew by one: the new end, or a place of the old list. -/
theorem split_concat {β : Type*} {xs : List β} {y : β} {earlier : List β} {x : β} {later : List β}
    (h : xs ++ [y] = earlier ++ x :: later) :
    (earlier = xs ∧ x = y) ∨ ∃ rest, xs = earlier ++ x :: rest ∧ later = rest ++ [y] := by
  rcases List.eq_nil_or_concat later with rfl | ⟨rest, z, rfl⟩
  · obtain ⟨hxs, hy⟩ := List.append_inj' h rfl
    exact .inl ⟨hxs.symm, (List.cons.inj hy).1.symm⟩
  · rw [List.concat_eq_append, ← List.cons_append, ← List.append_assoc] at h
    obtain ⟨hxs, hy⟩ := List.append_inj' h rfl
    refine .inr ⟨rest, hxs, ?_⟩
    rw [List.concat_eq_append, (List.cons.inj hy).1]

/-- **The invariant held at every moment of the past**, and what happened there was allowed. -/
theorem traced_past {P : List (Transition σ α) → σ → Prop}
    (hstep : ∀ past s a s', P past s → allowed s a = true → step a s = some s' →
      P (past ++ [⟨s, a, s'⟩]) s')
    (actions : List α) {s : σ} {t : Trace σ α} (hs : P [] s)
    (hd : disciplined step allowed actions s = true)
    (hrun : run (traced step) actions (.start s) = some t) {earlier : List (Transition σ α)}
    {x : Transition σ α} {later : List (Transition σ α)} (hsplit : t.past = earlier ++ x :: later) :
    P earlier x.source ∧ allowed x.source x.action = true ∧
      step x.action x.source = some x.target := by
  -- the statement about every place of the past is itself kept by every action
  have hall := traced_invariant (P := fun past s => P past s ∧
      ∀ earlier x later, past = earlier ++ x :: later →
        P earlier x.source ∧ allowed x.source x.action = true ∧
          step x.action x.source = some x.target) ?_ actions
    ⟨hs, fun earlier x later h => by simp at h⟩ hd hrun
  · exact hall.2 earlier x later hsplit
  · rintro past s a s' ⟨hP, hplaces⟩ hallowed hact
    refine ⟨hstep past s a s' hP hallowed hact, ?_⟩
    intro earlier x later hsplit
    rcases split_concat hsplit with ⟨rfl, rfl⟩ | ⟨rest, hrest, -⟩
    · exact ⟨hP, hallowed, hact⟩
    · exact hplaces earlier x rest hrest

/-- Every transition of the past is a step that was taken. -/
theorem step_of_mem_past (actions : List α) {s : σ} {t : Trace σ α}
    (hrun : run (traced step) actions (.start s) = some t) {x : Transition σ α} (hx : x ∈ t.past) :
    step x.action x.source = some x.target := by
  obtain ⟨earlier, later, hsplit⟩ := List.append_of_mem hx
  exact (traced_past (P := fun _ _ => True) (fun _ _ _ _ _ _ _ => trivial) actions trivial
    (disciplined_true step actions s) hrun hsplit).2.2

/-- **What one action brings about and every other but some keeps holds from the one until the
others.** -/
theorem holds_since {P : σ → Prop} (begins : σ → α → Prop) (ends : α → Prop)
    (hbegin : ∀ s a s', allowed s a = true → step a s = some s' → begins s a → P s')
    (hkeep : ∀ s a s', P s → allowed s a = true → step a s = some s' → ¬ ends a → P s')
    (actions : List α) {s : σ} {t : Trace σ α} (hd : disciplined step allowed actions s = true)
    (hrun : run (traced step) actions (.start s) = some t)
    {earlier between later : List (Transition σ α)} {x y : Transition σ α}
    (hsplit : t.past = earlier ++ x :: (between ++ y :: later)) (hx : begins x.source x.action)
    (hbetween : ∀ z ∈ between, ¬ ends z.action) : P y.source := by
  have hmoment : t.past = (earlier ++ x :: between) ++ y :: later := by
    rw [hsplit]
    simp
  -- the property holds in every state whose past has the one and none of the others after it
  have hpast := traced_past (P := fun past s => ∀ earlier x between, past = earlier ++ x :: between →
      begins x.source x.action → (∀ z ∈ between, ¬ ends z.action) → P s) ?_ actions ?_ hd hrun hmoment
  · exact hpast.1 earlier x between rfl hx hbetween
  · intro past s a s' hP hallowed hact earlier x between hsplit hx hbetween
    rcases split_concat hsplit with ⟨rfl, rfl⟩ | ⟨rest, hrest, rfl⟩
    · exact hbegin s a s' hallowed hact hx
    · refine hkeep s a s' (hP earlier x rest hrest hx ?_) hallowed hact ?_
      · exact fun z hz => hbetween z (List.mem_append_left _ hz)
      · exact hbetween _ (List.mem_append_right _ (List.mem_singleton.2 rfl))
  · intro earlier x between hsplit
    simp at hsplit

end Runs
