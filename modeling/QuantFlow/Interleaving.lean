/-
**Two scripts that look, and then write once.**

Two scripts run at the same time over one state.  A schedule says whose transaction is next.  Each of
them first looks at a part of the state, in transactions that do not change this part, and plans one
last transaction from what it saw.  So an interleaving ends in one of two ways: the second one to
write has seen what the first one left, and the two are one after the other; or it has planned from
what there was before either wrote.

Main definitions:

* `Side`, `Duo`, `Duo.move` — the two scripts, and one of them taking its next transaction;
* `Looks`, `Plans`, `Performs` — transactions that only look, a script that plans,
  and what its plan does.

Main results:

* `two_ways` — **how an interleaving ends**.
-/

import Mathlib.Logic.Function.Basic
import QuantFlow.GuardedRuns
import QuantFlow.Scripts

namespace Scripts

variable {σ τ ε α β : Type}

/-- The script has ended. -/
def Script.finished : Script σ ε α → Bool
  | .done _ => true
  | .step _ _ => false

inductive Side
  | left
  | right
  deriving DecidableEq

def Side.other : Side → Side
  | .left => .right
  | .right => .left

theorem Side.other_ne (side : Side) : side.other ≠ side := by
  cases side <;> decide

theorem Side.other_other (side : Side) : side.other.other = side := by
  cases side <;> rfl

theorem Side.eq_or_eq_other (side lead : Side) : side = lead ∨ side = lead.other := by
  cases side <;> cases lead <;> decide

/-- Two scripts over one state. -/
structure Duo (σ ε α : Type) where
  scripts : Side → Script σ ε α
  state : σ

/-- The next transaction of one side, if its script has not ended. -/
def Duo.move (side : Side) (d : Duo σ ε α) : Option (Duo σ ε α) :=
  match d.scripts side with
  | .done _ => none
  | .step write next =>
    some { scripts := Function.update d.scripts side (next d.state), state := write d.state }

theorem Duo.move_eq_some {side : Side} {d d' : Duo σ ε α} (h : d.move side = some d') :
    ∃ write next, d.scripts side = .step write next ∧ d'.scripts side = next d.state ∧
      d'.scripts side.other = d.scripts side.other ∧ d'.state = write d.state := by
  unfold Duo.move at h
  split at h
  · cases h
  · rename_i write next hscript
    cases h
    exact ⟨write, next, hscript, Function.update_self .., Function.update_of_ne side.other_ne .., rfl⟩

/-- A run, found by evaluation, at whose end both scripts have ended. -/
theorem exists_ended (d : Duo σ ε α) (schedule : List Side) (p : Duo σ ε α → Bool)
    (h : (Runs.run Duo.move schedule d).any (fun d' =>
      (d'.scripts .left).finished && (d'.scripts .right).finished && p d') = true) :
    ∃ d', Runs.run Duo.move schedule d = some d' ∧ (∀ side, (d'.scripts side).finished = true) ∧
      p d' = true := by
  obtain ⟨d', hrun, hd⟩ := (Option.any_eq_true _ _).1 h
  simp only [Bool.and_eq_true] at hd
  refine ⟨d', hrun, fun side => ?_, hd.2⟩
  cases side with
  | left => exact hd.1.1
  | right => exact hd.1.2

/-! ### Looking and planning -/

section Planning

variable (view : σ → τ) (inv : σ → Prop)

/-- A transaction that keeps the invariant and what is seen. -/
def Unseen (write : σ → σ) : Prop := ∀ s, inv s → inv (write s) ∧ view (write s) = view s

/-- The script returns, and all its transactions are unseen. -/
inductive Looks : Script σ ε β → Prop
  | done (b : β) : Looks (.done (.ok b))
  | step {write : σ → σ} {next : σ → Script σ ε β} (hwrite : Unseen view inv write)
      (hnext : ∀ s, inv s → Looks (next s)) : Looks (.step write next)

/-- The script makes unseen transactions, and goes on with the plan of what it saw in one of them. -/
inductive Plans (plan : τ → Script σ ε α) : Script σ ε α → Prop
  | ready {p : Script σ ε α} (h : ∀ t, p = plan t) : Plans plan p
  | look {write : σ → σ} {next : σ → Script σ ε α} (hwrite : Unseen view inv write)
      (hnext : ∀ s, inv s → Plans plan (next s)) : Plans plan (.step write next)
  | decide {write : σ → σ} {next : σ → Script σ ε α} (hwrite : Unseen view inv write)
      (hnext : ∀ s, inv s → next s = plan (view s)) : Plans plan (.step write next)

/-- The script has ended, or makes one transaction; and this is what it does to what is seen. -/
def Performs (effect : τ → Except ε α × τ) : Script σ ε α → Prop
  | .done r => ∀ t, effect t = (r, t)
  | .step write next => ∀ s, inv s →
      inv (write s) ∧ next s = .done (effect (view s)).1 ∧ view (write s) = (effect (view s)).2

variable {view inv} {plan : τ → Script σ ε α}

theorem Plans.bind {p : Script σ ε β} {k : β → Script σ ε α} (hp : Looks view inv p)
    (hk : ∀ b, Plans view inv plan (k b)) : Plans view inv plan (p >>= k) := by
  induction hp with
  | done b => exact hk b
  | step hwrite _ ih => exact .look hwrite ih

theorem Looks.bind {γ : Type} {p : Script σ ε β} {k : β → Script σ ε γ} (hp : Looks view inv p)
    (hk : ∀ b, Looks view inv (k b)) : Looks view inv (p >>= k) := by
  induction hp with
  | done b => exact hk b
  | step hwrite _ ih => exact .step hwrite ih

/-- A plan of one transaction. -/
theorem performs_transaction {effect : τ → Except ε α × τ} {t : σ → Except ε (β × σ)} {k : β → α}
    (h : ∀ s, inv s →
      (∃ b s', t s = .ok (b, s') ∧ inv s' ∧ effect (view s) = (.ok (k b), view s')) ∨
        ∃ e, t s = .error e ∧ effect (view s) = (.error e, view s)) :
    Performs view inv effect (Script.transaction t >>= fun b => pure (k b)) := by
  intro s hs
  show inv (Script.committed t s) ∧
    ((Script.done ((t s).map Prod.fst) : Script σ ε β) >>= fun b => pure (k b)) = _ ∧ _
  rw [Script.committed]
  rcases h s hs with ⟨b, s', ht, hs', heffect⟩ | ⟨e, ht, heffect⟩
  · rw [ht, heffect]
    exact ⟨hs', rfl, rfl⟩
  · rw [ht, heffect]
    exact ⟨hs, rfl, rfl⟩

/-- A planned script that runs alone. -/
theorem Performs.run {effect : τ → Except ε α × τ} {p : Script σ ε α}
    (h : Performs view inv effect p) {s : σ} (hs : inv s) :
    inv (p.run s).2 ∧ ((p.run s).1, view (p.run s).2) = effect (view s) := by
  cases p with
  | done r => exact ⟨hs, (h (view s)).symm⟩
  | step write next =>
    obtain ⟨hinv, hnext, hview⟩ := h s hs
    rw [Script.run, hnext, Script.run_done, hview]
    exact ⟨hinv, rfl⟩

/-- A script that plans and runs alone. -/
theorem Plans.run {effect : τ → τ → Except ε α × τ}
    (hperforms : ∀ t, Performs view inv (effect t) (plan t)) {p : Script σ ε α}
    (hp : Plans view inv plan p) {s : σ} (hs : inv s) :
    inv (p.run s).2 ∧ ((p.run s).1, view (p.run s).2) = effect (view s) (view s) := by
  induction hp generalizing s with
  | ready h =>
    rw [h (view s)]
    exact (hperforms (view s)).run hs
  | look hwrite _ ih =>
    obtain ⟨hinv, hview⟩ := hwrite s hs
    rw [← hview]
    exact ih s hs hinv
  | decide hwrite hnext =>
    obtain ⟨hinv, hview⟩ := hwrite s hs
    rw [Script.run, hnext s hs, ← hview]
    exact (hperforms _).run hinv

/-- One transaction of a script that plans, or has planned from `base`. -/
theorem plans_step {base : τ} {write : σ → σ} {next : σ → Script σ ε α} {s : σ} (hs : inv s)
    (h : Plans view inv plan (.step write next) ∨ .step write next = plan base) :
    (Unseen view inv write ∧ (Plans view inv plan (next s) ∨ next s = plan (view s))) ∨
      .step write next = plan base := by
  rcases h with h | h
  · cases h with
    | ready h => exact .inr (h base)
    | look hwrite hnext => exact .inl ⟨hwrite, .inl (hnext s hs)⟩
    | decide hwrite hnext => exact .inl ⟨hwrite, .inr (hnext s hs)⟩
  · exact .inr h

/-- A script that has ended did what its plan does. -/
theorem plans_done {base : τ} {r : Except ε α} {effect : τ → Except ε α × τ}
    (hperforms : Performs view inv effect (plan base))
    (h : Plans view inv plan (.done r) ∨ .done r = plan base) (t : τ) : effect t = (r, t) := by
  have hplan : .done r = plan base := by
    rcases h with h | h
    · cases h with
      | ready h => exact h base
    · exact h
  rw [← hplan] at hperforms
  exact hperforms t

end Planning

/-! ### Interleavings -/

section Interleavings

variable {view : σ → τ} {inv : σ → Prop} {plan : Side → τ → Script σ ε α}
  {effect : Side → τ → τ → Except ε α × τ} {d d' : Duo σ ε α}

theorem done_of_finished {p : Script σ ε α} (h : p.finished = true) : ∃ r, p = .done r := by
  cases p with
  | done r => exact ⟨r, rfl⟩
  | step write next => cases h

theorem run_of_ended {lead : Side} {r r' : Except ε α} {schedule : List Side}
    (hlead : d.scripts lead = .done r) (hother : d.scripts lead.other = .done r')
    (hrun : Runs.run Duo.move schedule d = some d') : d' = d := by
  cases schedule with
  | nil => exact (Option.some.inj hrun).symm
  | cons side schedule =>
    obtain ⟨d₁, hmove, -⟩ := Option.bind_eq_some_iff.1 hrun
    obtain ⟨write, next, hscript, -⟩ := Duo.move_eq_some hmove
    rcases side.eq_or_eq_other lead with rfl | rfl
    · rw [hlead] at hscript
      cases hscript
    · rw [hother] at hscript
      cases hscript

/-- The side that is left does what it planned from `base`, or from what the other one left. -/
theorem last_way (hperforms : ∀ side t, Performs view inv (effect side t) (plan side t)) {lead : Side}
    {r : Except ε α} (schedule : List Side) {base : τ} (hlead : d.scripts lead = .done r)
    (hinv : inv d.state)
    (hplan : Plans view inv (plan lead.other) (d.scripts lead.other) ∨
      d.scripts lead.other = plan lead.other base)
    (hrun : Runs.run Duo.move schedule d = some d')
    (hended : (d'.scripts lead.other).finished = true) :
    ∃ b, (b = base ∨ b = view d.state) ∧ d'.scripts lead = .done r ∧
      d'.scripts lead.other = .done (effect lead.other b (view d.state)).1 ∧
      view d'.state = (effect lead.other b (view d.state)).2 := by
  induction schedule generalizing d base with
  | nil =>
    cases hrun
    obtain ⟨r', hr'⟩ := done_of_finished hended
    rw [hr'] at hplan
    refine ⟨base, .inl rfl, hlead, ?_⟩
    rw [plans_done (hperforms lead.other base) hplan]
    exact ⟨hr', rfl⟩
  | cons side schedule ih =>
    obtain ⟨d₁, hmove, hrest⟩ := Option.bind_eq_some_iff.1 hrun
    obtain ⟨write, next, hscript, hside, hkept, hstate⟩ := Duo.move_eq_some hmove
    rcases side.eq_or_eq_other lead with rfl | rfl
    · rw [hlead] at hscript
      cases hscript
    have hlead' : d₁.scripts lead = .done r := by
      cases lead <;> exact hkept.trans hlead
    rw [hscript] at hplan
    rcases plans_step hinv hplan with ⟨hwrite, hnext⟩ | hnext
    · obtain ⟨hinv', hview⟩ := hwrite _ hinv
      rw [← hstate] at hinv' hview
      obtain ⟨b, hb, hend⟩ := ih hlead' hinv' (by rwa [hside]) hrest
      rw [hview] at hb hend
      exact ⟨b, .inr (or_self_iff.1 hb), hend⟩
    · have hact := hperforms lead.other base
      rw [← hnext] at hact
      obtain ⟨-, hdone, hview⟩ := hact _ hinv
      rw [← hside] at hdone
      rw [run_of_ended hlead' hdone hrest, hstate]
      exact ⟨base, .inl rfl, hlead', hdone, hview⟩

/-- **How an interleaving ends**: one of the two did what it planned from the start, and the other what
it planned from there too, or from what the first one left. -/
theorem two_ways (hperforms : ∀ side t, Performs view inv (effect side t) (plan side t))
    (schedule : List Side) (hinv : inv d.state)
    (hplan : ∀ side, Plans view inv (plan side) (d.scripts side) ∨
      d.scripts side = plan side (view d.state))
    (hrun : Runs.run Duo.move schedule d = some d')
    (hended : ∀ side, (d'.scripts side).finished = true) :
    ∃ lead b, let first := effect lead (view d.state) (view d.state)
      (b = view d.state ∨ b = first.2) ∧ d'.scripts lead = .done first.1 ∧
      d'.scripts lead.other = .done (effect lead.other b first.2).1 ∧
      view d'.state = (effect lead.other b first.2).2 := by
  induction schedule generalizing d with
  | nil =>
    rw [← Option.some.inj hrun] at hended ⊢
    have hdone : ∀ side, d.scripts side = .done (effect side (view d.state) (view d.state)).1 ∧
        (effect side (view d.state) (view d.state)).2 = view d.state := by
      intro side
      obtain ⟨r, hr⟩ := done_of_finished (hended side)
      have hside := hplan side
      rw [hr] at hside
      rw [plans_done (hperforms side _) hside]
      exact ⟨hr, rfl⟩
    refine ⟨.left, view d.state, .inl rfl, (hdone .left).1, ?_⟩
    rw [(hdone .left).2]
    exact ⟨(hdone .right).1, (hdone .right).2.symm⟩
  | cons side schedule ih =>
    obtain ⟨d₁, hmove, hrest⟩ := Option.bind_eq_some_iff.1 hrun
    obtain ⟨write, next, hscript, hside, hkept, hstate⟩ := Duo.move_eq_some hmove
    have hnext := hplan side
    rw [hscript] at hnext
    rcases plans_step hinv hnext with ⟨hwrite, hnext⟩ | hnext
    · obtain ⟨hinv', hview⟩ := hwrite _ hinv
      rw [← hstate] at hinv' hview
      rw [← hview]
      refine ih hinv' (fun other => ?_) hrest
      rcases other.eq_or_eq_other side with rfl | rfl
      · rwa [hside, hview]
      · rw [hkept, hview]
        exact hplan _
    · have hact := hperforms side (view d.state)
      rw [← hnext] at hact
      obtain ⟨hinv', hdone, hview⟩ := hact _ hinv
      rw [← hside] at hdone
      rw [← hstate] at hinv' hview
      obtain ⟨b, hb, hend⟩ :=
        last_way hperforms schedule hdone hinv' (by rw [hkept]; exact hplan _) hrest
        (hended _)
      rw [hview] at hb hend
      exact ⟨side, b, hb, hend⟩

end Interleavings

end Scripts
