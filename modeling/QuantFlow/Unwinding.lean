/-
**Unwinding: what one observer sees of a machine shared with others.**

Some of the inputs of a machine are the observer's, the rest belong to others.  A relation on states
says that two states look the same to the observer.  If an input of another leaves a state looking
the same, and an input of the observer takes states that look the same to states that look the same,
then a history looks to the observer like its own inputs alone.

Main definitions:

* `play` — the state after a history of inputs.

Main results:

* `purge` — **a history looks like the observer's own part of it**;
* `play_congr` — the same inputs from states that look the same.
-/

import Mathlib.Data.List.Basic

namespace Unwinding

variable {σ α : Type*}

/-- The state after a history of inputs. -/
def play (step : α → σ → σ) (history : List α) (s : σ) : σ :=
  history.foldl (fun s a => step a s) s

variable {step : α → σ → σ} {mine : α → Bool} {Same : σ → σ → Prop}

/-- **A history looks like the observer's own part of it.** -/
theorem purge (history : List α)
    (hother : ∀ a ∈ history, mine a = false → ∀ s t, Same s t → Same (step a s) t)
    (hmine : ∀ a ∈ history, mine a = true → ∀ s t, Same s t → Same (step a s) (step a t))
    {s t : σ} (h : Same s t) :
    Same (play step history s) (play step (history.filter mine) t) := by
  induction history generalizing s t with
  | nil => exact h
  | cons a history ih =>
    have hother' := fun b hb => hother b (List.mem_cons_of_mem a hb)
    have hmine' := fun b hb => hmine b (List.mem_cons_of_mem a hb)
    cases ha : mine a with
    | true =>
      rw [List.filter_cons_of_pos ha]
      exact ih hother' hmine' (hmine a List.mem_cons_self ha s t h)
    | false =>
      rw [List.filter_cons_of_neg (by simp [ha])]
      exact ih hother' hmine' (hother a List.mem_cons_self ha s t h)

/-- The same inputs of the observer keep two states looking the same. -/
theorem play_congr (history : List α)
    (hstep : ∀ a ∈ history, ∀ s t, Same s t → Same (step a s) (step a t)) {s t : σ} (h : Same s t) :
    Same (play step history s) (play step history t) := by
  induction history generalizing s t with
  | nil => exact h
  | cons a history ih =>
    exact ih (fun b hb => hstep b (List.mem_cons_of_mem a hb))
      (hstep a List.mem_cons_self s t h)

end Unwinding
