/-
**Handlers that let some exceptions through.**

A `try` block with an `except` clause for some classes of exceptions turns those into "no answer"
and lets the others through.  Attempts of this kind are made one after the other until one gives an
answer, and a last resort answers if none does.

What escapes a chain of steps escapes from one of them, after the steps before it have succeeded.
A list of attempts ends with an answer exactly if no attempt that is made lets an exception through
and, when all of them have failed, the last resort answers.

Main definitions:

* `Escapes` — the exceptions that are not caught;
* `attempt`, `firstOf` — a handled block, and attempts in order;
* `Chosen`, `Settled` — which answer is the first, and when there is one.

Main results:

* `escapes_bind` — what escapes from a chain of steps;
* `firstOf_attempts_iff` — **attempts end with the first answer exactly if they are settled**.
-/

import Mathlib.Logic.Basic
import Mathlib.Tactic.Cases

namespace Handlers

variable {ε α β ρ : Type}

/-! ### Handled blocks -/

section Handled

variable (caught : ε → Bool)

/-- The computation fails with an exception that is not caught. -/
def Escapes (x : Except ε α) : Prop := ∃ e, x = .error e ∧ caught e = false

/-- The computation with a handler that answers nothing. -/
def attempt : Except ε α → Except ε (Option α)
  | .ok a => .ok (some a)
  | .error e => if caught e then .ok none else .error e

variable {caught}

@[simp] theorem not_escapes_ok (a : α) : ¬ Escapes caught (.ok a : Except ε α) := by
  rintro ⟨e, h, -⟩
  cases h

@[simp] theorem escapes_error {e : ε} :
    Escapes caught (.error e : Except ε α) ↔ caught e = false := by
  constructor
  · rintro ⟨e', h, he⟩
    cases h
    exact he
  · intro he
    exact ⟨e, rfl, he⟩

/-- An exception escapes from a chain of steps when it escapes from the first one, or when the first
succeeds and it escapes from the rest. -/
theorem escapes_bind {x : Except ε α} {f : α → Except ε β} :
    Escapes caught (x >>= f) ↔ Escapes caught x ∨ ∃ a, x = .ok a ∧ Escapes caught (f a) := by
  cases x with
  | ok a =>
    have hbind : (Except.ok a >>= f) = f a := rfl
    simp [hbind]
  | error e =>
    have hbind : (Except.error e >>= f) = .error e := rfl
    simp [hbind]

end Handled

/-! ### Attempts in order -/

/-- `x₁ or x₂ or … or last`. -/
def firstOf (attempts : List (Except ε (Option α))) (last : Except ε α) : Except ε α :=
  attempts.foldr (fun x rest => do
    match ← x with
    | some a => .ok a
    | none => rest) last

/-- An answer is that of the first attempt, or that of the others when the first gives none and lets
nothing through. -/
theorem firstOf_cons_eq_ok {caught : ε → Bool} {x : Except ε α}
    {xs : List (Except ε (Option α))} {last : Except ε α} {a : α} :
    firstOf (attempt caught x :: xs) last = .ok a ↔
      x = .ok a ∨ (∀ b, x ≠ .ok b) ∧ ¬ Escapes caught x ∧ firstOf xs last = .ok a := by
  have hcons : firstOf (attempt caught x :: xs) last = (do
      match ← attempt caught x with
      | some a => .ok a
      | none => firstOf xs last) := rfl
  rw [hcons]
  cases x with
  | ok b => simp [attempt, bind, Except.bind]
  | error e => cases hc : caught e <;> simp [attempt, hc, bind, Except.bind]

section Order

variable (usable : ρ → α → Prop)

/-- The answer is that of the first usable one of the replies, or the last resort. -/
inductive Chosen (last : α → Prop) : List ρ → α → Prop
  | here {r : ρ} {rs : List ρ} {a : α} (h : usable r a) : Chosen last (r :: rs) a
  | later {r : ρ} {rs : List ρ} {a : α} (h : ∀ b, ¬ usable r b) (hrs : Chosen last rs a) :
      Chosen last (r :: rs) a
  | last {a : α} (h : last a) : Chosen last [] a

/-- None of the replies up to the first usable one breaks, and if there is none the last resort
serves. -/
def Settled (breaks : ρ → Prop) (serves : Prop) : List ρ → Prop
  | [] => serves
  | r :: rs => ¬ breaks r ∧ ((∃ a, usable r a) ∨ Settled breaks serves rs)

variable {usable} {breaks : ρ → Prop} {caught : ε → Bool} {read : ρ → Except ε α}
  {resort : Except ε α}

/-- **Attempts end with the first answer exactly if they are settled.** -/
theorem firstOf_attempts_iff (husable : ∀ r a, read r = .ok a ↔ usable r a)
    (hbreaks : ∀ r, Escapes caught (read r) ↔ breaks r) (rs : List ρ) :
    (∃ a, firstOf (rs.map fun r => attempt caught (read r)) resort = .ok a ∧
        Chosen usable (fun a => resort = .ok a) rs a) ↔
      Settled usable breaks (∃ a, resort = .ok a) rs := by
  induction rs with
  | nil =>
    constructor
    · rintro ⟨a, h, -⟩
      exact ⟨a, h⟩
    · rintro ⟨a, h⟩
      exact ⟨a, h, .last h⟩
  | cons r rs ih =>
    rw [List.map_cons, Settled]
    -- the first reply is usable, or what it brings is caught and the others decide
    constructor
    · rintro ⟨a, h, hchosen⟩
      rcases firstOf_cons_eq_ok.1 h with hr | ⟨hno, hescapes, hrest⟩
      · have hnot : ¬ breaks r := by
          rw [← hbreaks r, hr]
          exact not_escapes_ok a
        exact ⟨hnot, Or.inl ⟨a, (husable r a).1 hr⟩⟩
      · cases hchosen with
        | here ha => exact absurd ((husable r a).2 ha) (hno a)
        | later _ hrs => exact ⟨mt (hbreaks r).2 hescapes, Or.inr (ih.1 ⟨a, hrest, hrs⟩)⟩
    · rintro ⟨hnot, hs⟩
      by_cases hu : ∃ a, usable r a
      · obtain ⟨a, ha⟩ := hu
        exact ⟨a, firstOf_cons_eq_ok.2 (Or.inl ((husable r a).2 ha)), .here ha⟩
      · obtain ⟨a, h, hchosen⟩ := ih.2 (hs.resolve_left hu)
        have hno : ∀ b, ¬ usable r b := not_exists.1 hu
        have hread : ∀ b, read r ≠ .ok b := fun b hb => hno b ((husable r b).1 hb)
        have hescapes : ¬ Escapes caught (read r) := mt (hbreaks r).1 hnot
        exact ⟨a, firstOf_cons_eq_ok.2 (Or.inr ⟨hread, hescapes, h⟩), .later hno hchosen⟩

end Order

end Handlers
