/-
**Programs that run in transactions.**

A program that keeps its data in a database touches it in transactions only.  Between two of them it
computes on what it has read, and other programs may run.  A *script* is such a program: it has
ended, with a result or an exception, or it goes on with a transaction, which sees the state and
leaves another one.  A transaction that raises leaves the state as it was.

Main definitions:

* `Script` — scripts, with `Script.bind`, `Script.rescue` and `Script.each` to put them together;
* `Script.transaction` — one transaction;
* `Script.run` — a script that runs alone.

Main results:

* `Script.run_bind`, `Script.run_rescue` — a script is run part by part;
* `Script.run_each` — **a loop of transactions that each depend on their element alone does
  what precedes the first failure, and raises that**.
-/

import Mathlib.Data.List.Basic

namespace Scripts

/-- A script over a state: its end, or a transaction and what follows it.  The transaction reads the
state that `next` is given, and writes the state that `write` makes of it. -/
inductive Script (σ ε α : Type)
  | done (result : Except ε α)
  | step (write : σ → σ) (next : σ → Script σ ε α)

namespace Script

variable {σ ε α β ι : Type}

/-- One script after the other; an exception ends both. -/
def bind : Script σ ε α → (α → Script σ ε β) → Script σ ε β
  | .done (.ok a), f => f a
  | .done (.error e), _ => .done (.error e)
  | .step write next, f => .step write fun s => (next s).bind f

instance : Monad (Script σ ε) where
  pure a := .done (.ok a)
  bind := bind

/-- `raise`. -/
def raise (e : ε) : Script σ ε α := .done (.error e)

/-- A computation without a transaction. -/
def lift (x : Except ε α) : Script σ ε α := .done x

/-- `try: p except …: pass`. -/
def rescue (caught : ε → Bool) : Script σ ε Unit → Script σ ε Unit
  | .done (.ok a) => .done (.ok a)
  | .done (.error e) => if caught e then .done (.ok ()) else .done (.error e)
  | .step write next => .step write fun s => (next s).rescue caught

/-- `for x in xs: body(x)`. -/
def each : List ι → (ι → Script σ ε Unit) → Script σ ε Unit
  | [], _ => .done (.ok ())
  | x :: xs, body => (body x).bind fun _ => each xs body

/-- What a transaction leaves. -/
def committed (t : σ → Except ε (α × σ)) (s : σ) : σ :=
  match t s with
  | .ok (_, s') => s'
  | .error _ => s

/-- A transaction: committed if it returns, rolled back if it raises. -/
def transaction (t : σ → Except ε (α × σ)) : Script σ ε α :=
  .step (committed t) fun s => .done ((t s).map Prod.fst)

/-- A transaction that only reads. -/
def read (f : σ → α) : Script σ ε α := transaction fun s => .ok (f s, s)

theorem bind_assoc {γ : Type} (p : Script σ ε α) (f : α → Script σ ε β) (g : β → Script σ ε γ) :
    (p >>= f) >>= g = p >>= fun a => f a >>= g := by
  change (p.bind f).bind g = p.bind fun a => (f a).bind g
  induction p with
  | done result =>
    cases result with
    | ok a => rfl
    | error e => rfl
  | step write next ih => exact congrArg (Script.step write) (funext ih)

/-! ### Running alone -/

/-- The result of a script that runs alone, and the state it leaves. -/
def run : Script σ ε α → σ → Except ε α × σ
  | .done result, s => (result, s)
  | .step write next, s => (next s).run (write s)

@[simp] theorem run_done (result : Except ε α) (s : σ) :
    (Script.done result).run s = (result, s) := rfl

@[simp] theorem run_lift (x : Except ε α) (s : σ) : (lift x : Script σ ε α).run s = (x, s) := rfl

@[simp] theorem run_read (f : σ → α) (s : σ) : (read f : Script σ ε α).run s = (.ok (f s), s) := rfl

theorem run_bind (p : Script σ ε α) (f : α → Script σ ε β) (s : σ) :
    (p >>= f).run s =
      match p.run s with
      | (.ok a, s') => (f a).run s'
      | (.error e, s') => (.error e, s') := by
  change (p.bind f).run s = _
  induction p generalizing s with
  | done result =>
    cases result with
    | error e => rfl
    | ok a => rfl
  | step write next ih =>
    simp only [bind, run]
    exact ih s (write s)

theorem run_bind_ok {p : Script σ ε α} {s s' : σ} {a : α} (h : p.run s = (.ok a, s'))
    (f : α → Script σ ε β) : (p >>= f).run s = (f a).run s' := by
  rw [run_bind, h]

theorem run_bind_error {p : Script σ ε α} {s s' : σ} {e : ε} (h : p.run s = (.error e, s'))
    (f : α → Script σ ε β) : (p >>= f).run s = (.error e, s') := by
  rw [run_bind, h]

theorem run_rescue (caught : ε → Bool) (p : Script σ ε Unit) (s : σ) :
    (p.rescue caught).run s =
      match p.run s with
      | (.ok a, s') => (.ok a, s')
      | (.error e, s') => (if caught e then .ok () else .error e, s') := by
  induction p generalizing s with
  | done result =>
    cases result with
    | ok a => rfl
    | error e =>
      simp only [rescue, run_done]
      split <;> rfl
  | step write next ih =>
    simp only [rescue, run]
    exact ih s (write s)

theorem run_transaction_ok {t : σ → Except ε (α × σ)} {s s' : σ} {a : α} (h : t s = .ok (a, s')) :
    (transaction t).run s = (.ok a, s') := by
  simp only [transaction, run, committed, h]
  rfl

theorem run_transaction_error {t : σ → Except ε (α × σ)} {s : σ} {e : ε} (h : t s = .error e) :
    (transaction t).run s = (.error e, s) := by
  simp only [transaction, run, committed, h]
  rfl

/-! ### Loops -/

/-- The results before the first failure, and that failure. -/
def firstFailure (outcome : ι → Except ε β) : List ι → List β × Option ε
  | [] => ([], none)
  | x :: xs =>
    match outcome x with
    | .error e => ([], some e)
    | .ok b => (b :: (firstFailure outcome xs).1, (firstFailure outcome xs).2)

/-- The result of a loop. -/
def verdict : Option ε → Except ε Unit
  | none => .ok ()
  | some e => .error e

/-- **A loop of transactions that each depend on their element alone does what precedes the first
failure, and raises that.** -/
theorem run_each {body : ι → Script σ ε Unit} (outcome : ι → Except ε β) (write : β → σ → σ)
    (hok : ∀ x b s, outcome x = .ok b → (body x).run s = (.ok (), write b s))
    (herror : ∀ x e s, outcome x = .error e → (body x).run s = (.error e, s))
    (xs : List ι) (s : σ) :
    (each xs body).run s =
      (verdict (firstFailure outcome xs).2,
        (firstFailure outcome xs).1.foldl (fun s b => write b s) s) := by
  induction xs generalizing s with
  | nil => rfl
  | cons x xs ih =>
    change (body x >>= fun _ => each xs body).run s = _
    cases hx : outcome x with
    | error e =>
      rw [run_bind_error (herror x e s hx)]
      simp [firstFailure, hx, verdict]
    | ok b =>
      rw [run_bind_ok (hok x b s hx), ih]
      simp [firstFailure, hx]

section Failures

variable {outcome : ι → Except ε β}

/-- A list that is computed element by element raises the first failure. -/
theorem mapM_eq_firstFailure (outcome : ι → Except ε β) (xs : List ι) :
    xs.mapM outcome =
      match (firstFailure outcome xs).2 with
      | none => .ok (firstFailure outcome xs).1
      | some e => .error e := by
  induction xs with
  | nil => rfl
  | cons x xs ih =>
    rw [List.mapM_cons, ih]
    cases hx : outcome x with
    | error e =>
      simp only [firstFailure, hx]
      rfl
    | ok b =>
      simp only [firstFailure, hx]
      cases (firstFailure outcome xs).2 with
      | none => rfl
      | some e => rfl

/-- The list of all results, if there is no failure. -/
theorem mapM_toOption_eq_some_iff {xs : List ι} {bs : List β} :
    (xs.mapM fun x => (outcome x).toOption) = some bs ↔ firstFailure outcome xs = (bs, none) := by
  induction xs generalizing bs with
  | nil => simp [firstFailure]
  | cons x xs ih =>
    cases hx : outcome x with
    | error e => simp [firstFailure, hx, Except.toOption]
    | ok b =>
      have hb : (outcome x).toOption = some b := by
        rw [hx]
        rfl
      rw [List.mapM_cons, hb]
      simp only [firstFailure, hx]
      cases hrest : xs.mapM fun x => (outcome x).toOption with
      | none =>
        have hsome : (firstFailure outcome xs).2 ≠ none := by
          intro hnone
          rw [ih.2 (Prod.ext rfl hnone)] at hrest
          cases hrest
        simp [hsome]
      | some cs =>
        rw [ih.1 hrest]
        simp

/-- Two computations for each element, the first of which fails for none. -/
theorem firstFailure_bind {γ : Type} (next : β → Except ε γ) {xs : List ι}
    (h : (firstFailure outcome xs).2 = none) :
    firstFailure (fun x => outcome x >>= next) xs = firstFailure next (firstFailure outcome xs).1 := by
  induction xs with
  | nil => rfl
  | cons x xs ih =>
    cases hx : outcome x with
    | error e => simp [firstFailure, hx] at h
    | ok b =>
      simp only [firstFailure, hx] at h ⊢
      rw [ih h]
      rfl

end Failures

end Script

end Scripts
