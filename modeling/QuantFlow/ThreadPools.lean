/-
**Any number of threads over one state.**

A server starts a thread for each request it takes.  The threads share a state, which each of them
reads and writes in atomic steps; between two steps of one thread any number of others may take
theirs, and the world outside may change the state as well.  A *pool* is the list of the threads
started so far and the state they share, and a run is a list of events: a request comes in, a thread
takes its next step, or something happens outside.

What a thread may count on while others run is a relation between the states before and after their
steps.  A *pact* fixes an invariant and, for each thread, the relation it relies on; a thread is
*safe* if each of its steps keeps the invariant and what all others rely on, as long as these do the
same, and if its result is as promised.

Main definitions:

* `Pool`, `Pool.run` — threads over one state, and what a list of events makes of them;
* `Script.Paced` — a script that runs alone while the world outside goes on;
* `Pact` — the invariant and the relations that the threads rely on;
* `Script.Safe` — a script that keeps to a pact and ends as promised;
* `Keeps` — what the programs, and the world outside, have to fulfil.

Main results:

* `Script.Safe.bind`, `Script.Safe.rescue`, `Script.Safe.each`, `Script.Safe.read`,
  `Script.Safe.modify`, `Script.Safe.transaction` — safe scripts are put together from safe parts;
* `Pool.run_proper` — **in every run of safe programs the invariant holds, and every thread
  that has ended has the result its request promises**.
-/

import QuantFlow.Scripts

namespace Scripts

variable {ρ ω σ ε α β ι : Type}

/-! ### Pools -/

/-- A thread: the request it serves, the state it was started in, and the rest of its script. -/
structure Thread (ρ σ ε α : Type) where
  request : ρ
  born : σ
  script : Script σ ε α

/-- The threads started so far, in the order of their start, and the state they share. -/
structure Pool (ρ σ ε α : Type) where
  threads : List (Thread ρ σ ε α)
  state : σ

inductive Event (ρ ω : Type)
  | start (request : ρ)
  | move (i : ℕ)
  | outside (w : ω)

section Runs

variable (program : ρ → ℕ → Script σ ε α) (nature : ω → σ → σ)

/-- One event.  A thread that has ended does not move any more. -/
def Pool.after (pool : Pool ρ σ ε α) : Event ρ ω → Pool ρ σ ε α
  | .start request =>
    { pool with
      threads := pool.threads ++
        [{ request := request, born := pool.state,
           script := program request pool.threads.length }] }
  | .move i =>
    match pool.threads[i]? with
    | some ⟨request, born, .step write next⟩ =>
      { threads := pool.threads.set i ⟨request, born, next pool.state⟩
        state := write pool.state }
    | _ => pool
  | .outside w => { pool with state := nature w pool.state }

/-- The pool after a list of events. -/
def Pool.run (events : List (Event ρ ω)) (s : σ) : Pool ρ σ ε α :=
  events.foldl (Pool.after program nature) { threads := [], state := s }

end Runs

/-- A script that runs alone while nature goes on before each of its steps. -/
inductive Script.Paced (nature : ω → σ → σ) : Script σ ε α → σ → Except ε α → σ → Prop
  | done (r : Except ε α) (s : σ) : Paced nature (.done r) s r s
  | step {write : σ → σ} {next : σ → Script σ ε α} {s s' : σ} {r : Except ε α} (d : ω)
      (rest : Paced nature (next (nature d s)) (write (nature d s)) r s') :
      Paced nature (.step write next) s r s'

namespace Script

variable {nature : ω → σ → σ} {s s' : σ}

/-- A script that runs alone is paced by a nature that does nothing. -/
theorem paced_run {d : ω} (hd : nature d = id) (p : Script σ ε α) (s : σ) :
    Paced nature p s (p.run s).1 (p.run s).2 := by
  induction p generalizing s with
  | done r => exact .done r s
  | step write next ih =>
    refine .step d ?_
    rw [hd]
    exact ih s (write s)

theorem Paced.of_done {x r : Except ε α} (h : Paced nature (.done x) s r s') : x = r ∧ s = s' := by
  cases h
  exact ⟨rfl, rfl⟩

theorem Paced.of_read {f : σ → α} {r : Except ε α} (h : Paced nature (read f) s r s') :
    ∃ d, s' = nature d s ∧ r = .ok (f s') := by
  cases h with
  | step d rest =>
    cases rest
    exact ⟨d, rfl, rfl⟩

theorem Paced.read (f : σ → α) (d : ω) (s : σ) :
    Paced nature (Script.read f : Script σ ε α) s (.ok (f (nature d s))) (nature d s) :=
  .step d (.done _ _)

theorem Paced.bind {p : Script σ ε α} {f : α → Script σ ε β} {a : α} {m : σ} {r : Except ε β}
    (hp : Paced nature p s (.ok a) m) (hf : Paced nature (f a) m r s') :
    Paced nature (p >>= f) s r s' := by
  change Paced nature (p.bind f) s r s'
  generalize hx : (.ok a : Except ε α) = x at hp
  induction hp with
  | done x s =>
    cases hx
    exact hf
  | step d _ ih => exact .step d (ih hf hx)

theorem Paced.of_bind {p : Script σ ε α} {f : α → Script σ ε β} {r : Except ε β}
    (h : Paced nature (p >>= f) s r s') :
    (∃ a m, Paced nature p s (.ok a) m ∧ Paced nature (f a) m r s') ∨
      ∃ e, Paced nature p s (.error e) s' ∧ r = .error e := by
  change Paced nature (p.bind f) s r s' at h
  induction p generalizing s with
  | done x =>
    cases x with
    | ok a => exact .inl ⟨a, s, .done _ _, h⟩
    | error e =>
      obtain ⟨rfl, rfl⟩ := Paced.of_done h
      exact .inr ⟨e, .done _ _, rfl⟩
  | step write next ih =>
    cases h with
    | step d rest =>
      rcases ih (nature d s) rest with ⟨a, m, hp, hf⟩ | ⟨e, hp, hr⟩
      · exact .inl ⟨a, m, .step d hp, hf⟩
      · exact .inr ⟨e, .step d hp, hr⟩

theorem Paced.of_bind_ok {p : Script σ ε α} {f : α → Script σ ε β} {r : Except ε β}
    (h : Paced nature (p >>= f) s r s') (hp : ∀ e m, ¬ Paced nature p s (.error e) m) :
    ∃ a m, Paced nature p s (.ok a) m ∧ Paced nature (f a) m r s' := by
  rcases h.of_bind with hok | ⟨e, herror, -⟩
  · exact hok
  · exact absurd herror (hp e s')

end Script

/-- What is left of a script after a number of steps with nobody else in between, and the state they
leave. -/
def Script.ahead : ℕ → Script σ ε α → σ → Script σ ε α × σ
  | 0, p, s => (p, s)
  | _ + 1, .done r, s => (.done r, s)
  | n + 1, .step write next, s => (next s).ahead n (write s)

theorem Script.run_of_ahead {n : ℕ} {p : Script σ ε α} {s s' : σ} {r : Except ε α}
    (h : p.ahead n s = (.done r, s')) : p.run s = (r, s') := by
  induction n generalizing p s with
  | zero =>
    cases h
    rfl
  | succ n ih =>
    cases p with
    | done r' =>
      cases h
      rfl
    | step write next =>
      rw [Script.run]
      exact ih h

/-- A thread that moves a number of times in a row. -/
theorem Pool.foldl_move (program : ρ → ℕ → Script σ ε α) (nature : ω → σ → σ) (n i : ℕ)
    {pool : Pool ρ σ ε α} {t : Thread ρ σ ε α} (ht : pool.threads[i]? = some t) :
    (List.replicate n (.move i)).foldl (Pool.after program nature) pool =
      { threads := pool.threads.set i { t with script := (t.script.ahead n pool.state).1 }
        state := (t.script.ahead n pool.state).2 } := by
  obtain ⟨hlt, hget⟩ := List.getElem?_eq_some_iff.1 ht
  induction n generalizing pool t with
  | zero =>
    have hset : pool.threads.set i t = pool.threads := by
      rw [← hget]
      exact List.set_getElem_self hlt
    show pool = { pool with threads := pool.threads.set i t }
    rw [hset]
  | succ n ih =>
    obtain ⟨request, born, script⟩ := t
    rw [List.replicate_succ, List.foldl_cons]
    cases script with
    | done r =>
      have hsame : pool.after program nature (.move i) = pool := by
        simp only [Pool.after, ht]
      have hdone : ∀ n, (Script.done r : Script σ ε α).ahead n pool.state =
          (.done r, pool.state) := fun n => by cases n <;> rfl
      rw [hsame, ih ht hlt hget]
      simp only [hdone]
    | step write next =>
      have hmove : pool.after program nature (.move i) =
          { threads := pool.threads.set i ⟨request, born, next pool.state⟩
            state := write pool.state } := by
        simp only [Pool.after, ht]
      have hlt' : i < (pool.threads.set i ⟨request, born, next pool.state⟩).length := by
        rwa [List.length_set]
      rw [hmove, ih (List.getElem?_set_self hlt) hlt' (List.getElem_set_self _)]
      simp [Script.ahead]

/-! ### Pacts -/

/-- The invariant of the state, and what each thread may rely on while the others run. -/
structure Pact (σ : Type) where
  inv : σ → Prop
  rely : ℕ → σ → σ → Prop
  refl : ∀ i s, rely i s s
  trans : ∀ {i a b c}, rely i a b → rely i b c → rely i a c

/-- The property stays true while others run. -/
def Pact.Stable (P : Pact σ) (i : ℕ) (Q : σ → Prop) : Prop := ∀ s s', P.rely i s s' → Q s → Q s'

namespace Script

/-- A write. -/
def modify (f : σ → σ) : Script σ ε Unit := .step f fun _ => .done (.ok ())

theorem Paced.of_modify {nature : ω → σ → σ} {f : σ → σ} {s s' : σ} {r : Except ε Unit}
    (h : Paced nature (modify f) s r s') : ∃ d, s' = f (nature d s) ∧ r = .ok () := by
  cases h with
  | step d rest =>
    cases rest
    exact ⟨d, rfl, rfl⟩

/-- `[body(x) for x in xs]`. -/
def collect : List ι → (ι → Script σ ε α) → Script σ ε (List α)
  | [], _ => .done (.ok [])
  | x :: xs, body => body x >>= fun a => collect xs body >>= fun rest => .done (.ok (a :: rest))

/-- Thread `i` runs this script from the state on: as long as the others keep to the pact, so does
each of its steps, and its result is as promised. -/
def Safe (P : Pact σ) (i : ℕ) (post : Except ε α → σ → Prop) : Script σ ε α → σ → Prop
  | .done r, s => post r s
  | .step write next, s => ∀ s', P.rely i s s' → P.inv s' →
      P.inv (write s') ∧ (∀ j, j ≠ i → P.rely j s' (write s')) ∧
        (next s').Safe P i post (write s')

variable {P : Pact σ} {i : ℕ} {post mid : Except ε α → σ → Prop} {s : σ}

/-- A safe script is safe from every state that the others may lead to. -/
theorem Safe.later {p : Script σ ε α} (hpost : ∀ r, P.Stable i (post r)) {s' : σ}
    (h : p.Safe P i post s) (hs : P.rely i s s') : p.Safe P i post s' := by
  cases p with
  | done r => exact hpost r s s' hs h
  | step write next => exact fun t ht hinv => h t (P.trans hs ht) hinv

theorem Safe.weaken {p : Script σ ε α} (h : p.Safe P i mid s)
    (hpost : ∀ r t, mid r t → post r t) : p.Safe P i post s := by
  induction p generalizing s with
  | done r => exact hpost r s h
  | step write next ih =>
    intro t ht hinv
    obtain ⟨h₁, h₂, h₃⟩ := h t ht hinv
    exact ⟨h₁, h₂, ih t h₃⟩

/-- One safe script after another: the second begins where the first has ended, and an exception of
the first is the result. -/
theorem Safe.bind {p : Script σ ε α} {f : α → Script σ ε β} {post : Except ε β → σ → Prop}
    (h : p.Safe P i mid s) (hok : ∀ a t, mid (.ok a) t → (f a).Safe P i post t)
    (herror : ∀ e t, mid (.error e) t → post (.error e) t) : (p >>= f).Safe P i post s := by
  change (p.bind f).Safe P i post s
  induction p generalizing s with
  | done r =>
    cases r with
    | ok a => exact hok a s h
    | error e => exact herror e s h
  | step write next ih =>
    intro t ht hinv
    obtain ⟨h₁, h₂, h₃⟩ := h t ht hinv
    exact ⟨h₁, h₂, ih t h₃⟩

/-- A read: what follows is safe from every state in which the others may let it take place. -/
theorem Safe.read {f : σ → α} {g : α → Script σ ε β} {post : Except ε β → σ → Prop}
    (h : ∀ t, P.rely i s t → P.inv t → (g (f t)).Safe P i post t) :
    (Script.read f >>= g).Safe P i post s :=
  fun t ht hinv => ⟨hinv, fun j _ => P.refl j t, h t ht hinv⟩

/-- A write that keeps the invariant and what the others rely on. -/
theorem Safe.modify {f : σ → σ} {g : Unit → Script σ ε β} {post : Except ε β → σ → Prop}
    (hinv : ∀ t, P.rely i s t → P.inv t → P.inv (f t))
    (hrely : ∀ t, P.rely i s t → P.inv t → ∀ j, j ≠ i → P.rely j t (f t))
    (h : ∀ t, P.rely i s t → P.inv t → (g ()).Safe P i post (f t)) :
    (Script.modify f >>= g).Safe P i post s :=
  fun t ht hi => ⟨hinv t ht hi, hrely t ht hi, h t ht hi⟩

/-- A step that reads and writes at once, and succeeds. -/
theorem Safe.transaction {t : σ → Except ε (α × σ)} {g : α → Script σ ε β}
    {post : Except ε β → σ → Prop}
    (h : ∀ s₁, P.rely i s s₁ → P.inv s₁ → ∃ a s₂, t s₁ = .ok (a, s₂) ∧ P.inv s₂ ∧
      (∀ j, j ≠ i → P.rely j s₁ s₂) ∧ (g a).Safe P i post s₂) :
    (Script.transaction t >>= g).Safe P i post s := by
  intro s₁ hs₁ hinv
  obtain ⟨a, s₂, heq, hinv₂, hrely, hg⟩ := h s₁ hs₁ hinv
  have hwrite : committed t s₁ = s₂ := by simp only [committed, heq]
  rw [hwrite]
  refine ⟨hinv₂, hrely, ?_⟩
  show ((Script.done ((t s₁).map Prod.fst)).bind g).Safe P i post s₂
  rw [heq]
  exact hg

theorem Safe.rescue {p : Script σ ε Unit} {caught : ε → Bool} {mid post : Except ε Unit → σ → Prop}
    (h : p.Safe P i mid s) (hok : ∀ t, mid (.ok ()) t → post (.ok ()) t)
    (herror : ∀ e t, mid (.error e) t → post (if caught e then .ok () else .error e) t) :
    (p.rescue caught).Safe P i post s := by
  induction p generalizing s with
  | done r =>
    cases r with
    | ok a => exact hok s h
    | error e =>
      have := herror e s h
      simp only [Script.rescue]
      split <;> simp_all [Safe]
  | step write next ih =>
    intro t ht hinv
    obtain ⟨h₁, h₂, h₃⟩ := h t ht hinv
    exact ⟨h₁, h₂, ih t h₃⟩

/-! A promise about the result that does not look at the state, and a fact about the state that every
part of the script keeps. -/

/-- The script ends in a state with `Q`, and what it returns has `R`. -/
def Ends (Q : σ → Prop) (R : α → Prop) (r : Except ε α) (s : σ) : Prop :=
  Q s ∧ ∀ a, r = .ok a → R a

variable {Q : σ → Prop} {R : α → Prop} {R' : β → Prop}

theorem Ends.stable (hQ : P.Stable i Q) (r : Except ε α) : P.Stable i (Ends Q R r) :=
  fun s s' hs h => ⟨hQ s s' hs h.1, h.2⟩

theorem Safe.pure {a : α} (hs : Q s) (ha : R a) :
    (Pure.pure a : Script σ ε α).Safe P i (Ends Q R) s :=
  ⟨hs, fun _ h => Except.ok.inj h ▸ ha⟩

theorem Safe.lift {x : Except ε α} {g : α → Script σ ε β} (hs : Q s)
    (h : ∀ a, x = .ok a → (g a).Safe P i (Ends Q R') s) :
    (Script.lift x >>= g).Safe P i (Ends Q R') s := by
  cases hx : x with
  | ok a => exact h a hx
  | error e => exact ⟨hs, fun a ha => by cases ha⟩

theorem Safe.andThen {p : Script σ ε α} {f : α → Script σ ε β} (h : p.Safe P i (Ends Q R) s)
    (hf : ∀ a t, Q t → R a → (f a).Safe P i (Ends Q R') t) :
    (p >>= f).Safe P i (Ends Q R') s :=
  h.bind (fun a t ht => hf a t ht.1 (ht.2 a rfl)) fun _ _ ht => ⟨ht.1, fun a ha => by cases ha⟩

/-- A loop: what each turn keeps, whether it returns or raises, the loop keeps. -/
theorem Safe.each {xs : List ι} {body : ι → Script σ ε Unit} (hs : Q s)
    (h : ∀ x ∈ xs, ∀ t, Q t → (body x).Safe P i (Ends Q fun _ => True) t) :
    (Script.each xs body).Safe P i (Ends Q fun _ => True) s := by
  induction xs generalizing s with
  | nil => exact Safe.pure hs trivial
  | cons x xs ih =>
    refine Safe.andThen (h x List.mem_cons_self s hs) ?_
    intro _ t ht _
    exact ih ht fun y hy => h y (List.mem_cons_of_mem x hy)

/-- A loop that collects its results: each is as promised for its element. -/
theorem Safe.collect {xs : List ι} {body : ι → Script σ ε α} {S : ι → α → Prop} (hs : Q s)
    (h : ∀ x ∈ xs, ∀ t, Q t → (body x).Safe P i (Ends Q (S x)) t) :
    (Script.collect xs body).Safe P i (Ends Q (List.Forall₂ S xs)) s := by
  induction xs generalizing s with
  | nil => exact Safe.pure hs .nil
  | cons x xs ih =>
    refine Safe.andThen (h x List.mem_cons_self s hs) fun a t ht ha => ?_
    refine Safe.andThen (ih ht fun y hy => h y (List.mem_cons_of_mem x hy)) ?_
    exact fun rest t ht hrest => Safe.pure ht (.cons ha hrest)

end Script

/-! ### Runs of safe programs -/

/-- What is asked of the programs of the admitted requests and of the world outside.  `fresh i` is
what thread `i` finds when it is started: it holds at first, and the others keep it. -/
structure Keeps (P : Pact σ) (program : ρ → ℕ → Script σ ε α) (nature : ω → σ → σ)
    (admitted : ρ → Prop) (fresh : ℕ → σ → Prop) (post : ρ → ℕ → σ → Except ε α → σ → Prop) :
    Prop where
  fresh_stable : ∀ i, P.Stable i (fresh i)
  post_stable : ∀ r i born res, P.Stable i (post r i born res)
  nature_inv : ∀ w s, P.inv s → P.inv (nature w s)
  nature_rely : ∀ w s i, P.inv s → P.rely i s (nature w s)
  safe : ∀ r i s, admitted r → P.inv s → fresh i s → (program r i).Safe P i (post r i s) s

/-- The invariant holds, every thread is safe, and whoever comes next finds its place fresh. -/
structure Pool.Proper (P : Pact σ) (fresh : ℕ → σ → Prop)
    (post : ρ → ℕ → σ → Except ε α → σ → Prop) (pool : Pool ρ σ ε α) : Prop where
  inv : P.inv pool.state
  safe : ∀ i (t : Thread ρ σ ε α), pool.threads[i]? = some t →
    t.script.Safe P i (post t.request i t.born) pool.state
  fresh : ∀ i, pool.threads.length ≤ i → fresh i pool.state

section Proper

variable {P : Pact σ} {program : ρ → ℕ → Script σ ε α} {nature : ω → σ → σ} {admitted : ρ → Prop}
  {fresh : ℕ → σ → Prop} {post : ρ → ℕ → σ → Except ε α → σ → Prop}

/-- A change of the state on which all threads can rely. -/
theorem Pool.Proper.change (K : Keeps P program nature admitted fresh post)
    {pool : Pool ρ σ ε α} (h : pool.Proper P fresh post) {s : σ} (hinv : P.inv s)
    (hrely : ∀ i, P.rely i pool.state s) : Pool.Proper P fresh post { pool with state := s } where
  inv := hinv
  safe i t ht := (h.safe i t ht).later (K.post_stable t.request i t.born) (hrely i)
  fresh i hi := K.fresh_stable i _ _ (hrely i) (h.fresh i hi)

theorem Pool.Proper.after (K : Keeps P program nature admitted fresh post)
    {pool : Pool ρ σ ε α} (h : pool.Proper P fresh post) {event : Event ρ ω}
    (hadmitted : ∀ r, event = .start r → admitted r) :
    (pool.after program nature event).Proper P fresh post := by
  cases event with
  | outside w => exact h.change K (K.nature_inv w _ h.inv) fun i => K.nature_rely w _ i h.inv
  | start r =>
    have hfresh := h.fresh pool.threads.length (Nat.le_refl _)
    refine ⟨h.inv, ?_, fun i hi => h.fresh i ?_⟩
    · intro i t ht
      simp only [Pool.after] at ht ⊢
      -- the thread was there before, or is the one that was started
      rcases Nat.lt_or_ge i pool.threads.length with hi | hi
      · rw [List.getElem?_append_left hi] at ht
        exact h.safe i t ht
      · rw [List.getElem?_append_right hi] at ht
        rw [List.getElem?_singleton, Option.ite_none_right_eq_some] at ht
        obtain ⟨hzero, hnew⟩ := ht
        have hlast : i = pool.threads.length := by omega
        subst hlast
        cases hnew
        exact K.safe r _ _ (hadmitted r rfl) h.inv hfresh
    · have : (pool.after program nature (.start r)).threads.length
          = pool.threads.length + 1 := by simp [Pool.after]
      omega
  | move i =>
    simp only [Pool.after]
    split
    · rename_i request born write next hi
      obtain ⟨hinv, hothers, hnext⟩ := h.safe i _ hi pool.state (P.refl i _) h.inv
      have hlt : i < pool.threads.length := (List.getElem?_eq_some_iff.1 hi).1
      refine ⟨hinv, ?_, ?_⟩
      · intro j t ht
        rcases eq_or_ne j i with rfl | hj
        · rw [List.getElem?_set_self hlt] at ht
          cases ht
          exact hnext
        · rw [List.getElem?_set_ne hj.symm] at ht
          exact (h.safe j t ht).later (K.post_stable t.request j t.born) (hothers j hj)
      · intro j hj
        rw [List.length_set] at hj
        have hne : j ≠ i := by omega
        exact K.fresh_stable j _ _ (hothers j hne) (h.fresh j hj)
    · exact h

/-- **In every run of safe programs the invariant holds, and every thread that has ended has the
result its request promises.** -/
theorem Pool.run_proper (K : Keeps P program nature admitted fresh post) {s : σ} (hs : P.inv s)
    (hfresh : ∀ i, fresh i s) (events : List (Event ρ ω))
    (hadmitted : ∀ r, Event.start r ∈ events → admitted r) :
    (Pool.run program nature events s).Proper P fresh post := by
  -- by induction on the events, the first of which leads to a proper pool
  suffices hgen : ∀ pool : Pool ρ σ ε α, pool.Proper P fresh post →
      (events.foldl (Pool.after program nature) pool).Proper P fresh post from
    hgen _ ⟨hs, fun i t ht => by simp at ht, fun i _ => hfresh i⟩
  induction events with
  | nil => exact fun pool h => h
  | cons event events ih =>
    intro pool h
    refine ih (fun r hr => hadmitted r (List.mem_cons_of_mem event hr)) _ (h.after K ?_)
    rintro r rfl
    exact hadmitted r List.mem_cons_self

theorem Pool.Proper.ended {pool : Pool ρ σ ε α} (h : pool.Proper P fresh post) {i : ℕ}
    {t : Thread ρ σ ε α} {r : Except ε α} (ht : pool.threads[i]? = some t)
    (hr : t.script = .done r) : post t.request i t.born r pool.state := by
  have := h.safe i t ht
  rwa [hr] at this

end Proper

end Scripts
