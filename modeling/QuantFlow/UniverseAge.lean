/-
**How old a list of the fund universe can be.**

The memory of `load_universe` is trusted for an hour and the file for seven days, each from the moment
it was filled; but the memory is filled from the file with the time of the lookup, and after a download
that brought nothing with the list of the file or the built-in one, however old they are.  So what is
served can be older than seven days.  A process that restarts loses the memory and keeps the file.

The statement is about lookups that do not overlap: `_mem` and `_mem_at` are written one after the
other, and a lookup that is held up writes the time at which it began.

Main definitions:

* `inTurn` — lookups one after the other, with restarts in between;
* `attempts` — the downloads that they make;
* `Fresh` — what the memory and the file hold between two of them.

Main results:

* `yields_loadUniverse` — what one lookup answers and leaves;
* `universe_fresh` — **a list older than seven days and an hour, or the built-in one,
  is served only in the hour after a download that failed**.
-/

import QuantFlow.Universe

namespace QuantFlow.Universe

open Py (Decoder Json)
open Scripts
open Scripts.Script (run_bind_ok run_read)
open Store (WriteOutcome shelfOf)

variable {D : Decoder}

/-! ### Lookups one after the other -/

/-- A lookup at a time, or a restart of the process. -/
inductive Turn (D : Decoder)
  | lookup (now : Instant D) (r : Request)
  | restart

def Turn.run (w : World D) : Turn D → World D
  | .lookup now r => ((program r 0).run (setClock now w)).2
  | .restart => w.restarted

def inTurn (turns : List (Turn D)) (w : World D) : World D := turns.foldl Turn.run w

/-- The file holds a list, and it is young enough. -/
def youngFile (now : ℚ) (cached : Json) : Bool :=
  match getOr cached "updated_at" (.int 0), getOr cached "items" (.arr []) with
  | .ok ts, .ok items => items.truthy && (younger now ts).toOption.getD false
  | _, _ => false

/-- A lookup asks the provider. -/
def asks (r : Request) (w : World D) : Bool :=
  r.force || (!(w.mem.truthy && w.clock.value - w.memAt < 3600) &&
    !youngFile w.clock.value (Store.load D cacheFile .null r.query.fails w.files))

/-- An attempt to download the list, with its time: the list is empty if it failed. -/
abbrev Attempt (D : Decoder) := Instant D × List Json

def attempt (r : Request) (w : World D) : List (Attempt D) :=
  if asks r w then [(w.clock, download D r.query.response)] else []

/-- The attempts of a run. -/
def attempts : List (Turn D) → World D → List (Attempt D)
  | [], _ => []
  | .lookup now r :: turns, w =>
    attempt r (setClock now w) ++ attempts turns (Turn.run w (.lookup now r))
  | .restart :: turns, w => attempts turns w.restarted

/-! ### One lookup -/

/-- A lookup that runs alone takes the list of the memory or goes to the file. -/
theorem run_program (r : Request) (w : World D) :
    (program r 0).run w =
      if (w.mem.truthy && !r.force && decide (w.clock.value - w.memAt < 3600)) = true then
        (.ok w.mem, w)
      else (fromFile w.clock r.force r.query).run w := by
  have hrun : (program r 0).run w = _ :=
    (run_bind_ok (run_read _ _) _).trans (run_bind_ok (run_read _ _) _)
  by_cases hmem : (w.mem.truthy && !r.force) = true
  · rw [if_pos hmem, run_bind_ok (run_read _ _)] at hrun
    by_cases hage : w.clock.value - w.memAt < 3600
    · rw [hrun, if_pos hage, if_pos (by simp [hmem, hage]), run_read]
    · rw [hrun, if_neg hage, if_neg (by simp [hage])]
  · rw [hrun, if_neg hmem, if_neg (by simp [hmem])]

/-! ### What the memory and the file hold in between -/

/-- A list that was asked for at the time `t`: the one of the file at first, or a download. -/
def Listed (first : Option Json) (tries : List (Attempt D)) (t : Instant D) (items : List Json) :
    Prop :=
  items ≠ [] ∧ (first = some (record t items) ∨ (t, items) ∈ tries)

/-- A list that may go into the memory at the time `since`: one younger than seven days, or any if a
download has just failed. -/
def Held (first : Option Json) (tries : List (Attempt D)) (since : ℚ) (items : List Json) : Prop :=
  (∃ t, Listed first tries t items ∧ since - t.value < cacheTtl) ∨
    ∃ t : Instant D, (t, []) ∈ tries ∧ t.value = since

structure Fresh (first : Option Json) (tries : List (Attempt D)) (w : World D) : Prop where
  mem : w.mem = .null ∨ ∃ items, items ≠ [] ∧ w.mem = .arr items ∧ Held first tries w.memAt items
  file : shelfOf D w.files cacheFile = none ∨ ∃ t items, Listed first tries t items ∧
    shelfOf D w.files cacheFile = some (record t items)

/-- A lookup answers with a list that may have gone into the memory in the last hour. -/
def Yields (first : Option Json) (tries : List (Attempt D)) (now : ℚ) (p : Step D Json)
    (w : World D) : Prop :=
  ∃ items w', p.run w = (.ok (.arr items), w') ∧ items ≠ [] ∧
    (∃ since, now - since < 3600 ∧ Held first tries since items) ∧ Fresh first tries w'

section Fresh

variable {first : Option Json} {tries : List (Attempt D)} {w : World D}

theorem Listed.mono {t : Instant D} {items : List Json} (h : Listed first tries t items)
    (more : List (Attempt D)) : Listed first (tries ++ more) t items :=
  ⟨h.1, h.2.imp id (List.mem_append_left _)⟩

theorem Held.mono {since : ℚ} {items : List Json} (h : Held first tries since items)
    (more : List (Attempt D)) : Held first (tries ++ more) since items := by
  obtain ⟨t, hlisted, hage⟩ | ⟨t, ht, hsince⟩ := h
  · exact .inl ⟨t, hlisted.mono more, hage⟩
  · exact .inr ⟨t, List.mem_append_left _ ht, hsince⟩

theorem Fresh.mono (h : Fresh first tries w) (more : List (Attempt D)) :
    Fresh first (tries ++ more) w := by
  refine ⟨h.mem.imp id ?_, h.file.imp id ?_⟩
  · rintro ⟨items, hne, hmem, hheld⟩
    exact ⟨items, hne, hmem, hheld.mono more⟩
  · rintro ⟨t, items, hlisted, hrecord⟩
    exact ⟨t, items, hlisted.mono more, hrecord⟩

theorem Fresh.restarted (h : Fresh first tries w) : Fresh first tries w.restarted :=
  ⟨.inl rfl, h.file⟩

theorem Fresh.setClock (h : Fresh first tries w) (now : Instant D) :
    Fresh first tries (setClock now w) :=
  ⟨h.mem, h.file⟩

theorem Fresh.load (h : Fresh first tries w) (fails : Bool) :
    Store.load D cacheFile .null fails w.files = .null ∨ ∃ t items, Listed first tries t items ∧
      Store.load D cacheFile .null fails w.files = record t items := by
  obtain hnull | hsome := load_cacheFile (D := D) fails w.files
  · exact .inl hnull
  · obtain hnone | ⟨t, items, hlisted, hrecord⟩ := h.file
    · rw [hnone] at hsome
      cases hsome
    · rw [hrecord] at hsome
      exact .inr ⟨t, items, hlisted, (Option.some.inj hsome).symm⟩

theorem yields_remembered {items : List Json} {now : Instant D} {p : Step D Json} {w' : World D}
    (hrun : p.run w = (.ok (.arr items), { w' with mem := .arr items, memAt := now.value }))
    (hne : items ≠ []) (hheld : Held first tries now.value items)
    (hfile : Fresh first tries w') : Yields first tries now.value p w :=
  ⟨items, _, hrun, hne, ⟨now.value, by norm_num, hheld⟩, .inr ⟨items, hne, rfl, hheld⟩, hfile.file⟩

theorem yields_refresh (h : Fresh first tries w) {q : Query} (hq : q.Storable D) (now : Instant D)
    {cached : Json} (hcached : cached = .null ∨ ∃ t items, Listed first tries t items ∧
      cached = record t items) :
    Yields first (tries ++ [(now, download D q.response)]) now.value (refresh now cached q) w := by
  have hmore := h.mono [(now, download D q.response)]
  have hlast : (now, download D q.response) ∈ tries ++ [(now, download D q.response)] :=
    List.mem_append_right _ (List.mem_singleton_self _)
  generalize htries : tries ++ [(now, download D q.response)] = tries' at hmore hlast ⊢
  by_cases hd : download D q.response = []
  · -- the provider gave nothing, so whatever there is may be remembered
    have hheld : ∀ items, Held first tries' now.value items := fun items =>
      .inr ⟨now, hd ▸ hlast, rfl⟩
    obtain rfl | ⟨t, items, ⟨hne, -⟩, rfl⟩ := hcached
    · refine yields_remembered ?_ (by simp [fallback]) (hheld fallback) hmore
      rw [refresh, if_pos hd]
      rfl
    · refine yields_remembered ?_ hne (hheld items) hmore
      rw [refresh, if_pos hd, if_pos (truthy_record t items), (getOr_record t items _).2,
        run_bind_ok (Script.run_lift _ _), if_pos (truthy_arr hne)]
      rfl
  · have hlisted : Listed first tries' now (download D q.response) := ⟨hd, .inr hlast⟩
    have hheld : Held first tries' now.value (download D q.response) :=
      .inl ⟨now, hlisted, by norm_num [cacheTtl]⟩
    have hsaved : Fresh first tries' { w with
        files := Store.save cacheFile (record now (download D q.response)) q.outcome w.files } := by
      refine ⟨hmore.mem, ?_⟩
      obtain hsame | hnone | hsome := shelfOf_saved hq now w.files
      · rw [hsame]
        exact hmore.file
      · exact .inl hnone
      · exact .inr ⟨now, _, hlisted, hsome⟩
    refine yields_remembered ?_ hd hheld hsaved
    rw [refresh, if_neg hd]
    rfl

theorem Yields.of_run {now : ℚ} {p p' : Step D Json} (h : Yields first tries now p w)
    (hrun : p'.run w = p.run w) : Yields first tries now p' w := by
  obtain ⟨items, w', hp, hrest⟩ := h
  exact ⟨items, w', hrun.trans hp, hrest⟩

theorem younger_json (now : ℚ) (t : Instant D) :
    younger now t.json = .ok (decide (now - t.value < cacheTtl)) := rfl

theorem youngFile_record (now : ℚ) {t : Instant D} {items : List Json} (hne : items ≠ []) :
    youngFile now (record t items) = decide (now - t.value < cacheTtl) := by
  simp only [youngFile, (getOr_record t items _).1, (getOr_record t items _).2, truthy_arr hne,
    Bool.true_and, younger_json]
  rfl

/-- A lookup that does not take the list of the memory. -/
theorem yields_fromFile (h : Fresh first tries w) {r : Request} (hq : r.query.Storable D)
    (hasks : asks r w = (r.force ||
      !youngFile w.clock.value (Store.load D cacheFile .null r.query.fails w.files))) :
    Yields first (tries ++ attempt r w) w.clock.value (fromFile w.clock r.force r.query) w := by
  have hload := h.load r.query.fails
  have hread : (Script.read fun w => Store.load D cacheFile .null r.query.fails w.files :
      Step D Json).run w = (.ok (Store.load D cacheFile .null r.query.fails w.files), w) := rfl
  generalize Store.load D cacheFile .null r.query.fails w.files = cached at hload hread hasks
  have hrefresh : asks r w = true →
      Yields first (tries ++ attempt r w) w.clock.value (refresh w.clock cached r.query) w := by
    intro hasked
    rw [attempt, if_pos hasked]
    exact yields_refresh h hq w.clock hload
  have hstart : (fromFile w.clock r.force r.query).run w = _ := run_bind_ok hread _
  by_cases hforce : r.force = true
  · refine (hrefresh (by rw [hasks, hforce, Bool.true_or])).of_run ?_
    rw [hstart, if_neg (by simp [hforce])]
  · obtain rfl | ⟨t, items, hlisted, rfl⟩ := hload
    · refine (hrefresh (by rw [hasks]; simp [youngFile, getOr])).of_run ?_
      rw [hstart, if_neg (by simp [Json.truthy])]
    · have hrecord : ((record t items).truthy && !r.force) = true := by simp [hforce]
      rw [youngFile_record _ hlisted.1] at hasks
      rw [if_pos hrecord, (getOr_record t items _).1, (getOr_record t items _).2,
        run_bind_ok (Script.run_lift _ _), run_bind_ok (Script.run_lift _ _),
        if_pos (truthy_arr hlisted.1), younger_json, run_bind_ok (Script.run_lift _ _)] at hstart
      by_cases hyoung : w.clock.value - t.value < cacheTtl
      · -- the list of the file is young enough, and nothing is asked for
        rw [if_pos (by simpa using hyoung)] at hstart
        have hnone : attempt r w = [] := by
          rw [attempt, hasks]
          simp [hforce, hyoung]
        rw [hnone, List.append_nil]
        refine yields_remembered ?_ hlisted.1 (.inl ⟨t, hlisted, hyoung⟩) h
        rw [hstart]
        rfl
      · rw [if_neg (by simpa using hyoung)] at hstart
        exact (hrefresh (by rw [hasks]; simp [hyoung])).of_run hstart

theorem yields_loadUniverse (h : Fresh first tries w) {r : Request} (hq : r.query.Storable D) :
    Yields first (tries ++ attempt r w) w.clock.value (program r 0) w := by
  have hrun := run_program r w
  by_cases hmem : (w.mem.truthy && !r.force && decide (w.clock.value - w.memAt < 3600)) = true
  · rw [if_pos hmem] at hrun
    simp only [Bool.and_eq_true, Bool.not_eq_true', decide_eq_true_eq] at hmem
    obtain ⟨⟨htruthy, hforce⟩, hage⟩ := hmem
    have hnone : attempt r w = [] := by simp [attempt, asks, htruthy, hforce, hage]
    rw [hnone, List.append_nil]
    obtain hnull | ⟨items, hne, hitems, hheld⟩ := h.mem
    · simp [hnull, Json.truthy] at htruthy
    · rw [hitems] at hrun
      exact ⟨items, w, hrun, hne, ⟨w.memAt, hage, hheld⟩, h⟩
  · rw [if_neg hmem] at hrun
    refine (yields_fromFile h hq ?_).of_run hrun
    cases hforce : r.force with
    | true => simp [asks, hforce]
    | false =>
      have hold : (w.mem.truthy && decide (w.clock.value - w.memAt < 3600)) = false := by
        simpa [hforce] using hmem
      simp [asks, hforce, hold]

theorem Fresh.inTurn (h : Fresh first tries w) (turns : List (Turn D))
    (hturns : ∀ now r, Turn.lookup now r ∈ turns → r.query.Storable D) :
    Fresh first (tries ++ attempts turns w) (inTurn turns w) := by
  induction turns generalizing tries w with
  | nil => exact h.mono _
  | cons turn turns ih =>
    have hrest : ∀ now r, Turn.lookup now r ∈ turns → r.query.Storable D :=
      fun now r hr => hturns now r (List.mem_cons_of_mem _ hr)
    cases turn with
    | restart => exact ih h.restarted hrest
    | lookup now r =>
      obtain ⟨items, w', hrun, -, -, hfresh⟩ :=
        yields_loadUniverse (h.setClock now) (hturns now r List.mem_cons_self)
      have hnext : Turn.run w (.lookup now r) = w' := congrArg Prod.snd hrun
      have hdone := ih hfresh hrest
      rw [List.append_assoc, ← hnext] at hdone
      exact hdone

end Fresh

/-- **As long as lookups do not overlap, a list older than seven days and an hour, or the built-in one,
is served only in the hour after a download that failed**, also across restarts of the process and
writes of the file that were interrupted. -/
theorem universe_fresh (w : World D) (hfile : FileOk w) (turns : List (Turn D))
    (hturns : ∀ now r, Turn.lookup now r ∈ turns → r.query.Storable D) (now : Instant D) (r : Request)
    (hr : r.query.Storable D) :
    let w' := setClock now (inTurn turns w.restarted)
    let tries := attempts turns w.restarted ++ attempt r w'
    ∃ items, ((program r 0).run w').1 = .ok (.arr items) ∧ items ≠ [] ∧
      ((∃ t, (shelfOf D w.files cacheFile = some (record t items) ∨ (t, items) ∈ tries) ∧
          now.value - t.value < cacheTtl + 3600) ∨
        ∃ t : Instant D, (t, []) ∈ tries ∧ now.value - t.value < 3600) := by
  intro w' tries
  have hstart : Fresh (shelfOf D w.files cacheFile) [] w.restarted := by
    refine ⟨.inl rfl, hfile.imp id ?_⟩
    rintro ⟨t, items, hne, hrecord⟩
    exact ⟨t, items, ⟨hne, .inl hrecord⟩, hrecord⟩
  have hfresh := (hstart.inTurn turns hturns).setClock now
  obtain ⟨items, w'', hrun, hne, ⟨since, hhour, hheld⟩, -⟩ := yields_loadUniverse hfresh hr
  refine ⟨items, congrArg Prod.fst hrun, hne, ?_⟩
  obtain ⟨t, ⟨-, hlisted⟩, hage⟩ | ⟨t, ht, rfl⟩ := hheld
  · have hclock : now.value - since < 3600 := hhour
    exact .inl ⟨t, hlisted, by linarith⟩
  · exact .inr ⟨t, ht, hhour⟩

theorem run_answered {w : World oneFloat} (hclock : w.clock = zero) :
    (loadUniverse true answered).run w = (.ok (.arr [rowFund]),
      { w with
        files := Store.save cacheFile (record zero [rowFund]) .written w.files
        mem := .arr [rowFund]
        memAt := 0 }) := by
  have hsteps : (loadUniverse true answered).ahead 6 w =
      ((loadUniverse true answered).ahead 1 w).1.ahead 5 w := rfl
  exact Script.run_of_ahead (hsteps.trans (ahead_answered hclock w))

/-- The list of a file that was saved before the process started, a restart, a new list, and a lookup
that takes it from the memory. -/
theorem universe_fresh_downloaded :
    let w : World oneFloat := { clock := zero, files := stored, mem := .null, memAt := 0 }
    let found : Request := { force := false, query := unanswered }
    let turns := [.lookup zero found, .restart, .lookup zero { force := true, query := answered }]
    let w' := setClock zero (inTurn turns w.restarted)
    let tries := attempts turns w.restarted ++ attempt found w'
    ((program found 0).run w').1 = .ok (.arr [rowFund]) ∧
      ((∃ t, (shelfOf oneFloat stored cacheFile = some (record t [rowFund]) ∨ (t, [rowFund]) ∈ tries) ∧
          zero.value - t.value < cacheTtl + 3600) ∨
        ∃ t : Instant oneFloat, (t, []) ∈ tries ∧ zero.value - t.value < 3600) := by
  intro w found turns w' tries
  have hload : Store.load oneFloat cacheFile .null false stored = record zero kept := by
    rw [Store.load_eq, shelfOf_stored]
    rfl
  have hfirst : (Turn.run w.restarted (.lookup zero found)).restarted = w.restarted := by
    have hrun : (program found 0).run (setClock zero w.restarted) = _ :=
      Script.run_of_ahead (ahead_stored 0 hload)
    rw [Turn.run, hrun]
    rfl
  have hforced : (program { force := true, query := answered } 0).run w = _ := run_answered rfl
  have hmem : w'.mem = .arr [rowFund] ∧ w'.memAt = 0 := by
    have hturns : w' = setClock zero ((program { force := true, query := answered } 0).run
        (setClock zero (Turn.run w.restarted (.lookup zero found)).restarted)).2 := rfl
    have hclock : setClock zero w.restarted = w := rfl
    rw [hturns, hfirst, hclock, hforced]
    exact ⟨rfl, rfl⟩
  have hserved : ((program found 0).run w').1 = .ok (.arr [rowFund]) := by
    have htime : w'.clock.value = 0 := rfl
    rw [run_program, hmem.1, hmem.2, htime, truthy_arr (by simp), if_pos (by simp [found])]
  have hturns : ∀ now r, Turn.lookup now r ∈ turns → r.query.Storable oneFloat := by
    intro now r hr
    obtain ⟨-, rfl⟩ | ⟨-, rfl⟩ : (now = zero ∧ r = found) ∨
        (now = zero ∧ r = { force := true, query := answered }) := by simpa [turns] using hr
    · exact storable_unanswered
    · exact storable_answered
  obtain ⟨items, hrun, -, hage⟩ := universe_fresh w
    (.inr ⟨zero, kept, by simp [kept], shelfOf_stored⟩) turns hturns zero found storable_unanswered
  have hitems : items = [rowFund] := by
    have hsame := hrun.symm.trans hserved
    cases hsame
    rfl
  exact ⟨hserved, hitems ▸ hage⟩

end QuantFlow.Universe
