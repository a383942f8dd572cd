/-
**The stored news sources.**

`backend/app/news.py` keeps the sources a user has added in one JSON file.  `add_source` and
`remove_source` read the whole file, change the list and write it back; `backend/app/store.py` takes
the lock for the read and again for the write, but not in between.  A read that fails gives the empty
list, and a write that fails is ignored.  `write_text` empties the file before it encodes the text, so
a write that fails may also leave a file that no longer holds any list.

So an addition can be lost to another call that read before it, and a call that could not read writes
a list without the sources that were stored.  Nothing is lost if every write finds only sources that
its call had read, and only the writes of removals fail, before they touch the file.

Main definitions:

* `addSource`, `removeSource` — the calls, from read to write;
* `step` — one locked read or write of any of the calls in progress;
* `NothingLost` — what the stored list keeps along a run.

Main results:

* `distinct_run` — the addresses stored are always distinct;
* `nothingLost_of_timely` — **nothing is lost if the writes are timely**.
-/

import Mathlib.Data.List.Nodup
import QuantFlow.GuardedRuns
import QuantFlow.PyValues

namespace QuantFlow.Sources

open Py (Str)
open Runs (Trace Transition)

/-! ### The file -/

structure UserSource where
  name : Str
  url : Str
  type : Str
  deriving DecidableEq

/-- The text of a source has a UTF-8 form. -/
def UserSource.encodable (s : UserSource) : Bool :=
  Str.encodable s.name && Str.encodable s.url && Str.encodable s.type

/-- `news_sources.json`: not there, with a list, or cut short by a failed write. -/
inductive File
  | missing
  | stored (sources : List UserSource)
  | torn
  deriving DecidableEq

/-- `store.load(SOURCES_FILE, [])`, if the read does not fail; `list_sources()`. -/
def File.load : File → List UserSource
  | .missing => []
  | .stored sources => sources
  | .torn => []

/-- How `store.save` ends: with the list written, before the file was touched, or after it was
emptied. -/
inductive WriteOutcome
  | written
  | refused
  | torn
  deriving DecidableEq

/-! ### The calls -/

inductive Change
  | add (item : UserSource)
  | remove (url : Str)
  deriving DecidableEq

/-- A call between its read and its write: what it is about, and the list it read. -/
structure Pending where
  change : Change
  data : List UserSource
  deriving DecidableEq

/-- The list a call writes back. -/
def Pending.list (p : Pending) : List UserSource :=
  match p.change with
  | .add item => p.data ++ [item]
  | .remove url => p.data.filter fun s => s.url ≠ url

/-- `add_source(name, url, stype)` up to its write. -/
def addSource (name url stype : Str) (data : List UserSource) : Except String Pending :=
  if url = [] then .error "新闻源地址不能为空"
  else if data.any fun s => s.url = url then .error "该新闻源已存在"
  else
    let item := { name := if name = [] then url.take 30 else name, url := url, type := stype }
    .ok { change := .add item, data := data }

/-- `remove_source(url)` up to its write; `none` if it returns `False`. -/
def removeSource (url : Str) (data : List UserSource) : Option Pending :=
  let left := data.filter fun s => s.url ≠ url
  if left.length = data.length then none else some { change := .remove url, data := data }

/-! ### Calls in progress -/

/-- The file and, by thread, the calls that have read and not yet written. -/
structure World where
  file : File
  pending : ℕ → Option Pending

def World.start (file : File) : World := { file := file, pending := fun _ => none }

/-- A locked read that begins a call, and may fail, or the locked write that ends one. -/
inductive Action
  | add (thread : ℕ) (name url stype : Str) (fails : Bool)
  | remove (thread : ℕ) (url : Str) (fails : Bool)
  | write (thread : ℕ) (outcome : WriteOutcome)
  deriving DecidableEq

/-- What a call reads. -/
def World.read (w : World) (fails : Bool) : List UserSource :=
  if fails then [] else w.file.load

/-- A call begins in a thread that is free; without a write to come it has ended. -/
def World.begin (w : World) (thread : ℕ) (p : Option Pending) : Option World :=
  match w.pending thread with
  | none => some { w with pending := Function.update w.pending thread p }
  | some _ => none

/-- The file after the write of a call. -/
def Pending.save (p : Pending) (file : File) : WriteOutcome → File
  | .written => .stored p.list
  | .refused => file
  | .torn => .torn

/-- A call ends with its write; a list with text that has no UTF-8 form cannot be written. -/
def World.finish (w : World) (thread : ℕ) (outcome : WriteOutcome) : Option World :=
  match w.pending thread with
  | none => none
  | some p =>
    if outcome = .written && !p.list.all UserSource.encodable then none
    else some { file := p.save w.file outcome,
                pending := Function.update w.pending thread none }

def step (a : Action) (w : World) : Option World :=
  match a with
  | .add thread name url stype fails =>
    w.begin thread (addSource name url stype (w.read fails)).toOption
  | .remove thread url fails => w.begin thread (removeSource url (w.read fails))
  | .write thread outcome => w.finish thread outcome

/-- The step returns a source from `add_source`. -/
def Adds (w : World) (a : Action) (item : UserSource) : Prop :=
  ∃ thread outcome data, a = .write thread outcome ∧ w.pending thread = some ⟨.add item, data⟩

/-- The step returns `True` from `remove_source`. -/
def Removes (w : World) (a : Action) (url : Str) : Prop :=
  ∃ thread outcome data, a = .write thread outcome ∧ w.pending thread = some ⟨.remove url, data⟩

/-! ### What a step does -/

theorem begin_eq_some {w w' : World} {thread : ℕ} {p : Option Pending} :
    w.begin thread p = some w' ↔
      w.pending thread = none ∧ w' = { w with pending := Function.update w.pending thread p } := by
  unfold World.begin
  cases w.pending thread with
  | none => simp [eq_comm]
  | some q => simp

theorem finish_eq_some {w w' : World} {thread : ℕ} {outcome : WriteOutcome}
    (h : w.finish thread outcome = some w') :
    ∃ p, w.pending thread = some p ∧
      w' = { file := p.save w.file outcome, pending := Function.update w.pending thread none } := by
  unfold World.finish at h
  cases hp : w.pending thread with
  | none =>
    rw [hp] at h
    cases h
  | some p =>
    simp only [hp] at h
    split at h
    · cases h
    · exact ⟨p, rfl, (Option.some.inj h).symm⟩

/-- A step leaves the file as it is, or is the write of a call. -/
theorem step_cases {a : Action} {w w' : World} (h : step a w = some w') :
    (∃ thread p, (∀ i outcome, a ≠ .write i outcome) ∧
        (∀ q, p = some q → ∃ fails, q.data = w.read fails ∧
          ∀ item, q.change = .add item → ∀ s ∈ q.data, s.url ≠ item.url) ∧
        w' = { w with pending := Function.update w.pending thread p }) ∨
      ∃ thread outcome p, a = .write thread outcome ∧ w.pending thread = some p ∧
        w' = { file := p.save w.file outcome, pending := Function.update w.pending thread none } := by
  cases a with
  | add thread name url stype fails =>
    obtain ⟨-, rfl⟩ := begin_eq_some.1 h
    refine .inl ⟨thread, _, nofun, ?_, rfl⟩
    intro q hq
    unfold addSource at hq
    split at hq
    · cases hq
    · split at hq
      · cases hq
      · rename_i hnew
        cases hq
        refine ⟨fails, rfl, fun item hitem s hs => ?_⟩
        cases hitem
        simp only [List.any_eq_true, decide_eq_true_eq, not_exists, not_and] at hnew
        exact hnew s hs
  | remove thread url fails =>
    obtain ⟨-, rfl⟩ := begin_eq_some.1 h
    refine .inl ⟨thread, _, nofun, ?_, rfl⟩
    intro q hq
    simp only [removeSource] at hq
    split at hq
    · cases hq
    · cases hq
      exact ⟨fails, rfl, nofun⟩
  | write thread outcome =>
    obtain ⟨p, hp, rfl⟩ := finish_eq_some h
    exact .inr ⟨thread, outcome, p, rfl, hp, rfl⟩

/-! ### Distinct addresses -/

/-- The addresses stored are distinct, and so are those of every list about to be written. -/
structure Distinct (w : World) : Prop where
  stored : (w.file.load.map UserSource.url).Nodup
  written : ∀ i p, w.pending i = some p → (p.list.map UserSource.url).Nodup

theorem nodup_list {p : Pending} (hdata : (p.data.map UserSource.url).Nodup)
    (hnew : ∀ item, p.change = .add item → ∀ s ∈ p.data, s.url ≠ item.url) :
    (p.list.map UserSource.url).Nodup := by
  obtain ⟨change, data⟩ := p
  cases change with
  | add item =>
    simp only [Pending.list, List.map_append, List.map_singleton]
    refine List.nodup_append.2 ⟨hdata, List.nodup_singleton _, fun u hu v hv => ?_⟩
    obtain ⟨s, hs, rfl⟩ := List.mem_map.1 hu
    rw [List.mem_singleton.1 hv]
    exact hnew item rfl s hs
  | remove url => exact hdata.sublist (List.filter_sublist.map _)

theorem distinct_step {a : Action} {w w' : World} (h : Distinct w) (hstep : step a w = some w') :
    Distinct w' := by
  obtain ⟨thread, p, -, hp, rfl⟩ | ⟨thread, outcome, p, -, hp, rfl⟩ := step_cases hstep
  · refine ⟨h.stored, fun i q hq => ?_⟩
    by_cases hi : i = thread
    · subst hi
      simp only [Function.update_self] at hq
      obtain ⟨fails, hread, hnew⟩ := hp q hq
      refine nodup_list ?_ hnew
      rw [hread, World.read]
      split
      · exact List.nodup_nil
      · exact h.stored
    · simp only [Function.update_of_ne hi] at hq
      exact h.written i q hq
  · constructor
    · cases outcome with
      | written => exact h.written thread p hp
      | refused => exact h.stored
      | torn => exact List.nodup_nil
    · intro i q hq
      by_cases hi : i = thread
      · subst hi
        simp at hq
      · simp only [Function.update_of_ne hi] at hq
        exact h.written i q hq

/-- **The addresses stored are always distinct.** -/
theorem distinct_run (actions : List Action) {file : File} {t : Trace World Action}
    (hfile : (file.load.map UserSource.url).Nodup)
    (hrun : Runs.run (Runs.traced step) actions (.start (.start file)) = some t) :
    Distinct t.now := by
  refine Runs.traced_invariant (P := fun _ w => Distinct w) (fun _ s a s' hs _ => distinct_step hs)
    actions ?_ (Runs.disciplined_true step actions _) hrun
  exact ⟨hfile, nofun⟩

/-! ### What is kept -/

/-- No source is lost along a run: one that was added is listed unless a removal of its address
returned `True` later, the addresses listed are distinct, a write that fails leaves the list as it was,
and no call, whether or not it could read, loses a source it did not remove. -/
structure NothingLost (t : Trace World Action) : Prop where
  added : ∀ earlier x later item, t.past = earlier ++ x :: later → Adds x.source x.action item →
    (∀ z ∈ later, ¬ Removes z.source z.action item.url) → item ∈ t.now.file.load
  distinct : (t.now.file.load.map UserSource.url).Nodup
  failedWrites : ∀ x ∈ t.past, ∀ thread outcome, x.action = .write thread outcome →
    outcome ≠ .written → x.target.file.load = x.source.file.load
  stored : ∀ x ∈ t.past, ∀ s ∈ x.source.file.load, ¬ Removes x.source x.action s.url →
    s ∈ x.target.file.load

/-- A write finds only sources that its call had read, or it fails before it touches the file and its
call is a removal. -/
def timely (w : World) : Action → Bool
  | .write thread outcome =>
    (w.pending thread).all fun p =>
      match outcome with
      | .written => w.file.load.all fun s => s ∈ p.data
      | .refused => match p.change with
        | .add _ => false
        | .remove _ => true
      | .torn => false
  | _ => true

theorem timely_write {w : World} {thread : ℕ} {outcome : WriteOutcome} {p : Pending}
    (hp : w.pending thread = some p) (h : timely w (.write thread outcome) = true) :
    (outcome = .written ∧ ∀ s ∈ w.file.load, s ∈ p.data) ∨
      outcome = .refused ∧ ∃ url, p.change = .remove url := by
  obtain ⟨change, data⟩ := p
  simp only [timely, hp, Option.all_some] at h
  cases outcome with
  | written => exact .inl ⟨rfl, by simpa using h⟩
  | refused =>
    cases change with
    | add item => cases h
    | remove url => exact .inr ⟨rfl, url, rfl⟩
  | torn => cases h

theorem mem_list {p : Pending} {s : UserSource} (hs : s ∈ p.data)
    (hkeep : ∀ url, p.change = .remove url → s.url ≠ url) : s ∈ p.list := by
  obtain ⟨change, data⟩ := p
  cases change with
  | add item => exact List.mem_append_left _ hs
  | remove url => exact List.mem_filter.2 ⟨hs, decide_eq_true (hkeep url rfl)⟩

theorem stored_step {a : Action} {w w' : World} (htimely : timely w a = true)
    (hstep : step a w = some w') {s : UserSource} (hs : s ∈ w.file.load)
    (hkept : ¬ Removes w a s.url) : s ∈ w'.file.load := by
  obtain ⟨thread, p, -, -, rfl⟩ | ⟨thread, outcome, p, rfl, hp, rfl⟩ := step_cases hstep
  · exact hs
  · rcases timely_write hp htimely with ⟨rfl, hread⟩ | ⟨rfl, -⟩
    · refine mem_list (hread s hs) fun url hurl heq => hkept ?_
      exact ⟨thread, _, p.data, rfl, by rw [hp, heq, ← hurl]⟩
    · exact hs

theorem added_step {a : Action} {w w' : World} (htimely : timely w a = true)
    (hstep : step a w = some w') {item : UserSource} (hadds : Adds w a item) :
    item ∈ w'.file.load := by
  obtain ⟨thread, outcome, data, rfl, hp⟩ := hadds
  obtain ⟨p, hp', rfl⟩ := finish_eq_some hstep
  obtain rfl : p = ⟨.add item, data⟩ := Option.some.inj (hp'.symm.trans hp)
  rcases timely_write hp htimely with ⟨rfl, -⟩ | ⟨-, url, hurl⟩
  · exact List.mem_append_right _ (List.mem_singleton_self _)
  · cases hurl

theorem load_of_failed_write {w w' : World} {thread : ℕ} {outcome : WriteOutcome}
    (htimely : timely w (.write thread outcome) = true)
    (hstep : step (.write thread outcome) w = some w') (hfailed : outcome ≠ .written) :
    w'.file.load = w.file.load := by
  obtain ⟨p, hp, rfl⟩ := finish_eq_some hstep
  rcases timely_write hp htimely with ⟨rfl, -⟩ | ⟨rfl, -⟩
  · exact absurd rfl hfailed
  · rfl

/-- **Nothing is lost if the writes are timely.** -/
theorem nothingLost_of_timely (actions : List Action) {file : File} {t : Trace World Action}
    (hfile : (file.load.map UserSource.url).Nodup)
    (htimely : Runs.disciplined step timely actions (.start file) = true)
    (hrun : Runs.run (Runs.traced step) actions (.start (.start file)) = some t) :
    NothingLost t := by
  have hpast {x : Transition World Action} (hx : x ∈ t.past) :
      timely x.source x.action = true ∧ step x.action x.source = some x.target := by
    obtain ⟨earlier, later, hsplit⟩ := List.append_of_mem hx
    exact (Runs.traced_past (P := fun _ _ => True) (fun _ _ _ _ _ _ _ => trivial) actions trivial
      htimely hrun hsplit).2
  refine ⟨?_, (distinct_run actions hfile hrun).stored, ?_, ?_⟩
  · -- what was added stays from the step that returned it to the end of the run
    refine Runs.traced_invariant (P := fun past w => ∀ earlier x later item,
      past = earlier ++ x :: later → Adds x.source x.action item →
      (∀ z ∈ later, ¬ Removes z.source z.action item.url) → item ∈ w.file.load) ?_ actions ?_
      htimely hrun
    · intro past w a w' hP hallowed hstep earlier x later item hsplit hadds hlater
      rcases Runs.split_concat hsplit with ⟨rfl, rfl⟩ | ⟨rest, hrest, rfl⟩
      · exact added_step hallowed hstep hadds
      · have hitem := hP earlier x rest item hrest hadds fun z hz =>
          hlater z (List.mem_append_left _ hz)
        exact stored_step hallowed hstep hitem
          (hlater _ (List.mem_append_right _ (List.mem_singleton_self _)))
    · intro earlier x later item hsplit
      simp at hsplit
  · rintro ⟨w, a, w'⟩ hx thread outcome rfl hfailed
    exact load_of_failed_write (hpast hx).1 (hpast hx).2 hfailed
  · intro x hx s hs hkept
    exact stored_step (hpast hx).1 (hpast hx).2 hs hkept

/-! Two sources. -/

def feed (name url : String) : UserSource :=
  { name := Str.ofString name, url := Str.ofString url, type := Str.ofString "rss" }

def first : UserSource := feed "A" "a.xml"

def second : UserSource := feed "B" "b.xml"

/-- The call that adds a source begins. -/
def adding (thread : ℕ) (s : UserSource) (fails : Bool) : Action :=
  .add thread s.name s.url s.type fails

/-- Two additions and a removal, one after the other; the last write is refused. -/
def inTurn : List Action :=
  [adding 1 first false, .write 1 .written, adding 2 second false, .write 2 .written,
    .remove 1 first.url false, .write 1 .refused]

theorem nothingLost_of_timely_inTurn :
    ∃ t, Runs.run (Runs.traced step) inTurn (.start (.start .missing)) = some t ∧
      t.now.file = .stored [first, second] ∧ NothingLost t := by
  have hfile : (File.missing.load.map UserSource.url).Nodup := List.nodup_nil
  exact ⟨_, rfl, rfl, nothingLost_of_timely inTurn hfile (by decide) rfl⟩

/-- Two additions read before either writes. -/
def crossed : List Action :=
  [adding 1 first false, adding 2 second false, .write 1 .written, .write 2 .written]

/-- The read of an addition fails. -/
def blind : List Action := [adding 1 second true, .write 1 .written]

/-- The write of an addition fails, with the file as it was or emptied. -/
def unsaved (outcome : WriteOutcome) : List Action := [adding 1 second false, .write 1 outcome]

/-- Without any failure an addition is lost to another one; an addition that cannot read replaces the
list; an addition that cannot write returns all the same, and may take the whole list with it. -/
theorem sources_lost :
    (∃ t, Runs.run (Runs.traced step) crossed (.start (.start .missing)) = some t ∧
        t.now.file = .stored [second] ∧ ¬ NothingLost t) ∧
      (∃ t, Runs.run (Runs.traced step) blind (.start (.start (.stored [first]))) = some t ∧
        t.now.file = .stored [second] ∧ ¬ NothingLost t) ∧
      (∃ t, Runs.run (Runs.traced step) (unsaved .refused) (.start (.start (.stored [first]))) = some t ∧
        t.now.file = .stored [first] ∧ ¬ NothingLost t) ∧
      ∃ t, Runs.run (Runs.traced step) (unsaved .torn) (.start (.start (.stored [first]))) = some t ∧
        t.now.file.load = [] ∧ ¬ NothingLost t := by
  refine ⟨⟨_, rfl, rfl, fun h => ?_⟩, ⟨_, rfl, rfl, fun h => ?_⟩, ⟨_, rfl, rfl, fun h => ?_⟩,
    ⟨_, rfl, rfl, fun h => ?_⟩⟩
  · have hmem := h.added [_, _] _ [_] first rfl ⟨1, .written, [], rfl, rfl⟩ ?_
    · revert hmem
      decide
    · intro z hz
      rw [List.mem_singleton.1 hz]
      rintro ⟨thread, outcome, data, hact, hp⟩
      cases hact
      cases hp
  · have hmem := h.stored _ (List.mem_cons_of_mem _ List.mem_cons_self) first List.mem_cons_self ?_
    · revert hmem
      decide
    · rintro ⟨thread, outcome, data, hact, hp⟩
      cases hact
      cases hp
  · have hmem := h.added [_] _ [] second rfl ⟨1, .refused, [first], rfl, rfl⟩ nofun
    revert hmem
    decide
  · have hmem := h.added [_] _ [] second rfl ⟨1, .torn, [first], rfl, rfl⟩ nofun
    revert hmem
    decide

end QuantFlow.Sources
