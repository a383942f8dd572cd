/-
**Maps whose entries expire, and reads that drop them.**

An entry of the map carries a deadline; a read at or after the deadline finds nothing.  Such a map
need not do anything when a deadline passes.  One that does, by dropping an expired entry when it is
read, differs from the one that keeps everything, but only in entries that no later read would find.
So as long as time does not run backwards the two answer alike, and the answer to a read is decided
by the last event that concerned its key.

Main definitions:

* `live` — what a read finds in an entry;
* `Event` — the events: storing, dropping, dropping everything, and reading;
* `keep`, `evict` — a map that keeps everything, and one whose reads drop what has expired;
* `AgreesFrom` — two maps answer all reads from a time on alike.

Main results:

* `agreesFrom_run` — **after any history the two maps answer alike**;
* `runKeep_eq_some_iff` — **an entry is what the last event of its key stored**.
-/

import Mathlib.Data.List.Induction
import Mathlib.Order.Lattice
import QuantFlow.GuardedRuns

namespace ExpiringMap

variable {K V T : Type} [DecidableEq K] [LinearOrder T]

/-- Under a key a value and its deadline. -/
abbrev Store (K V T : Type) := K → Option (V × T)

/-- What a read at `now` finds in an entry. -/
def live (now : T) (item : Option (V × T)) : Option V :=
  item.bind fun p => if p.2 ≤ now then none else some p.1

inductive Event (K V T : Type)
  | put (k : K) (v : V) (deadline : T)
  | drop (k : K)
  | wipe
  | look (k : K)

/-- The event stores or drops the entry of the key. -/
def Event.touches (k : K) : Event K V T → Bool
  | .put k' _ _ => k' = k
  | .drop k' => k' = k
  | .wipe => true
  | .look _ => false

/-- A map that keeps everything. -/
def keep (s : Store K V T) : Event K V T → Store K V T
  | .put k v deadline => Function.update s k (some (v, deadline))
  | .drop k => Function.update s k none
  | .wipe => fun _ => none
  | .look _ => s

/-- A map whose reads drop what has expired. -/
def evict (now : T) (s : Store K V T) : Event K V T → Store K V T
  | .look k => if live now (s k) = none then Function.update s k none else s
  | e => keep s e

def runKeep (s : Store K V T) (history : List (T × Event K V T)) : Store K V T :=
  history.foldl (fun s e => keep s e.2) s

/-! ### What a read finds -/

section Live

omit [DecidableEq K]

@[simp] theorem live_none (now : T) : live now (none : Option (V × T)) = none := rfl

theorem live_some (now : T) (v : V) (deadline : T) :
    live now (some (v, deadline)) = if deadline ≤ now then none else some v := rfl

theorem live_eq_some_iff {now : T} {item : Option (V × T)} {v : V} :
    live now item = some v ↔ ∃ deadline, item = some (v, deadline) ∧ now < deadline := by
  cases item with
  | none => simp
  | some p =>
    obtain ⟨v', deadline⟩ := p
    rw [live_some]
    split
    · rename_i h
      simp [not_lt.2 h]
    · rename_i h
      simp [not_le.1 h]

theorem live_none_mono {now t : T} {item : Option (V × T)} (h : live now item = none)
    (hle : now ≤ t) : live t item = none := by
  cases item with
  | none => rfl
  | some p =>
    obtain ⟨v, deadline⟩ := p
    rw [live_some] at h ⊢
    split at h
    · rename_i hpast
      exact if_pos (hpast.trans hle)
    · cases h

end Live

/-! ### Two maps -/

/-- The two maps answer all reads from `now` on alike. -/
def AgreesFrom (now : T) (s s' : Store K V T) : Prop :=
  ∀ k t, now ≤ t → live t (s k) = live t (s' k)

theorem agreesFrom_update {now : T} {s s' : Store K V T} (h : AgreesFrom now s s') (k : K)
    (item : Option (V × T)) :
    AgreesFrom now (Function.update s k item) (Function.update s' k item) := by
  intro k' t ht
  by_cases hk : k' = k
  · rw [hk, Function.update_self, Function.update_self]
  · rw [Function.update_of_ne hk, Function.update_of_ne hk]
    exact h k' t ht

/-- An event at `now` leaves two maps that answer alike from `now` on alike. -/
theorem agreesFrom_keep {now : T} {s s' : Store K V T} (h : AgreesFrom now s s')
    (e : Event K V T) : AgreesFrom now (keep s e) (keep s' e) := by
  cases e with
  | put k v deadline => exact agreesFrom_update h k _
  | drop k => exact agreesFrom_update h k none
  | wipe => exact fun k t ht => rfl
  | look k => exact h

/-- What an event drops, no later read would find. -/
theorem agreesFrom_evict (now : T) (s : Store K V T) (e : Event K V T) :
    AgreesFrom now (evict now s e) (keep s e) := by
  cases e with
  | put k v deadline => exact fun k t ht => rfl
  | drop k => exact fun k t ht => rfl
  | wipe => exact fun k t ht => rfl
  | look k =>
    intro k' t ht
    simp only [evict, keep]
    split
    · rename_i hexpired
      by_cases hk : k' = k
      · rw [hk, Function.update_self, live_none, live_none_mono hexpired ht]
      · rw [Function.update_of_ne hk]
    · rfl

/-- **After any history whose times do not run backwards the two maps answer alike.** -/
theorem agreesFrom_run {s s' : Store K V T} {history : List (T × Event K V T)} {t : T}
    (hs : ∀ now, AgreesFrom now s s') (hsorted : history.Pairwise fun e e' => e.1 ≤ e'.1)
    (hlast : ∀ e ∈ history, e.1 ≤ t) :
    AgreesFrom t (history.foldl (fun s e => evict e.1 s e.2) s) (runKeep s' history) := by
  -- the induction is on the end of the history, the time of its last event taking the place of `t`
  induction history using List.reverseRecOn generalizing t with
  | nil => exact hs t
  | append_singleton history e ih =>
    rw [List.pairwise_append] at hsorted
    have hbefore : AgreesFrom e.1 (history.foldl (fun s e => evict e.1 s e.2) s)
        (runKeep s' history) :=
      ih hsorted.1 fun e' he' => hsorted.2.2 e' he' e (List.mem_singleton_self e)
    have hnow : e.1 ≤ t := hlast e (List.mem_append_right _ (List.mem_singleton_self e))
    rw [runKeep, List.foldl_append, List.foldl_append]
    intro k t' ht'
    rw [List.foldl_cons, List.foldl_nil, List.foldl_cons, List.foldl_nil,
      agreesFrom_evict e.1 _ e.2 k t' (hnow.trans ht')]
    exact agreesFrom_keep hbefore e.2 k t' (hnow.trans ht')

/-! ### The last event of a key -/

section Last

omit [LinearOrder T]

theorem keep_of_not_touches {s : Store K V T} {e : Event K V T} {k : K}
    (h : e.touches k = false) : keep s e k = s k := by
  cases e with
  | put k' v deadline | drop k' =>
    have hne : k ≠ k' := fun heq => by simp [Event.touches, heq] at h
    exact Function.update_of_ne hne _ s
  | wipe => simp [Event.touches] at h
  | look k' => rfl

theorem keep_eq_some_of_touches {s : Store K V T} {e : Event K V T} {k : K} {v : V} {deadline : T}
    (h : e.touches k = true) : keep s e k = some (v, deadline) ↔ e = .put k v deadline := by
  cases e with
  | put k' v' deadline' | drop k' =>
    obtain rfl : k' = k := by simpa [Event.touches] using h
    simp [keep]
  | wipe => simp [keep]
  | look k' => cases h

/-- **An entry is what the last event of its key stored.** -/
theorem runKeep_eq_some_iff {history : List (T × Event K V T)} {k : K} {v : V} {deadline : T} :
    runKeep (fun _ => none) history k = some (v, deadline) ↔
      ∃ earlier t later, history = earlier ++ (t, .put k v deadline) :: later ∧
        ∀ e ∈ later, e.2.touches k = false := by
  induction history using List.reverseRecOn with
  | nil => simp [runKeep]
  | append_singleton history e ih =>
    rw [runKeep, List.foldl_append, List.foldl_cons, List.foldl_nil]
    cases htouches : e.2.touches k with
    | false =>
      rw [keep_of_not_touches htouches]
      refine ih.trans ?_
      constructor
      · rintro ⟨earlier, t, later, rfl, hlater⟩
        refine ⟨earlier, t, later ++ [e], by simp, ?_⟩
        intro e' he'
        rcases List.mem_append.1 he' with h | h
        · exact hlater e' h
        · rw [List.mem_singleton.1 h]
          exact htouches
      · rintro ⟨earlier, t, later, heq, hlater⟩
        rcases Runs.split_concat heq with ⟨-, hput⟩ | ⟨rest, hrest, rfl⟩
        · rw [← hput] at htouches
          simp [Event.touches] at htouches
        · exact ⟨earlier, t, rest, hrest, fun e' he' => hlater e' (List.mem_append_left _ he')⟩
    | true =>
      rw [keep_eq_some_of_touches htouches]
      constructor
      · intro hput
        refine ⟨history, e.1, [], ?_, by simp⟩
        rw [← hput]
      · rintro ⟨earlier, t, later, heq, hlater⟩
        rcases Runs.split_concat heq with ⟨-, hput⟩ | ⟨rest, -, rfl⟩
        · rw [← hput]
        · rw [hlater e (List.mem_append_right _ (List.mem_singleton_self e))] at htouches
          cases htouches

end Last

end ExpiringMap
