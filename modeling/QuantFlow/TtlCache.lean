/-
**The cache is a map with an expiry per key.**

`TTLCache` of `backend/app/cache.py` drops an expired item when it is looked up, so what it stores
depends on the lookups that were made.  What it answers does not: under a clock that does not run
backwards a lookup finds a value exactly if the last operation that wrote its key stored that value
and its time is not over.  Both follow from `QuantFlow/ExpiringMap.lean`, of which the cache is an
instance whose values may be `None`.

Main definitions:

* `has`, `delete`, `clear` — the other methods;
* `Op`, `run` — the operations, and a history of them;
* `Op.event` — an operation as an event of an expiring map.

Main results:

* `store_run` — the cache refines the map whose reads drop what has expired;
* `get_run_iff` — **what a lookup finds after a history**.
-/

import Mathlib.Tactic.NormNum
import QuantFlow.ExpiringMap
import QuantFlow.News

namespace QuantFlow

namespace TTLCache

variable {V : Type}

/-! ### The methods -/

/-- `TTLCache(default_ttl)`. -/
def new (defaultTtl : ℚ) : TTLCache V := { defaultTtl := defaultTtl, store := fun _ => none }

/-- `has(key)`. -/
def has (c : TTLCache V) (key : String) (now : ℚ) : Bool × TTLCache V :=
  let (value, c) := c.get key now
  (value.isSome, c)

/-- `delete(key)`. -/
def delete (c : TTLCache V) (key : String) : TTLCache V :=
  { c with store := Function.update c.store key none }

/-- `clear()`. -/
def clear (c : TTLCache V) : TTLCache V := { c with store := fun _ => none }

inductive Op (V : Type)
  | set (key : String) (value : Option V) (ttl : Option ℚ)
  | get (key : String)
  | has (key : String)
  | delete (key : String)
  | clear

/-- The operation is a lookup. -/
def Op.reads : Op V → Bool
  | .get _ => true
  | .has _ => true
  | _ => false

/-- The operation writes the item of the key. -/
def Op.writes (key : String) : Op V → Bool
  | .set key' _ _ => key' = key
  | .delete key' => key' = key
  | .clear => true
  | _ => false

/-- The cache after an operation at a time. -/
def step (c : TTLCache V) (e : ℚ × Op V) : TTLCache V :=
  match e.2 with
  | .set key value ttl => c.set key value ttl e.1
  | .get key => (c.get key e.1).2
  | .has key => (c.has key e.1).2
  | .delete key => c.delete key
  | .clear => c.clear

/-- The cache after a history. -/
def run (c : TTLCache V) (history : List (ℚ × Op V)) : TTLCache V := history.foldl step c

/-- How long an item is kept. -/
def lifetime (defaultTtl : ℚ) : Option ℚ → ℚ
  | none => defaultTtl
  | some ttl => max 0 ttl

/-! ### The cache as an expiring map -/

open ExpiringMap (live evict runKeep)

/-- The operation as an event; a set at `t` stores a deadline. -/
def Op.event (defaultTtl t : ℚ) : Op V → ExpiringMap.Event String (Option V) ℚ
  | .set key value ttl => .put key value (t + lifetime defaultTtl ttl)
  | .get key => .look key
  | .has key => .look key
  | .delete key => .drop key
  | .clear => .wipe

/-- The events of a history. -/
def events (defaultTtl : ℚ) (history : List (ℚ × Op V)) :
    List (ℚ × ExpiringMap.Event String (Option V) ℚ) :=
  history.map fun e => (e.1, e.2.event defaultTtl e.1)

theorem touches_event (defaultTtl t : ℚ) (op : Op V) (key : String) :
    (op.event defaultTtl t).touches key = op.writes key := by
  cases op <;> rfl

/-- A lookup finds what is live, and drops what is not. -/
theorem get_eq (c : TTLCache V) (key : String) (now : ℚ) :
    c.get key now =
      ((live now (c.store key)).join, { c with store := evict now c.store (.look key) }) := by
  unfold get
  cases hitem : c.store key with
  | none =>
    have hsame : Function.update c.store key none = c.store := by
      rw [← hitem, Function.update_eq_self]
    simp [evict, hitem, hsame]
  | some item =>
    obtain ⟨value, expireAt⟩ := item
    by_cases hexpired : expireAt ≤ now
    · simp [evict, hitem, ExpiringMap.live_some, hexpired]
    · simp [evict, hitem, ExpiringMap.live_some, hexpired]

theorem step_eq (c : TTLCache V) (e : ℚ × Op V) :
    c.step e = { c with store := evict e.1 c.store (e.2.event c.defaultTtl e.1) } := by
  obtain ⟨t, op⟩ := e
  cases op with
  | set key value ttl =>
    cases ttl with
    | none => rfl
    | some ttl => rfl
  | get key | has key => exact congrArg Prod.snd (get_eq c key t)
  | delete key => rfl
  | clear => rfl

/-- **The cache refines the map whose reads drop what has expired.** -/
theorem store_run (c : TTLCache V) (history : List (ℚ × Op V)) :
    (c.run history).store =
      (events c.defaultTtl history).foldl (fun s e => evict e.1 s e.2) c.store := by
  induction history generalizing c with
  | nil => rfl
  | cons e history ih =>
    have hrest := ih (c.step e)
    rw [step_eq] at hrest
    rw [run, List.foldl_cons, ← run, step_eq]
    exact hrest

/-! ### What a lookup finds -/

section Lookup

variable {defaultTtl t : ℚ} {history : List (ℚ × Op V)} (key : String)

/-- A lookup after a history finds what the map that keeps everything holds. -/
theorem get_run (hsorted : history.Pairwise fun e e' => e.1 ≤ e'.1)
    (hlast : ∀ e ∈ history, e.1 ≤ t) :
    (((new defaultTtl).run history).get key t).1 =
      (live t (runKeep (fun _ => none) (events defaultTtl history) key)).join := by
  have hevents : ∀ e ∈ events defaultTtl history, e.1 ≤ t := by
    intro e he
    obtain ⟨e', he', rfl⟩ := List.mem_map.1 he
    exact hlast e' he'
  have hagrees := ExpiringMap.agreesFrom_run (s := fun _ => none) (fun _ _ _ _ => rfl)
    (List.pairwise_map.2 hsorted) hevents
  rw [get_eq, store_run]
  exact congrArg Option.join (hagrees key t le_rfl)

/-- The last event of a key stored a value if the last operation that wrote it set one. -/
theorem last_event_iff {value : Option V} {d : ℚ} :
    (∃ earlier t₀ later, events defaultTtl history = earlier ++ (t₀, .put key value d) :: later ∧
        ∀ e ∈ later, e.2.touches key = false) ↔
      ∃ earlier t₀ ttl later, history = earlier ++ (t₀, .set key value ttl) :: later ∧
        (∀ e ∈ later, e.2.writes key = false) ∧ d = t₀ + lifetime defaultTtl ttl := by
  constructor
  · rintro ⟨earlier, t₀, later, heq, hlater⟩
    obtain ⟨earlier', rest, rfl, -, hrest⟩ := List.map_eq_append_iff.1 heq
    obtain ⟨⟨t', op⟩, later', rfl, he, rfl⟩ := List.map_eq_cons_iff.1 hrest
    have hwrites : ∀ e ∈ later', e.2.writes key = false := by
      intro e he
      rw [← touches_event defaultTtl e.1]
      exact hlater _ (List.mem_map_of_mem he)
    -- only a set is an event that stores something
    cases op with
    | set key' value' ttl =>
      cases he
      exact ⟨earlier', _, ttl, later', rfl, hwrites, rfl⟩
    | get key' => cases he
    | has key' => cases he
    | delete key' => cases he
    | clear => cases he
  · rintro ⟨earlier, t₀, ttl, later, rfl, hlater, rfl⟩
    refine ⟨events defaultTtl earlier, t₀, events defaultTtl later, ?_, ?_⟩
    · rw [events, List.map_append, List.map_cons]
      rfl
    · intro e he
      obtain ⟨e', he', rfl⟩ := List.mem_map.1 he
      rw [touches_event]
      exact hlater e' he'

/-- A history without some of its lookups has the events without them. -/
theorem runKeep_events_filter {dropped : ℚ × Op V → Bool}
    (hdropped : ∀ e, dropped e = true → e.2.reads = true) :
    runKeep (fun _ => none) (events defaultTtl (history.filter fun e => !dropped e)) =
      runKeep (fun _ => none) (events defaultTtl history) := by
  generalize (fun _ => none : ExpiringMap.Store String (Option V) ℚ) = s
  induction history generalizing s with
  | nil => rfl
  | cons e history ih =>
    cases hdrop : dropped e with
    | false =>
      rw [List.filter_cons_of_pos (by rw [hdrop]; rfl)]
      exact ih _
    | true =>
      rw [List.filter_cons_of_neg (by rw [hdrop]; exact Bool.false_ne_true), ih]
      have hlook : ExpiringMap.keep s (e.2.event defaultTtl e.1) = s := by
        have hread := hdropped e hdrop
        obtain ⟨t', op⟩ := e
        cases op <;> first | rfl | cases hread
      show _ = runKeep (ExpiringMap.keep s (e.2.event defaultTtl e.1)) (events defaultTtl history)
      rw [hlook]

/-- **What a lookup finds after a history**: a value exactly if the last operation that wrote the key
set that value and its time is not over.  Whichever lookups the history had made no difference. -/
theorem get_run_iff (hsorted : history.Pairwise fun e e' => e.1 ≤ e'.1)
    (hlast : ∀ e ∈ history, e.1 ≤ t) :
    (∀ v, (((new defaultTtl).run history).get key t).1 = some v ↔
      ∃ earlier t₀ ttl later, history = earlier ++ (t₀, .set key (some v) ttl) :: later ∧
        (∀ e ∈ later, e.2.writes key = false) ∧ t < t₀ + lifetime defaultTtl ttl) ∧
    ∀ dropped : ℚ × Op V → Bool, (∀ e, dropped e = true → e.2.reads = true) →
      (((new defaultTtl).run (history.filter fun e => !dropped e)).get key t).1 =
        (((new defaultTtl).run history).get key t).1 := by
  constructor
  · intro v
    rw [get_run key hsorted hlast, Option.join_eq_some_iff, ExpiringMap.live_eq_some_iff]
    simp only [ExpiringMap.runKeep_eq_some_iff, last_event_iff]
    constructor
    · rintro ⟨d, ⟨earlier, t₀, ttl, later, heq, hlater, rfl⟩, hlive⟩
      exact ⟨earlier, t₀, ttl, later, heq, hlater, hlive⟩
    · rintro ⟨earlier, t₀, ttl, later, heq, hlater, hlive⟩
      exact ⟨_, ⟨earlier, t₀, ttl, later, heq, hlater, rfl⟩, hlive⟩
  · intro dropped hdropped
    rw [get_run key hsorted hlast, get_run key (hsorted.filter _)
      fun e he => hlast e (List.mem_of_mem_filter he), runKeep_events_filter hdropped]

/-- An item set for one second, and looked up in time and too late. -/
theorem get_run_iff_second :
    [((0 : ℚ), Op.set "a" (some 7) (some 1)), (1 / 2, .get "a")].Pairwise (fun e e' => e.1 ≤ e'.1) ∧
      (((new 60).run [((0 : ℚ), Op.set "a" (some 7) (some 1)), (1 / 2, .get "a")]).get "a"
        (3 / 4)).1 = some 7 := by
  have hsorted : [((0 : ℚ), Op.set "a" (some 7) (some 1)), (1 / 2, .get "a")].Pairwise
      (fun e e' => e.1 ≤ e'.1) := by simp
  refine ⟨hsorted, ((get_run_iff "a" hsorted ?_).1 7).2 ⟨[], 0, some 1, _, rfl, ?_, ?_⟩⟩
  · norm_num
  · simp [Op.writes]
  · norm_num [lifetime]

end Lookup

end TTLCache

end QuantFlow
