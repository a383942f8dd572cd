/-
**Patterns, matched by backtracking.**

A pattern is a sequence of items: a character of a class, or any number of them, as many or as few as
possible.  A matcher tries the items in order and goes back to the last choice when what follows does
not fit; where it succeeds depends on the order in which the choices are tried, whether it succeeds
does not.  A search takes the leftmost place where the pattern fits, and a scan goes through the text
from left to right, from the end of one match to the next.

Main definitions:

* `Item`, `run` — items, and the matcher; what is to fit after them is a continuation;
* `Fits` — the words that a sequence of items stands for;
* `Pattern.matchAt` — a pattern with one group: what the group holds, and how much is matched;
* `search`, `scan` — the leftmost match, and all matches with the text in between.

Main results:

* `run_lazy_any` — as few characters as possible up to what follows is a search for it;
* `flat_scan`, `scanned_scan` — **a scan loses nothing, each of its matches is one,
  and none begins at a place that it passed over**.
-/

import Mathlib.Data.List.Basic

namespace Patterns

variable {C β : Type}

/-! ### The matcher -/

/-- One character of a class; as many of them as possible; as few as possible. -/
inductive Item (C : Type)
  | one (p : C → Bool)
  | greedy (p : C → Bool)
  | lazy (p : C → Bool)

def greedily (p : C → Bool) (k : List C → Option β) : List C → Option β
  | [] => k []
  | c :: rest => (if p c then greedily p k rest else none).or (k (c :: rest))

def lazily (p : C → Bool) (k : List C → Option β) : List C → Option β
  | [] => k []
  | c :: rest => (k (c :: rest)).or (if p c then lazily p k rest else none)

/-- One item, and then what has to fit after it. -/
def Item.run : Item C → List C → (List C → Option β) → Option β
  | .one _, [], _ => none
  | .one p, c :: rest, k => if p c then k rest else none
  | .greedy p, text, k => greedily p k text
  | .lazy p, text, k => lazily p k text

/-- The items in order. -/
def run : List (Item C) → List C → (List C → Option β) → Option β
  | [], text, k => k text
  | item :: items, text, k => item.run text fun rest => run items rest k

@[simp] theorem Item.run_one_cons (p : C → Bool) (c : C) (rest : List C) (k : List C → Option β) :
    (Item.one p).run (c :: rest) k = if p c then k rest else none := rfl

theorem run_append (xs ys : List (Item C)) (text : List C) (k : List C → Option β) :
    run (xs ++ ys) text k = run xs text fun rest => run ys rest k := by
  induction xs generalizing text with
  | nil => rfl
  | cons x xs ih =>
    simp only [List.cons_append, run]
    congr 1
    exact funext ih

/-- The words of a sequence of items. -/
def Fits : List (Item C) → List C → Prop
  | [], w => w = []
  | .one p :: items, w => ∃ c rest, w = c :: rest ∧ p c = true ∧ Fits items rest
  | .greedy p :: items, w => ∃ u v, w = u ++ v ∧ (∀ c ∈ u, p c = true) ∧ Fits items v
  | .lazy p :: items, w => ∃ u v, w = u ++ v ∧ (∀ c ∈ u, p c = true) ∧ Fits items v

theorem fits_append {xs ys : List (Item C)} {w : List C} :
    Fits (xs ++ ys) w ↔ ∃ u v, w = u ++ v ∧ Fits xs u ∧ Fits ys v := by
  induction xs generalizing w with
  | nil => simp [Fits]
  | cons x xs ih =>
    cases x with
    | one p =>
      simp only [List.cons_append, Fits, ih]
      constructor
      · rintro ⟨c, -, rfl, hc, u, v, rfl, hu, hv⟩
        exact ⟨c :: u, v, rfl, ⟨c, u, rfl, hc, hu⟩, hv⟩
      · rintro ⟨-, v, rfl, ⟨c, u, rfl, hc, hu⟩, hv⟩
        exact ⟨c, u ++ v, rfl, hc, u, v, rfl, hu, hv⟩
    | greedy p | lazy p =>
      simp only [List.cons_append, Fits, ih]
      constructor
      · rintro ⟨u, -, rfl, hu, u', v, rfl, hu', hv⟩
        exact ⟨u ++ u', v, by simp, ⟨u, u', rfl, hu, hu'⟩, hv⟩
      · rintro ⟨-, v, rfl, ⟨u, u', rfl, hu, hu'⟩, hv⟩
        exact ⟨u, u' ++ v, by simp, hu, u', v, rfl, hu', hv⟩

/-! What the matcher finds is there. -/

theorem greedily_eq_some {p : C → Bool} {k : List C → Option β} {text : List C} {b : β}
    (h : greedily p k text = some b) :
    ∃ u rest, text = u ++ rest ∧ (∀ c ∈ u, p c = true) ∧ k rest = some b := by
  induction text with
  | nil => exact ⟨[], [], rfl, by simp, h⟩
  | cons c text ih =>
    rw [greedily, Option.or_eq_some_iff] at h
    rcases h with h | ⟨-, h⟩
    · split at h
      · rename_i hc
        obtain ⟨u, rest, rfl, hu, hk⟩ := ih h
        exact ⟨c :: u, rest, rfl, by simpa [hc] using hu, hk⟩
      · cases h
    · exact ⟨[], c :: text, rfl, by simp, h⟩

theorem lazily_eq_some {p : C → Bool} {k : List C → Option β} {text : List C} {b : β}
    (h : lazily p k text = some b) :
    ∃ u rest, text = u ++ rest ∧ (∀ c ∈ u, p c = true) ∧ k rest = some b := by
  induction text with
  | nil => exact ⟨[], [], rfl, by simp, h⟩
  | cons c text ih =>
    rw [lazily, Option.or_eq_some_iff] at h
    rcases h with h | ⟨-, h⟩
    · exact ⟨[], c :: text, rfl, by simp, h⟩
    · split at h
      · rename_i hc
        obtain ⟨u, rest, rfl, hu, hk⟩ := ih h
        exact ⟨c :: u, rest, rfl, by simpa [hc] using hu, hk⟩
      · cases h

theorem run_eq_some {items : List (Item C)} {text : List C} {k : List C → Option β} {b : β}
    (h : run items text k = some b) :
    ∃ w rest, text = w ++ rest ∧ Fits items w ∧ k rest = some b := by
  induction items generalizing text with
  | nil => exact ⟨[], text, rfl, rfl, h⟩
  | cons item items ih =>
    cases item with
    | one p =>
      cases text with
      | nil => cases h
      | cons c text =>
        simp only [run, Item.run] at h
        split at h
        · rename_i hc
          obtain ⟨w, rest, rfl, hw, hk⟩ := ih h
          exact ⟨c :: w, rest, rfl, ⟨c, w, rfl, hc, hw⟩, hk⟩
        · cases h
    | greedy p =>
      obtain ⟨u, text', rfl, hu, hk⟩ := greedily_eq_some h
      obtain ⟨w, rest, rfl, hw, hb⟩ := ih hk
      exact ⟨u ++ w, rest, by simp, ⟨u, w, rfl, hu, hw⟩, hb⟩
    | lazy p =>
      obtain ⟨u, text', rfl, hu, hk⟩ := lazily_eq_some h
      obtain ⟨w, rest, rfl, hw, hb⟩ := ih hk
      exact ⟨u ++ w, rest, by simp, ⟨u, w, rfl, hu, hw⟩, hb⟩

/-! ### Literals -/

/-- The characters of a word, compared by `same`. -/
def lit (same : C → C → Bool) (w : List C) : List (Item C) := w.map fun c => .one (same c)

/-- The text begins with the word. -/
def begins (same : C → C → Bool) : List C → List C → Bool
  | [], _ => true
  | _ :: _, [] => false
  | c :: w, d :: text => same c d && begins same w text

/-- A literal is matched by its first characters, or not at all. -/
theorem run_lit (same : C → C → Bool) (w text : List C) (k : List C → Option β) :
    run (lit same w) text k =
      if begins same w text then k (text.drop w.length) else none := by
  induction w generalizing text with
  | nil => rfl
  | cons c w ih =>
    cases text with
    | nil => rfl
    | cons d text =>
      have hcons : run (lit same (c :: w)) (d :: text) k =
          if same c d then run (lit same w) text k else none := rfl
      rw [hcons, ih text]
      cases hd : same c d <;> simp [begins, hd]

/-! ### Searching -/

/-- The leftmost place where `m` succeeds. -/
def search (m : List C → Option β) : List C → Option β
  | [] => m []
  | c :: rest => (m (c :: rest)).or (search m rest)

/-- As few characters as possible up to what follows: a search for it. -/
theorem run_lazy_any (text : List C) (k : List C → Option β) :
    (Item.lazy fun _ => true).run text k = search k text := by
  induction text with
  | nil => rfl
  | cons c rest ih => simpa [Item.run, lazily, search] using congrArg _ ih

/-- What a search finds, and that there is nothing to the left of it. -/
theorem search_eq_some {m : List C → Option β} {text : List C} {b : β}
    (h : search m text = some b) :
    ∃ u rest, text = u ++ rest ∧ m rest = some b ∧ ∀ v, v <:+ u → v ≠ [] → m (v ++ rest) = none := by
  induction text with
  | nil => exact ⟨[], [], rfl, h, fun v hv hne => absurd (List.suffix_nil.1 hv) hne⟩
  | cons c text ih =>
    rw [search, Option.or_eq_some_iff] at h
    rcases h with h | ⟨hc, h⟩
    · exact ⟨[], c :: text, rfl, h, fun v hv hne => absurd (List.suffix_nil.1 hv) hne⟩
    · obtain ⟨u, rest, rfl, hrest, hleft⟩ := ih h
      refine ⟨c :: u, rest, rfl, hrest, fun v hv hne => ?_⟩
      rcases List.suffix_cons_iff.1 hv with rfl | hv
      · exact hc
      · exact hleft v hv hne

/-! ### Patterns with a group -/

structure Pattern (C : Type) where
  before : List (Item C)
  group : List (Item C)
  after : List (Item C)

/-- The pattern at the beginning of the text: what the group holds, and the length of the match. -/
def Pattern.matchAt (P : Pattern C) (text : List C) : Option (List C × ℕ) :=
  run P.before text fun r₁ => run P.group r₁ fun r₂ => run P.after r₂ fun r₃ =>
    some (r₁.take (r₁.length - r₂.length), text.length - r₃.length)

theorem Pattern.matchAt_eq_some {P : Pattern C} {text u : List C} {n : ℕ}
    (h : P.matchAt text = some (u, n)) :
    ∃ a b rest, text = a ++ (u ++ (b ++ rest)) ∧ Fits P.before a ∧ Fits P.group u ∧
      Fits P.after b ∧ n = (a ++ (u ++ b)).length := by
  obtain ⟨a, r₁, rfl, ha, h⟩ := run_eq_some h
  obtain ⟨u', r₂, rfl, hu, h⟩ := run_eq_some h
  obtain ⟨b, rest, rfl, hb, h⟩ := run_eq_some h
  obtain ⟨rfl, rfl⟩ := Prod.mk.inj (Option.some.inj h)
  have htake : (u' ++ (b ++ rest)).take ((u' ++ (b ++ rest)).length - (b ++ rest).length) = u' := by
    simp
  rw [htake]
  refine ⟨a, b, rest, rfl, ha, hu, hb, ?_⟩
  simp only [List.length_append]
  omega

/-! ### Scanning -/

/-- The text from left to right: a character at which no match begins, or a match, with what was
matched and what it gives; the search goes on after it.  The number says how many characters of the
text belong to a match that has been written down. -/
def scan (m : List C → Option (β × ℕ)) : ℕ → List C → List (C ⊕ (List C × β))
  | _, [] => []
  | skip + 1, _ :: rest => scan m skip rest
  | 0, c :: rest =>
    match m (c :: rest) with
    | none => .inl c :: scan m 0 rest
    | some (b, n) => .inr ((c :: rest).take n, b) :: scan m (n - 1) rest

/-- The text that a scan has gone through. -/
def flat : List (C ⊕ (List C × β)) → List C
  | [] => []
  | .inl c :: out => c :: flat out
  | .inr (w, _) :: out => w ++ flat out

/-- Each match is one, and none begins at a character that was passed over. -/
def Scanned (m : List C → Option (β × ℕ)) : List (C ⊕ (List C × β)) → Prop
  | [] => True
  | .inl c :: out => m (c :: flat out) = none ∧ Scanned m out
  | .inr (w, b) :: out => m (w ++ flat out) = some (b, w.length) ∧ Scanned m out

/-- A match is not empty, and is part of the text. -/
def Proper (m : List C → Option (β × ℕ)) : Prop :=
  ∀ text b n, m text = some (b, n) → 0 < n ∧ n ≤ text.length

/-- A pattern that begins with a word has proper matches. -/
theorem Pattern.proper_matchAt {P : Pattern C} {same : C → C → Bool} {c : C} {w : List C}
    {items : List (Item C)} (hP : P.before = lit same (c :: w) ++ items) : Proper P.matchAt := by
  intro text u n h
  obtain ⟨a, b, rest, rfl, ha, -, -, rfl⟩ := Pattern.matchAt_eq_some h
  rw [hP, fits_append] at ha
  obtain ⟨-, v, rfl, ⟨d, u', rfl, -⟩, -⟩ := ha
  simp only [List.length_append, List.length_cons]
  omega

section Scan

variable {m : List C → Option (β × ℕ)}

theorem flat_scan_drop (hm : Proper m) (skip : ℕ) (text : List C) :
    flat (scan m skip text) = text.drop skip := by
  induction text generalizing skip with
  | nil => simp [scan, flat]
  | cons c rest ih =>
    cases skip with
    | succ skip => simpa [scan] using ih skip
    | zero =>
      cases hmatch : m (c :: rest) with
      | none => simp [scan, hmatch, flat, ih 0]
      | some found =>
        obtain ⟨b, n⟩ := found
        obtain ⟨hpos, -⟩ := hm _ b n hmatch
        obtain ⟨n, rfl⟩ := Nat.exists_eq_add_of_lt hpos
        simp [scan, hmatch, flat, ih]

/-- **A scan loses nothing of the text.** -/
theorem flat_scan (hm : Proper m) (text : List C) : flat (scan m 0 text) = text := by
  simpa using flat_scan_drop hm 0 text

/-- **Each match of a scan is one, and none begins at a character that it passed over.** -/
theorem scanned_scan (hm : Proper m) (skip : ℕ) (text : List C) : Scanned m (scan m skip text) := by
  induction text generalizing skip with
  | nil => cases skip <;> trivial
  | cons c rest ih =>
    cases skip with
    | succ skip => exact ih skip
    | zero =>
      cases hmatch : m (c :: rest) with
      | none =>
        simp only [scan, hmatch, Scanned, flat_scan hm]
        exact ⟨trivial, ih 0⟩
      | some found =>
        obtain ⟨b, n⟩ := found
        obtain ⟨hpos, hlen⟩ := hm _ b n hmatch
        obtain ⟨n, rfl⟩ := Nat.exists_eq_add_of_lt hpos
        simp only [scan, hmatch, Scanned, flat_scan_drop hm]
        refine ⟨?_, ih _⟩
        simp at hlen
        simpa [hlen] using hmatch

end Scan

end Patterns
