/-
**The cache of fund histories.**

`ensure_fund` of `backend/app/main.py` keeps one entry per fund: the longest history fetched so
far, its label, the clock reading and the window of the fetch, and a provenance record.  An entry
is answered again while it is younger than ten minutes and its window is large enough; otherwise
the provider is asked for the largest window seen so far, and the answer replaces the entry.

`get_nav` of `backend/app/fund_data.py` labels the answer: the provider's rows when there are at
least five, else generated rows or, when these are switched off, nothing.  What the provider and
the generator return is an input.

Main definitions:

* `Fetch`, `Provider` — what one request to the provider gives;
* `Entry` — an entry, with the facts every entry has;
* `ensureFund`, `slice` — the lookup, and the window cut from an entry.

Main results:

* `ensureFund_cases` — a lookup answers with a fresh entry or replaces the entry;
* `slice_suffix`, `lastDate_slice` — a cut window ends where its entry ends;
* `failed_refetch_replaces` — **a failed fetch for a larger window replaces the entry it
  was to extend**.
-/

import Mathlib.Tactic.Linarith
import QuantFlow.KeyedCache
import QuantFlow.Schemas

namespace QuantFlow

/-! ### The provider -/

/-- What one request gives: the provider's rows (`None` on any failure), the rows the generator
would produce in their place, and the time stamp of the request. -/
structure Fetch (V : Type := ℚ) where
  real : Option (List (NavPoint V))
  simulated : List (NavPoint V)
  fetchedAt : String

/-- The answers to the requests for a fund and a window. -/
abbrev Provider (V : Type := ℚ) := String → ℤ → Fetch V

variable {V : Type}

/-- The rows `get_nav` accepts, `real and len(real) >= 5`. -/
def Fetch.accepted (f : Fetch V) : Option (List (NavPoint V)) :=
  f.real.filter fun pts => 5 ≤ pts.length

/-- `get_nav`, with the switch `ALLOW_SIMULATED_DATA`. -/
def getNav (sim : Bool) (f : Fetch V) : List (NavPoint V) × DataSource :=
  match f.accepted with
  | some real => (real, .real)
  | none => if sim then (f.simulated, .simulated) else ([], .stale)

theorem getNav_of_accepted {sim : Bool} {f : Fetch V} {pts : List (NavPoint V)}
    (h : f.accepted = some pts) : getNav sim f = (pts, .real) := by
  simp [getNav, h]

/-- Only accepted rows of the provider are labelled REAL. -/
theorem getNav_real_iff {sim : Bool} {f : Fetch V} :
    (getNav sim f).2 = .real ↔ f.accepted.isSome := by
  cases h : f.accepted <;> cases sim <;> simp [getNav, h]

theorem length_of_getNav_real {sim : Bool} {f : Fetch V} (h : (getNav sim f).2 = .real) :
    5 ≤ (getNav sim f).1.length := by
  obtain ⟨pts, hp⟩ := Option.isSome_iff_exists.1 (getNav_real_iff.1 h)
  rw [getNav_of_accepted hp]
  obtain ⟨-, hlen⟩ := Option.filter_eq_some_iff.1 hp
  simpa using hlen

/-! ### Entries -/

/-- An entry of the cache. -/
structure Entry (V : Type := ℚ) where
  points : List (NavPoint V)
  source : DataSource
  updated : ℚ
  days : ℤ
  provenance : Provenance
  labelled : provenance.dataSource = source
  stamped : provenance.dataTimestamp = lastDate points
  enough : source = .real → 5 ≤ points.length

abbrev FundCache (V : Type := ℚ) := String → Option (Entry V)

/-- `config.HISTORY_DAYS`. -/
def historyDays : ℤ := 60

/-- `config.FUND_CACHE_TTL`. -/
def fundCacheTtl : ℚ := 600

/-- The entry made of an answer that arrived at `now` to a request for `want` days. -/
def Entry.ofFetch (sim : Bool) (f : Fetch V) (want : ℤ) (now : ℚ) : Entry V :=
  let nav := getNav sim f
  { points := nav.1
    source := nav.2
    updated := now
    days := want
    provenance := QuantFlow.provenance nav.2
      (if nav.2 = .real then "eastmoney" else "quantflow-demo") f.fetchedAt (lastDate nav.1)
    labelled := rfl
    stamped := rfl
    enough := length_of_getNav_real }

@[simp] theorem Entry.ofFetch_source (sim : Bool) (f : Fetch V) (want : ℤ) (now : ℚ) :
    (Entry.ofFetch sim f want now).source = (getNav sim f).2 := rfl

/-- The entry answers a request for `days` at `now`. -/
def Entry.fresh (now : ℚ) (days : ℤ) (e : Entry V) : Bool :=
  now - e.updated < fundCacheTtl ∧ days ≤ e.days

theorem Entry.fresh_iff {now : ℚ} {days : ℤ} {e : Entry V} :
    e.fresh now days = true ↔ now - e.updated < fundCacheTtl ∧ days ≤ e.days := by
  simp [Entry.fresh]

/-- The window asked of the provider, `max(days, HISTORY_DAYS, old days)`. -/
def wanted (days : ℤ) (old : Option (Entry V)) : ℤ :=
  max (max days historyDays) (old.elim 0 Entry.days)

theorem le_wanted (days : ℤ) (old : Option (Entry V)) : days ≤ wanted days old :=
  le_trans (le_max_left days historyDays) (le_max_left _ _)

/-- The surroundings of one lookup: the clock reading, and the provider's answers. -/
structure Moment (V : Type := ℚ) where
  now : ℚ
  provider : Provider V

/-- The entry a lookup loads in place of `old`. -/
def loadEntry (sim : Bool) (m : Moment V) (code : String) (days : ℤ) (old : Option (Entry V)) :
    Entry V :=
  Entry.ofFetch sim (m.provider code (wanted days old)) (wanted days old) m.now

/-- `ensure_fund(code, days)`. -/
def ensureFund (sim : Bool) (m : Moment V) (funds : FundCache V) (code : String)
    (days : ℤ := historyDays) : Entry V × FundCache V :=
  KeyedCache.lookup (Entry.fresh m.now days) (loadEntry sim m code days) funds code

section EnsureFund

variable {sim : Bool} {m : Moment V} {funds : FundCache V} {code : String} {days : ℤ}

theorem ensureFund_of_fresh {e : Entry V} (he : funds code = some e)
    (hf : e.fresh m.now days = true) : ensureFund sim m funds code days = (e, funds) :=
  KeyedCache.lookup_of_fresh he hf

theorem ensureFund_of_stale (h : ∀ e, funds code = some e → e.fresh m.now days = false) :
    ensureFund sim m funds code days = (loadEntry sim m code days (funds code),
      Function.update funds code (some (loadEntry sim m code days (funds code)))) :=
  KeyedCache.lookup_of_stale h

/-- A lookup answers with a fresh entry, or it loads one, stores it and answers with it. -/
theorem ensureFund_cases (sim : Bool) (m : Moment V) (funds : FundCache V) (code : String)
    (days : ℤ) :
    (∃ e, funds code = some e ∧ e.fresh m.now days = true ∧
        ensureFund sim m funds code days = (e, funds)) ∨
      ((∀ e, funds code = some e → e.fresh m.now days = false) ∧
        ensureFund sim m funds code days = (loadEntry sim m code days (funds code),
          Function.update funds code (some (loadEntry sim m code days (funds code))))) :=
  KeyedCache.lookup_cases _ _ _ _

theorem ensureFund_stored (sim : Bool) (m : Moment V) (funds : FundCache V) (code : String)
    (days : ℤ) :
    (ensureFund sim m funds code days).2 code = some (ensureFund sim m funds code days).1 :=
  KeyedCache.lookup_stored _ _ _ _

/-- What a lookup makes of an entry: the entry itself, or what is loaded in its place. -/
def Entry.looked (sim : Bool) (m : Moment V) (code : String) (days : ℤ) (e : Entry V) : Entry V :=
  if e.fresh m.now days then e else loadEntry sim m code days (some e)

theorem ensureFund_of_some {e : Entry V} (he : funds code = some e) :
    (ensureFund sim m funds code days).1 = e.looked sim m code days := by
  by_cases hf : e.fresh m.now days = true
  · rw [ensureFund_of_fresh he hf, Entry.looked, if_pos hf]
  · have hstale : ∀ e', funds code = some e' → e'.fresh m.now days = false := by
      intro e' he'
      rw [he] at he'
      cases he'
      simpa using hf
    rw [ensureFund_of_stale hstale, he, Entry.looked, if_neg hf]

/-- The window of the entry answered covers the window asked for. -/
theorem le_days_ensureFund (sim : Bool) (m : Moment V) (funds : FundCache V) (code : String)
    (days : ℤ) : days ≤ (ensureFund sim m funds code days).1.days := by
  rcases ensureFund_cases sim m funds code days with ⟨e, -, hf, heq⟩ | ⟨-, heq⟩
  · rw [heq]
    exact (Entry.fresh_iff.1 hf).2
  · rw [heq]
    exact le_wanted days (funds code)

end EnsureFund

/-! ### Windows -/

/-- `xs[-days:]`. -/
def lastOf {α : Type} (xs : List α) (days : ℤ) : List α :=
  if 0 < days then xs.drop (xs.length - days.toNat) else xs.drop (-days).toNat

/-- `_slice(entry, days)`: the last `days` points.  A negative window drops points instead. -/
def slice (points : List (NavPoint V)) (days : ℤ) : List (NavPoint V) :=
  if days ≠ 0 ∧ days < points.length then lastOf points days else points

theorem lastOf_suffix {α : Type} (xs : List α) (days : ℤ) : lastOf xs days <:+ xs := by
  unfold lastOf
  split <;> exact List.drop_suffix _ _

theorem length_lastOf {α : Type} (xs : List α) {days : ℤ} (h : 0 < days) :
    (lastOf xs days).length = min xs.length days.toNat := by
  rw [lastOf, if_pos h, List.length_drop]
  omega

theorem slice_suffix (points : List (NavPoint V)) (days : ℤ) : slice points days <:+ points := by
  unfold slice
  split
  · exact lastOf_suffix points days
  · exact List.suffix_refl _

/-- A positive window has its length, or all there is. -/
theorem length_slice (points : List (NavPoint V)) {days : ℤ} (h : 0 < days) :
    (slice points days).length = min points.length days.toNat := by
  unfold slice
  split
  · exact length_lastOf points h
  · omega

/-- A positive window of a non-empty history is not empty. -/
theorem slice_ne_nil {points : List (NavPoint V)} {days : ℤ} (hp : points ≠ []) (hd : 0 < days) :
    slice points days ≠ [] := by
  have hlen : 0 < points.length := List.length_pos_iff.2 hp
  rw [← List.length_pos_iff, length_slice points hd]
  omega

theorem getLast?_of_suffix {α : Type} {xs ys : List α} (h : xs <:+ ys) (hx : xs ≠ []) :
    xs.getLast? = ys.getLast? := by
  obtain ⟨front, rfl⟩ := h
  rw [List.getLast?_append, List.getLast?_eq_some_getLast hx, Option.some_or]

/-- A cut window ends on the date its entry ends on. -/
theorem lastDate_slice {points : List (NavPoint V)} {days : ℤ} (h : slice points days ≠ []) :
    lastDate (slice points days) = lastDate points := by
  rw [lastDate, lastDate, getLast?_of_suffix (slice_suffix points days) h]

/-- For a positive window also the empty history ends where its window ends. -/
theorem lastDate_slice_of_pos {points : List (NavPoint V)} {days : ℤ} (hd : 0 < days) :
    lastDate (slice points days) = lastDate points := by
  by_cases hp : points = []
  · subst hp
    have hnil : slice ([] : List (NavPoint V)) days = [] := List.suffix_nil.1 (slice_suffix [] days)
    rw [hnil]
  · exact lastDate_slice (slice_ne_nil hp hd)

/-! ### A failed fetch for a larger window -/

theorem loadEntry_of_failed {sim : Bool} {m : Moment V} {code : String} {days : ℤ}
    {old : Option (Entry V)} (h : (m.provider code (wanted days old)).accepted = none) :
    (loadEntry sim m code days old).source ≠ .real := by
  intro hs
  rw [loadEntry, Entry.ofFetch_source, getNav_real_iff, h] at hs
  cases hs

/-- **A failed fetch for a larger window replaces the entry it was to extend**: a later lookup
never answers with that entry again, and while the replacement is fresh it answers with data that
is not REAL. -/
theorem failed_refetch_replaces (sim : Bool) (funds : FundCache V) (code : String) (e : Entry V)
    (m₁ m₂ : Moment V) (d₁ d : ℤ) (he : funds code = some e) (hreal : e.source = .real)
    (hlarger : e.days < d₁) (hfail : (m₁.provider code (wanted d₁ (some e))).accepted = none)
    (hd : d ≤ e.days) :
    let after := (ensureFund sim m₁ funds code d₁).2
    (ensureFund sim m₂ after code d).1 ≠ e ∧
      (e.updated ≤ m₁.now → m₂.now - e.updated < fundCacheTtl →
        (ensureFund sim m₂ after code d).1.source ≠ .real) := by
  intro after
  -- the window is too small, so the first lookup loads
  have hstale : ∀ e', funds code = some e' → e'.fresh m₁.now d₁ = false := by
    intro e' he'
    rw [he] at he'
    cases he'
    simp [Entry.fresh, hlarger]
  let e₁ := loadEntry sim m₁ code d₁ (some e)
  have hafter : after code = some e₁ := by
    show (ensureFund sim m₁ funds code d₁).2 code = some e₁
    rw [ensureFund_of_stale hstale, he]
    exact Function.update_self _ _ _
  have hsource : e₁.source ≠ .real := loadEntry_of_failed hfail
  have hdays : d₁ ≤ e₁.days := le_wanted d₁ (some e)
  rcases ensureFund_cases sim m₂ after code d with ⟨e₂, h₂, -, heq⟩ | ⟨hold, heq⟩
  · rw [hafter] at h₂
    cases h₂
    rw [heq]
    refine ⟨?_, fun _ _ => hsource⟩
    intro h
    have hsame : e₁ = e := h
    exact hsource (hsame ▸ hreal)
  · rw [heq, hafter]
    constructor
    · -- a second load asks for at least the larger window
      intro h
      have hsame : loadEntry sim m₂ code d (some e₁) = e := h
      have hwant : e₁.days ≤ (loadEntry sim m₂ code d (some e₁)).days := le_max_right _ _
      rw [hsame] at hwant
      omega
    · intro hclock hlater
      have := hold e₁ hafter
      have hfresh : e₁.fresh m₂.now d = true := by
        rw [Entry.fresh_iff]
        refine ⟨?_, by omega⟩
        show m₂.now - m₁.now < fundCacheTtl
        linarith
      rw [hfresh] at this
      cases this

/-! A fund of five days whose provider answers once and then fails. -/

def week : List NavPoint :=
  [{ date := "2026-01-05", nav := 1 }, { date := "2026-01-06", nav := 11 / 10 },
   { date := "2026-01-07", nav := 6 / 5 }, { date := "2026-01-08", nav := 13 / 10 },
   { date := "2026-01-09", nav := 7 / 5 }]

/-- The provider answers with these rows. -/
def online (now : ℚ) (rows : List NavPoint) : Moment :=
  { now := now,
    provider := fun _ _ => { real := some rows, simulated := [], fetchedAt := "2026-01-10" } }

/-- The provider fails; the generator would give these rows. -/
def offline (now : ℚ) (rows : List NavPoint) : Moment :=
  { now := now,
    provider := fun _ _ => { real := none, simulated := rows, fetchedAt := "2026-01-10" } }

/-- The entry of the first request, for the default window. -/
def weekEntry : Entry := (ensureFund true (online 0 week) (fun _ => none) "000001").1

/-- The cache after it. -/
def weekCache : FundCache := (ensureFund true (online 0 week) (fun _ => none) "000001").2

theorem weekCache_entry : weekCache "000001" = some weekEntry :=
  ensureFund_stored true (online 0 week) (fun _ => none) "000001" historyDays

theorem failed_refetch_replaces_week :
    (ensureFund true (online 2 week)
        (ensureFund true (offline 1 []) weekCache "000001" 250).2 "000001" 60).1 ≠ weekEntry ∧
      (weekEntry.updated ≤ 1 → 2 - weekEntry.updated < fundCacheTtl →
        (ensureFund true (online 2 week)
          (ensureFund true (offline 1 []) weekCache "000001" 250).2 "000001" 60).1.source ≠
            .real) :=
  failed_refetch_replaces true weekCache "000001" weekEntry (offline 1 []) (online 2 week) 250 60
    weekCache_entry (by decide) (by decide) (by decide) (by decide)

/-- The first entry is REAL and one second old when a request for 250 days fails; a second later
the default window is answered with generated data. -/
theorem week_entry_lost :
    weekCache "000001" = some weekEntry ∧ weekEntry.source = .real ∧
      1 - weekEntry.updated < fundCacheTtl ∧ weekEntry.days < 250 ∧ 60 ≤ weekEntry.days ∧
      2 - weekEntry.updated < fundCacheTtl ∧
      (ensureFund true (online 2 week)
        (ensureFund true (offline 1 week) weekCache "000001" 250).2 "000001" 60).1.source =
          .simulated :=
  ⟨weekCache_entry, by decide, by decide +kernel, by decide, by decide, by decide +kernel,
    by decide +kernel⟩

end QuantFlow
