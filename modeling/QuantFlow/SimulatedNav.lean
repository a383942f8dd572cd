/-
**The generated history.**

When the provider fails, `simulate_nav` of `backend/app/fund_data.py` generates a history: it walks
forward from `days - 1` calendar days ago, keeps the days from Monday to Friday until it has `days`
of them, and gives each a NAV drawn from a generator that is seeded with the code of the fund.  The
generator is a parameter; so are the offset of local time, whose days have 86400 seconds, and the
text the host makes of a day.

The walk starts as many calendar days back as it needs working days.  Each Saturday and Sunday it
passes is made up for by a day after today: the history ends today only if it is shorter than the
week so far.

Main definitions:

* `Rng`, `simulateDay` — the generator, and one point of the history;
* `localDay`, `weekday` — the number of a local day, and its day of the week;
* `simulateDates`, `simulateNav` — the days, and the history.

Main results:

* `collectDates_eq_pick` — the loop over the clock is a walk along the days;
* `length_simulateNav` — the history has as many points as were asked for;
* `simulateNav_dates_iff` — **when the history ends today**.
-/

import QuantFlow.FirstMatches
import QuantFlow.Indicators
import QuantFlow.Schemas

namespace QuantFlow

/-! ### The days -/

/-- The number of the local day of a clock reading; day 0 is 1970-01-01. -/
def localDay (offset t : ℚ) : ℤ := ⌊(t + offset) / 86400⌋

/-- `tm_wday`: Monday is 0, and 1970-01-01 was a Thursday. -/
def weekday (d : ℤ) : ℤ := (d + 3) % 7

/-- `d.tm_wday < 5`. -/
def isWorkday (d : ℤ) : Bool := weekday d < 5

theorem isWorkday_iff {d : ℤ} : isWorkday d = true ↔ (d + 3) % 7 < 5 := decide_eq_true_iff

/-- The loop over `cur`, with the number of dates that are still missing. -/
def collectDates (offset : ℚ) : ℕ → ℕ → ℚ → List ℤ
  | 0, _, _ => []
  | _ + 1, 0, _ => []
  | fuel + 1, need + 1, cur =>
    let d := localDay offset cur
    if isWorkday d then d :: collectDates offset fuel need (cur + 86400)
    else collectDates offset fuel (need + 1) (cur + 86400)

/-- `dates`; three visits suffice for a date. -/
def simulateDates (offset now : ℚ) (days : ℕ) : List ℤ :=
  collectDates offset (3 * days) days (now - ((days : ℚ) - 1) * 86400)

/-! ### The points -/

/-- The draws of a generator with states in `R`. -/
structure Rng (R : Type) where
  uniform : ℚ → ℚ → R → ℚ × R
  normal : ℚ → ℚ → R → ℚ × R

variable {R : Type} (N : Numerics) (rng : Rng R)

/-- What the loop carries from day to day. -/
structure Path (R : Type) where
  state : R
  drift : ℚ
  vol : ℚ
  nav : ℚ

/-- The draws of a new drift and a new volatility. -/
def drawTrend (state : R) : ℚ × ℚ × R :=
  let (drift, state) := rng.uniform (-8 / 10000) (12 / 10000) state
  let (vol, state) := rng.uniform (12 / 1000) (26 / 1000) state
  (drift, vol, state)

/-- The path before the first day. -/
def Path.start (state : R) : Path R :=
  let (drift, vol, state) := drawTrend rng state
  let (nav, state) := rng.uniform (6 / 10) (14 / 10) state
  { state := state, drift := drift, vol := vol, nav := nav }

/-- The body of the loop on the day with index `i`. -/
def simulateDay (s : Path R) (day : String × ℕ) : Path R × NavPoint :=
  let (drift, vol, state) := if day.2 % 25 = 0 then drawTrend rng s.state else (s.drift, s.vol, s.state)
  let (shock, state) := rng.normal drift vol state
  let nav := max (3 / 10) (s.nav * (1 + shock))
  let chg := if s.nav = 0 then 0 else (nav / s.nav - 1) * 100
  let (factor, state) := rng.uniform 1 4 state
  ({ state := state, drift := drift, vol := vol, nav := nav },
    { date := day.1, nav := N.round 4 nav, accNav := some (N.round 4 (nav * factor)),
      changePct := some (N.round 2 chg) })

/-- `simulate_nav(code, days)` at the clock reading `now`, with the generator seeded for the code. -/
def simulateNav (seeded : R) (strftime : ℤ → String) (offset now : ℚ) (days : ℕ) : List NavPoint :=
  Causal.mapAccum (simulateDay N rng) (.start rng seeded)
    ((simulateDates offset now days).map strftime).zipIdx

/-! ### The walk along the days -/

theorem localDay_add_day (offset t : ℚ) : localDay offset (t + 86400) = localDay offset t + 1 := by
  have hday : (t + 86400 + offset) / 86400 = (t + offset) / 86400 + 1 := by ring
  rw [localDay, hday, Int.floor_add_one, localDay]

theorem localDay_sub_days (offset t : ℚ) (k : ℕ) :
    localDay offset (t - (k : ℚ) * 86400) = localDay offset t - k := by
  have hday : (t - (k : ℚ) * 86400 + offset) / 86400 = (t + offset) / 86400 - (k : ℤ) := by
    push_cast
    ring
  rw [localDay, hday, Int.floor_sub_intCast, localDay]

theorem collectDates_eq_pick (offset : ℚ) (fuel need : ℕ) (cur : ℚ) :
    collectDates offset fuel need cur = FirstMatches.pick isWorkday fuel need (localDay offset cur) := by
  induction fuel generalizing need cur with
  | zero => rfl
  | succ fuel ih =>
    cases need with
    | zero => rfl
    | succ need =>
      rw [collectDates, FirstMatches.pick]
      simp only [ih, localDay_add_day]

/-- There are never more than two days between working days. -/
theorem exists_workday (d : ℤ) : ∃ k : ℕ, k ≤ 2 ∧ isWorkday (d + k) = true := by
  simp only [isWorkday_iff]
  by_cases h₀ : (d + 3) % 7 < 5
  · exact ⟨0, by omega, by push_cast; omega⟩
  · by_cases h₁ : (d + 1 + 3) % 7 < 5
    · exact ⟨1, by omega, by push_cast; omega⟩
    · exact ⟨2, by omega, by push_cast; omega⟩

/-- The days of a history are a walk from `days - 1` calendar days ago. -/
theorem simulateDates_eq_pick (offset now : ℚ) {days : ℕ} (hdays : 1 ≤ days) :
    simulateDates offset now days =
      FirstMatches.pick isWorkday (3 * days) days (localDay offset now - (days - 1 : ℕ)) := by
  rw [simulateDates, collectDates_eq_pick, ← localDay_sub_days, Nat.cast_sub hdays, Nat.cast_one]

theorem length_simulateDates (offset now : ℚ) (days : ℕ) :
    (simulateDates offset now days).length = days := by
  rw [simulateDates, collectDates_eq_pick]
  exact FirstMatches.length_pick exists_workday le_rfl

/-! ### The dates of the history -/

theorem length_simulateNav (seeded : R) (strftime : ℤ → String) (offset now : ℚ) (days : ℕ) :
    (simulateNav N rng seeded strftime offset now days).length = days := by
  rw [simulateNav, Causal.length_mapAccum, List.length_zipIdx, List.length_map, length_simulateDates]

theorem dates_mapAccum (s : Path R) (days : List (String × ℕ)) :
    (Causal.mapAccum (simulateDay N rng) s days).map NavPoint.date = days.map Prod.fst := by
  induction days generalizing s with
  | nil => rfl
  | cons day days ih =>
    rw [Causal.mapAccum, List.map_cons, ih]
    rfl

theorem dates_simulateNav (seeded : R) (strftime : ℤ → String) (offset now : ℚ) (days : ℕ) :
    (simulateNav N rng seeded strftime offset now days).map NavPoint.date =
      (simulateDates offset now days).map strftime := by
  rw [simulateNav, dates_mapAccum, List.zipIdx_map_fst]

/-- A stretch of days up to today has no weekend exactly if it lies in the week of today. -/
theorem workdays_iff {today : ℤ} {days : ℕ} (hdays : 1 ≤ days) :
    (∀ k < days, isWorkday (today - (days - 1 : ℕ) + (k : ℕ)) = true) ↔
      weekday today < 5 ∧ (days : ℤ) ≤ weekday today + 1 := by
  simp only [isWorkday_iff, weekday]
  constructor
  · intro hall
    have htoday := hall (days - 1) (by omega)
    refine ⟨by omega, ?_⟩
    by_contra hlong
    -- the Sunday before the week of today would be among them
    have hsunday := hall (days - 1 - ((today + 3) % 7 + 1).toNat) (by omega)
    omega
  · rintro ⟨hwork, hshort⟩ k hk
    omega

/-- **When the generated history ends today.**  It has the points that were asked for, on increasing
dates from Monday to Friday; none is later than today exactly if today is a working day and the
history is no longer than the week so far. -/
theorem simulateNav_dates_iff (seeded : R) (strftime : ℤ → String) (offset now : ℚ) {days : ℕ}
    (hdays : 1 ≤ days) :
    let points := simulateNav N rng seeded strftime offset now days
    let dates := simulateDates offset now days
    let today := localDay offset now
    points.length = days ∧ points.map NavPoint.date = dates.map strftime ∧
      dates.Pairwise (· < ·) ∧ (∀ d ∈ dates, weekday d < 5) ∧
      ((∀ d ∈ dates, d ≤ today) ↔ weekday today < 5 ∧ (days : ℤ) ≤ weekday today + 1) := by
  intro points dates today
  have hpick : dates = FirstMatches.pick isWorkday (3 * days) days (today - (days - 1 : ℕ)) :=
    simulateDates_eq_pick offset now hdays
  have hlength : dates.length = days := length_simulateDates offset now days
  refine ⟨length_simulateNav N rng seeded strftime offset now days,
    dates_simulateNav N rng seeded strftime offset now days, ?_, ?_, ?_⟩
  · rw [hpick]
    exact FirstMatches.pairwise_pick _ _ _ _
  · intro d hd
    rw [hpick] at hd
    exact isWorkday_iff.1 (FirstMatches.le_of_mem_pick hd).2
  · rw [← workdays_iff hdays, ← FirstMatches.pick_within_iff (hpick ▸ hlength), ← hpick]
    refine forall₂_congr fun d _ => ?_
    omega

/-- A generator that always draws the middle. -/
def Rng.middle : Rng Unit :=
  { uniform := fun a b s => ((a + b) / 2, s), normal := fun mu _ s => (mu, s) }

/-- Three days up to a Thursday. -/
theorem simulateNav_dates_iff_thursday :
    (1 ≤ 3) ∧ ((∀ d ∈ simulateDates 0 0 3, d ≤ localDay 0 0) ↔
      weekday (localDay 0 0) < 5 ∧ ((3 : ℕ) : ℤ) ≤ weekday (localDay 0 0) + 1) := by
  have h := simulateNav_dates_iff .runnable .middle () (fun _ => "") 0 0 (show 1 ≤ 3 by decide)
  exact ⟨by decide, h.2.2.2.2⟩

/-- The sixty points of the default window, generated on a Thursday: the last one is dated three
weeks after it. -/
theorem simulated_after_today :
    weekday (localDay 0 0) = 3 ∧ (simulateDates 0 0 60).getLast? = some (localDay 0 0 + 22) ∧
      ((simulateNav .runnable .middle () toString 0 0 60).map NavPoint.date).getLast? =
        some (toString (localDay 0 0 + 22)) := by
  have hlast : (simulateDates 0 0 60).getLast? = some (localDay 0 0 + 22) := by decide +kernel
  refine ⟨by decide +kernel, hlast, ?_⟩
  rw [dates_simulateNav, List.getLast?_map, hlast]
  rfl

end QuantFlow
