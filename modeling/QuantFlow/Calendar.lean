/-
**Dates and times of day in the Gregorian calendar.**

A date is a year, a month and a day of it, a time of day an hour, a minute, a second and a
microsecond, each within its range.  A date has a number, the days from the start of year 0 to it, and
a date with a time of day is an instant, in microseconds.  Both numbers order the fields from the
largest unit down.

Main definitions:

* `Date`, `Time` — the fields, with their ranges;
* `Date.ordinal`, `Time.micros` — their numbers;
* `DateTime.instant` — the instant of a date and a time.

Main results:

* `Date.ordinal_lt_iff`, `Time.micros_lt_iff` — the fields decide in turn;
* `DateTime.instant_lt_iff` — the date decides, then the time.
-/

import Mathlib.Algebra.BigOperators.Group.Finset.Basic
import Mathlib.Algebra.Order.BigOperators.Group.Finset
import QuantFlow.OrderedText

open OrderedText (block_lt_iff radix_lt_iff)

namespace Calendar

/-! ### Years and months -/

def isLeap (year : ℕ) : Bool :=
  decide (year % 4 = 0) && (decide (year % 100 ≠ 0) || decide (year % 400 = 0))

/-- The days of a month; months are numbered from 1. -/
def monthDays (year : ℕ) : ℕ → ℕ
  | 2 => if isLeap year then 29 else 28
  | 4 | 6 | 9 | 11 => 30
  | 1 | 3 | 5 | 7 | 8 | 10 | 12 => 31
  | _ => 0

theorem monthDays_le (year month : ℕ) : monthDays year month ≤ 31 := by
  unfold monthDays
  split
  · split <;> decide
  all_goals decide

/-- The days of a year before a month. -/
def monthStart (year month : ℕ) : ℕ :=
  ∑ m ∈ Finset.range month, monthDays year m

def yearDays (year : ℕ) : ℕ :=
  monthStart year 13

/-- The days from the start of year 0 to the start of a year. -/
def yearStart (year : ℕ) : ℕ :=
  ∑ y ∈ Finset.range year, yearDays y

theorem sum_range_block_le (len : ℕ → ℕ) {a b : ℕ} (h : a < b) :
    ∑ i ∈ Finset.range a, len i + len a ≤ ∑ i ∈ Finset.range b, len i := by
  rw [← Finset.sum_range_succ]
  exact Finset.sum_le_sum_of_subset (Finset.range_mono h)

/-! ### Dates -/

structure Date where
  year : ℕ
  month : ℕ
  day : ℕ
  year_range : 1 ≤ year ∧ year ≤ 9999
  month_range : 1 ≤ month ∧ month ≤ 12
  day_range : 1 ≤ day ∧ day ≤ monthDays year month

namespace Date

/-- The days from the start of year 0 to a date. -/
def ordinal (d : Date) : ℕ :=
  yearStart d.year + (monthStart d.year d.month + (d.day - 1))

/-- One date precedes another, by the first field that differs. -/
def Before (d e : Date) : Prop :=
  d.year < e.year ∨ d.year = e.year ∧
    (d.month < e.month ∨ d.month = e.month ∧ d.day < e.day)

theorem day_lt (d : Date) : d.day - 1 < monthDays d.year d.month := by
  have hday := d.day_range
  omega

theorem day_in_year_lt (d : Date) :
    monthStart d.year d.month + (d.day - 1) < yearDays d.year := by
  have hmonth : monthStart d.year d.month + monthDays d.year d.month ≤ yearDays d.year :=
    sum_range_block_le (monthDays d.year) (Nat.lt_succ_of_le d.month_range.2)
  have hday := d.day_lt
  omega

theorem ordinal_lt_iff (d e : Date) : d.ordinal < e.ordinal ↔ d.Before e := by
  unfold ordinal Before
  rw [block_lt_iff yearStart yearDays (fun _ _ => sum_range_block_le yearDays) d.day_in_year_lt
    e.day_in_year_lt]
  refine or_congr_right (and_congr_right fun hyear => ?_)
  rw [hyear, block_lt_iff (monthStart e.year) (monthDays e.year)
    (fun _ _ => sum_range_block_le (monthDays e.year)) (hyear ▸ d.day_lt) e.day_lt]
  have hd := d.day_range
  have he := e.day_range
  omega

theorem eq_of_not_before {d e : Date} (hde : ¬ d.Before e) (hed : ¬ e.Before d) : d = e := by
  unfold Before at hde hed
  obtain ⟨year, month, day, _, _, _⟩ := d
  obtain ⟨year', month', day', _, _, _⟩ := e
  dsimp only at hde hed
  obtain rfl : year = year' := by omega
  obtain rfl : month = month' := by omega
  obtain rfl : day = day' := by omega
  rfl

theorem ordinal_inj_iff (d e : Date) : d.ordinal = e.ordinal ↔ d = e := by
  constructor
  · intro heq
    refine eq_of_not_before (fun hlt => ?_) (fun hlt => ?_)
    · exact absurd ((ordinal_lt_iff d e).2 hlt) (by omega)
    · exact absurd ((ordinal_lt_iff e d).2 hlt) (by omega)
  · rintro rfl
    rfl

end Date

/-! ### Times of day -/

structure Time where
  hour : ℕ
  minute : ℕ
  second : ℕ
  microsecond : ℕ
  hour_range : hour < 24
  minute_range : minute < 60
  second_range : second < 60
  microsecond_range : microsecond < 1000000

namespace Time

/-- The microseconds from midnight. -/
def micros (t : Time) : ℕ :=
  t.hour * 3600000000 + (t.minute * 60000000 + (t.second * 1000000 + t.microsecond))

/-- One time of day precedes another, by the first field that differs. -/
def Before (t u : Time) : Prop :=
  t.hour < u.hour ∨ t.hour = u.hour ∧
    (t.minute < u.minute ∨ t.minute = u.minute ∧
      (t.second < u.second ∨ t.second = u.second ∧ t.microsecond < u.microsecond))

theorem micros_lt (t : Time) : t.micros < 86400000000 := by
  have hhour := t.hour_range
  have hminute := t.minute_range
  have hsecond := t.second_range
  have hmicro := t.microsecond_range
  unfold micros
  omega

theorem micros_lt_iff (t u : Time) : t.micros < u.micros ↔ t.Before u := by
  obtain ⟨h, m, s, us, hh, hm, hs, hus⟩ := t
  obtain ⟨h', m', s', us', hh', hm', hs', hus'⟩ := u
  dsimp only [micros, Before]
  rw [radix_lt_iff (by omega) (by omega), radix_lt_iff (by omega) (by omega),
    radix_lt_iff hus hus']

end Time

/-! ### Instants -/

/-- A date and a time of day, in universal time. -/
structure DateTime where
  date : Date
  time : Time

namespace DateTime

/-- The microseconds from the start of year 0. -/
def instant (x : DateTime) : ℕ :=
  x.date.ordinal * 86400000000 + x.time.micros

theorem instant_lt_iff (x y : DateTime) :
    x.instant < y.instant ↔ x.date.Before y.date ∨ x.date = y.date ∧ x.time.Before y.time := by
  unfold instant
  rw [radix_lt_iff x.time.micros_lt y.time.micros_lt, Date.ordinal_lt_iff, Date.ordinal_inj_iff,
    Time.micros_lt_iff]

end DateTime

end Calendar
