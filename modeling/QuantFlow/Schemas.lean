/-
**The records of the data layer.**

A fund's history is a list of NAV points (`backend/app/schemas.py`) in ascending date order,
labelled with where it came from and stamped with a provenance record
(`backend/app/data/provenance.py`).  Numbers are exact rationals unless another type of them is named,
clock readings are rationals in seconds, and dates are the provider's strings, which the program only
compares for equality.

Main definitions:

* `NavPoint` — one day of a fund;
* `DataSource`, `permitsResearch` — the label of a series, and the gate on it;
* `Provenance`, `provenance` — the record that accompanies a series;
* `PyError` — the exceptions the modelled code raises.
-/

import Mathlib.Data.Rat.Defs

namespace QuantFlow

/-- One day of a fund: unit NAV, accumulated NAV and the day's change in percent. -/
structure NavPoint (V : Type := ℚ) where
  date : String
  nav : V
  accNav : Option V := none
  changePct : Option V := none
  deriving DecidableEq

/-- The NAVs of a history, as every consumer extracts them. -/
def navsOf {V : Type} (points : List (NavPoint V)) : List V := points.map NavPoint.nav

/-- The date of the last point, `points[-1].date if points else None`. -/
def lastDate {V : Type} (points : List (NavPoint V)) : Option String :=
  points.getLast?.map NavPoint.date

/-- Where a series came from. -/
inductive DataSource
  | real
  | stale
  | simulated
  deriving DecidableEq

/-- `permits_research`: only provider-retrieved data supports a conclusion. -/
def permitsResearch (source : DataSource) : Bool := source = .real

@[simp] theorem permitsResearch_iff (source : DataSource) :
    permitsResearch source = true ↔ source = .real := by
  simp [permitsResearch]

/-- The record that accompanies a series. -/
structure Provenance where
  dataSource : DataSource
  provider : String
  fetchedAt : String
  dataTimestamp : Option String
  deriving DecidableEq

/-- `provenance(source, provider, data_timestamp)`.  The source normalises an unknown label to
`STALE`; every label that reaches it is one of the three. -/
def provenance (source : DataSource) (provider : String) (fetchedAt : String)
    (dataTimestamp : Option String) : Provenance :=
  { dataSource := source, provider := provider, fetchedAt := fetchedAt,
    dataTimestamp := dataTimestamp }

/-- The exceptions the modelled code raises. -/
inductive PyError
  | zeroDivision
  | typeError
  | validation
  | database
  | http (status : ℕ) (detail : String)
  deriving DecidableEq

/-- A computation that succeeds has succeeded in each of its steps. -/
theorem except_bind_eq_ok {ε α β : Type} {x : Except ε α} {f : α → Except ε β} {r : β} :
    (x >>= f) = .ok r ↔ ∃ a, x = .ok a ∧ f a = .ok r := by
  cases x with
  | error e => simp [bind, Except.bind]
  | ok a => simp [bind, Except.bind]

/-- A computation of which some part can be computed has succeeded. -/
theorem exists_ok_of_toOption {ε α β : Type} {x : Except ε α} {f : α → β} {y : β}
    (h : x.toOption.map f = some y) : ∃ a, x = .ok a ∧ f a = y := by
  cases x with
  | error e => cases h
  | ok a => exact ⟨a, rfl, Option.some.inj h⟩

end QuantFlow
