/-
**Experiments are listed newest first.**

`registry._now` stamps an experiment with the text of the current UTC time, as
`datetime.isoformat` writes it: the fraction of the second is left out when it is zero, so these
texts do not all have one length.  `list_experiments` sorts by that text.  The sign of the offset
sorts before the point of a fraction, so the order of the texts is the order of the instants.

SQLite may put experiments of one stamp in any order, so what a listing selects is a relation.

Main definitions:

* `isoformat` — the text of an instant;
* `Stamped` — every experiment has its own id and the text of an instant;
* `Selects`, `listing` — the ids selected, and their experiments.

Main results:

* `isoformat_lt_iff` — text order is time order;
* `stamped_of_creates` — what `create_experiment` leaves is stamped;
* `listing_newest_first` — **a listing has the newest experiments, newest first**.
-/

import Mathlib.Data.String.Basic
import QuantFlow.Calendar
import QuantFlow.ResearchDb

open Calendar (Date Time DateTime)
open OrderedText (digits length_digits digits_lt_iff field_lt_iff append_lt_append_iff)

namespace QuantFlow.Listing

/-! ### The text of an instant -/

def dateText (d : Date) : List Char :=
  digits 4 d.year ++ '-' :: (digits 2 d.month ++ '-' :: digits 2 d.day)

/-- The fraction of the second, unless it is zero, and the offset of UTC. -/
def fractionText (microsecond : ℕ) : List Char :=
  if microsecond = 0 then "+00:00".toList else '.' :: (digits 6 microsecond ++ "+00:00".toList)

def timeText (t : Time) : List Char :=
  digits 2 t.hour ++ ':' :: (digits 2 t.minute ++ ':' ::
    (digits 2 t.second ++ fractionText t.microsecond))

/-- `datetime.isoformat()` of a time in UTC; `_now()` at that instant. -/
def isoformat (x : DateTime) : String :=
  String.ofList (dateText x.date ++ 'T' :: timeText x.time)

theorem cons_lt_cons_same (c : Char) (x y : List Char) : c :: x < c :: y ↔ x < y := by
  rw [List.cons_lt_cons_iff]
  simp

theorem dateText_lt_iff (d e : Date) : dateText d < dateText e ↔ d.Before e := by
  have two_digits (f : Date) : f.year < 10 ^ 4 ∧ f.month < 10 ^ 2 ∧ f.day < 10 ^ 2 := by
    have hyear := f.year_range
    have hmonth := f.month_range
    have hday := f.day_range.2.trans (Calendar.monthDays_le f.year f.month)
    omega
  obtain ⟨hdy, hdm, hdd⟩ := two_digits d
  obtain ⟨hey, hem, hed⟩ := two_digits e
  unfold dateText Date.Before
  rw [field_lt_iff hdy hey, cons_lt_cons_same, field_lt_iff hdm hem, cons_lt_cons_same,
    digits_lt_iff hdd hed]

theorem dateText_inj_iff (d e : Date) : dateText d = dateText e ↔ d = e := by
  constructor
  · intro heq
    refine Date.eq_of_not_before (fun hlt => ?_) (fun hlt => ?_)
    · exact absurd ((dateText_lt_iff d e).2 hlt) (heq ▸ lt_irrefl _)
    · exact absurd ((dateText_lt_iff e d).2 hlt) (heq ▸ lt_irrefl _)
  · rintro rfl
    rfl

-- A text without a fraction goes on with the sign of the offset, which sorts before the point.
theorem fractionText_lt_iff {m n : ℕ} (hm : m < 10 ^ 6) (hn : n < 10 ^ 6) :
    fractionText m < fractionText n ↔ m < n := by
  unfold fractionText
  by_cases hm0 : m = 0
  · by_cases hn0 : n = 0
    · rw [if_pos hm0, if_pos hn0, hm0, hn0]
      simp
    · rw [if_pos hm0, if_neg hn0]
      have hsign : "+00:00".toList < '.' :: (digits 6 n ++ "+00:00".toList) :=
        List.cons_lt_cons_iff.2 (.inl (by decide))
      exact iff_of_true hsign (by omega)
  · by_cases hn0 : n = 0
    · rw [if_neg hm0, if_pos hn0]
      have hsign : "+00:00".toList < '.' :: (digits 6 m ++ "+00:00".toList) :=
        List.cons_lt_cons_iff.2 (.inl (by decide))
      exact iff_of_false hsign.not_gt (by omega)
    · rw [if_neg hm0, if_neg hn0, cons_lt_cons_same, field_lt_iff hm hn]
      simp

theorem timeText_lt_iff (t u : Time) : timeText t < timeText u ↔ t.Before u := by
  obtain ⟨h, m, s, us, hh, hm, hs, hus⟩ := t
  obtain ⟨h', m', s', us', hh', hm', hs', hus'⟩ := u
  dsimp only [timeText, Time.Before]
  rw [field_lt_iff (by omega) (by omega), cons_lt_cons_same, field_lt_iff (by omega) (by omega),
    cons_lt_cons_same, field_lt_iff (by omega) (by omega), fractionText_lt_iff hus hus']

/-- **Text order is time order.** -/
theorem isoformat_lt_iff (x y : DateTime) : isoformat x < isoformat y ↔ x.instant < y.instant := by
  have hlength : (dateText x.date).length = (dateText y.date).length := by simp [dateText]
  rw [String.lt_iff_toList_lt, isoformat, isoformat, String.toList_ofList, String.toList_ofList,
    append_lt_append_iff hlength, cons_lt_cons_same, dateText_lt_iff, dateText_inj_iff,
    timeText_lt_iff, DateTime.instant_lt_iff]

theorem isoformat_le_iff (x y : DateTime) : isoformat x ≤ isoformat y ↔ x.instant ≤ y.instant := by
  rw [← not_lt, isoformat_lt_iff, not_lt]

/-! ### The stored experiments -/

/-- The experiments have ids of their own and the texts of the instants given for them. -/
structure Stamped (t : Tables) (created : String → DateTime) : Prop where
  keys : (t.experiments.map (·.experimentId)).Nodup
  stamps : ∀ r ∈ t.experiments, r.createdAt = isoformat (created r.experimentId)

theorem Stamped.create {t t' : Tables} {created : String → DateTime} {accepts : Bool} {id : String}
    {x : DateTime} {req : ExperimentCreate} {row : ExperimentRow} (h : Stamped t created)
    (hcreate : createExperiment accepts id (isoformat x) req t = .ok (row, t')) :
    Stamped t' (Function.update created row.experimentId x) := by
  obtain ⟨⟨-, hadmits⟩, rfl, rfl⟩ := createExperiment_ok_iff.1 hcreate
  rw [Tables.admits, Bool.and_eq_true, List.all_eq_true] at hadmits
  have hfree (r : ExperimentRow) (hr : r ∈ t.experiments) :
      r.experimentId ≠ (rowOf id (isoformat x) req).experimentId :=
    of_decide_eq_true (hadmits.2 r hr)
  constructor
  · rw [List.map_append, List.map_singleton, List.nodup_append]
    refine ⟨h.keys, List.nodup_singleton _, fun a ha b hb => ?_⟩
    obtain ⟨r, hr, rfl⟩ := List.mem_map.1 ha
    rw [List.mem_singleton.1 hb]
    exact hfree r hr
  · intro r hr
    rcases List.mem_append.1 hr with hr | hr
    · rw [Function.update_of_ne (hfree r hr)]
      exact h.stamps r hr
    · rw [List.mem_singleton.1 hr, Function.update_self]
      rfl

/-- A call of `create_experiment` at an instant; one that raises changes nothing. -/
def record (t : Tables) (call : Bool × String × DateTime × ExperimentCreate) : Tables :=
  match createExperiment call.1 call.2.1 (isoformat call.2.2.1) call.2.2.2 t with
  | .ok (_, t') => t'
  | .error _ => t

theorem stamped_of_creates (calls : List (Bool × String × DateTime × ExperimentCreate)) :
    ∀ {t : Tables} {created : String → DateTime}, Stamped t created →
      ∃ created', Stamped (calls.foldl record t) created' := by
  induction calls with
  | nil => exact fun h => ⟨_, h⟩
  | cons call calls ih =>
    intro t created h
    rw [List.foldl_cons]
    unfold record
    split
    · exact ih (h.create ‹_›)
    · exact ih h

/-! ### The listing -/

/-- `LIMIT`; a negative one cuts nothing. -/
def cut {α : Type} (limit : ℤ) (rows : List α) : List α :=
  if limit < 0 then rows else rows.take limit.toNat

theorem cut_natCast {α : Type} (limit : ℕ) (rows : List α) :
    cut (limit : ℤ) rows = rows.take limit := by
  rw [cut, if_neg (by omega), Int.toNat_natCast]

theorem cut_eq_take {α : Type} (limit : ℤ) (rows : List α) :
    ∃ n : ℕ, cut limit rows = rows.take n ∧ (0 ≤ limit → (n : ℤ) = limit) := by
  by_cases hneg : limit < 0
  · refine ⟨rows.length, ?_, fun hlimit => absurd hneg (not_lt.2 hlimit)⟩
    rw [cut, if_pos hneg, List.take_length]
  · refine ⟨limit.toNat, ?_, Int.toNat_of_nonneg⟩
    rw [cut, if_neg hneg]

/-- `SELECT experiment_id FROM experiments ORDER BY created_at DESC LIMIT ?` may give these ids. -/
def Selects (t : Tables) (limit : ℤ) (ids : List String) : Prop :=
  ∃ rows : List ExperimentRow, rows.Perm t.experiments ∧
    rows.Pairwise (fun a b => b.createdAt ≤ a.createdAt) ∧
    ids = (cut limit rows).map (·.experimentId)

/-- `list_experiments(limit)` of the ids it selected. -/
def listing (t : Tables) (ids : List String) : List (Option ExperimentRow) :=
  ids.map (getExperiment t)

theorem listExperiments_eq_listing (t : Tables) (limit : ℕ) :
    ∃ ids, Selects t limit ids ∧ listExperiments t limit = (listing t ids).filterMap id := by
  have hsorted : (t.experiments.mergeSort fun a b => b.createdAt ≤ a.createdAt).Pairwise
      fun a b => decide (b.createdAt ≤ a.createdAt) = true := by
    apply List.pairwise_mergeSort
    · intro a b c hab hbc
      simp only [decide_eq_true_eq] at hab hbc ⊢
      exact hbc.trans hab
    · intro a b
      simpa using le_total _ _
  refine ⟨_, ⟨_, List.mergeSort_perm _ _, hsorted.imp of_decide_eq_true, rfl⟩, ?_⟩
  rw [cut_natCast, listing, List.map_map, List.filterMap_map]
  rfl

theorem getExperiment_of_mem {t : Tables} (hkeys : (t.experiments.map (·.experimentId)).Nodup)
    {r : ExperimentRow} (hr : r ∈ t.experiments) : getExperiment t r.experimentId = some r := by
  unfold getExperiment
  cases hfind : t.experiments.find? fun s => s.experimentId = r.experimentId with
  | none =>
    rw [List.find?_eq_none] at hfind
    exact absurd (decide_eq_true rfl) (hfind r hr)
  | some s =>
    have hid := List.find?_some hfind
    rw [decide_eq_true_eq] at hid
    rw [List.inj_on_of_nodup_map hkeys (List.mem_of_find?_eq_some hfind) hr hid]

/-- Experiments listed newest first: as many as the limit asks for, in the order of their instants,
and none left out is newer. -/
structure NewestFirst (t : Tables) (limit : ℤ) (instant : ExperimentRow → ℕ)
    (rows : List ExperimentRow) : Prop where
  stored : ∃ others, (rows ++ others).Perm t.experiments
  count : 0 ≤ limit → (rows.length : ℤ) = min limit t.experiments.length
  sorted : rows.Pairwise fun a b => instant b ≤ instant a
  newest : ∀ s ∈ t.experiments, s ∉ rows → ∀ r ∈ rows, instant s ≤ instant r

theorem newestFirst_cut {t : Tables} {limit : ℤ} {instant : ExperimentRow → ℕ}
    {rows : List ExperimentRow} (hperm : rows.Perm t.experiments)
    (hsorted : rows.Pairwise fun a b => instant b ≤ instant a) :
    NewestFirst t limit instant (cut limit rows) := by
  obtain ⟨n, hcut, hn⟩ := cut_eq_take limit rows
  rw [hcut]
  have hsplit := hsorted
  rw [← List.take_append_drop n rows, List.pairwise_append] at hsplit
  constructor
  · exact ⟨rows.drop n, by rwa [List.take_append_drop]⟩
  · intro hlimit
    rw [List.length_take, hperm.length_eq, ← hn hlimit]
    omega
  · exact hsplit.1
  · intro s hs hnot r hr
    have hmem : s ∈ rows.take n ++ rows.drop n := by
      rw [List.take_append_drop]
      exact hperm.mem_iff.2 hs
    exact hsplit.2.2 r hr s ((List.mem_append.1 hmem).resolve_left hnot)

/-- **A listing has the newest experiments, newest first**, and text order is time order for every
pair of instants. -/
theorem listing_newest_first {t : Tables} {created : String → DateTime} {limit : ℤ}
    {ids : List String} (hstamped : Stamped t created) (hids : Selects t limit ids) :
    (∃ rows, listing t ids = rows.map some ∧
        NewestFirst t limit (fun r => (created r.experimentId).instant) rows) ∧
      ∀ x y : DateTime, isoformat x < isoformat y ↔ x.instant < y.instant := by
  obtain ⟨rows, hperm, hsorted, rfl⟩ := hids
  refine ⟨⟨cut limit rows, ?_, newestFirst_cut hperm ?_⟩, isoformat_lt_iff⟩
  · rw [listing, List.map_map]
    refine List.map_congr_left fun r hr => getExperiment_of_mem hstamped.keys ?_
    obtain ⟨n, hcut, -⟩ := cut_eq_take limit rows
    rw [hcut] at hr
    exact hperm.mem_iff.1 (List.mem_of_mem_take hr)
  · refine hsorted.imp_of_mem fun {a b} ha hb hab => ?_
    rw [hstamped.stamps a (hperm.mem_iff.1 ha), hstamped.stamps b (hperm.mem_iff.1 hb)] at hab
    exact (isoformat_le_iff _ _).1 hab

/-! Two experiments of one second, the first of them at its very start. -/

def leapDay (microsecond : ℕ) (h : microsecond < 1000000) : DateTime :=
  { date := ⟨2024, 2, 29, by decide, by decide, by decide⟩
    time := ⟨7, 5, 0, microsecond, by decide, by decide, by decide, h⟩ }

def onset : DateTime := leapDay 0 (by decide)

def tick : DateTime := leapDay 1 (by decide)

def shortRequest : ExperimentCreate :=
  { hypothesis := "short averages", researchQuestion := "do they win?", baseline := "10/60",
    candidate := "5/20", trainPeriod := "2021", validationPeriod := "2022", testPeriod := "2023",
    benchmark := "hold", parameters := [], bounds := by decide }

def twoExperiments : Tables :=
  { experiments := [rowOf "1" (isoformat onset) shortRequest,
      rowOf "2" (isoformat tick) shortRequest],
    strategyVersions := [], approvals := [] }

def twoInstants (id : String) : DateTime :=
  if id = "EXP-1" then onset else tick

theorem stamped_two : Stamped twoExperiments twoInstants := by
  constructor
  · decide
  · intro r hr
    rcases List.mem_pair.1 hr with rfl | rfl <;> rfl

theorem selects_two : Selects twoExperiments 20 ["EXP-2", "EXP-1"] := by
  have htime : onset.time.Before tick.time := .inr ⟨rfl, .inr ⟨rfl, .inr ⟨rfl, by decide⟩⟩⟩
  have hle : isoformat onset ≤ isoformat tick :=
    (isoformat_le_iff onset tick).2 ((DateTime.instant_lt_iff onset tick).2 (.inr ⟨rfl, htime⟩)).le
  exact ⟨[rowOf "2" (isoformat tick) shortRequest, rowOf "1" (isoformat onset) shortRequest],
    List.Perm.swap _ _ _, List.pairwise_pair.2 hle, rfl⟩

theorem listing_newest_first_two :
    isoformat onset = "2024-02-29T07:05:00+00:00" ∧
      isoformat tick = "2024-02-29T07:05:00.000001+00:00" ∧
      ∃ rows, listing twoExperiments ["EXP-2", "EXP-1"] = rows.map some ∧
        NewestFirst twoExperiments 20 (fun r => (twoInstants r.experimentId).instant) rows :=
  ⟨by decide, by decide, (listing_newest_first stamped_two selects_two).1⟩

end QuantFlow.Listing
