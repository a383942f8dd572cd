/-
**Fetching a history while the provider publishes.**

The provider's list is newest first, and a new row goes to its front.  A row published between two
requests of one `fetchNavReal` moves every later row down by one place, so that the next
page repeats the last row of the page before.  The pages overlap, but they leave nothing out as long
as no more than twenty rows are published in the meantime (`Paging.collect_growing`); and the loop
over the rows keeps the first row of each date (`readRows_keepFirst`).  What is fetched is
therefore a front part of the list as it was at the first request, turned around.

Main definitions:

* `GrowingHistory` — a provider that publishes while it is read.

Main results:

* `fetchNavReal_eq_take` — what is fetched is a front part of the list;
* `fetchNavReal_gapless` — **what is fetched is ascending and without gaps**.
-/

import Mathlib.Data.List.Nodup
import QuantFlow.NavPages

namespace QuantFlow

open Py (Json Str Fields)

variable {V : Type} [Floats V]

/-- The provider's list is `rows` at the first request and `added n ++ rows` at the one after the
first `n`; at most twenty rows are added in the course of the requests.  The rows at any time are
read as points of strictly descending dates. -/
structure GrowingHistory (host : TextHost V) (get : ℕ → Response) (rows : List Fields)
    (points : List (NavPoint V)) (added : ℕ → List Fields) (new : ℕ → List (NavPoint V)) : Prop where
  first : added 0 = []
  grows : ∀ n, added n <:+ added (n + 1)
  few : ∀ n, (added n).length ≤ 20
  serves : ∀ n, Answers host (get (n + 1))
    ((((added n ++ rows).map Json.obj).drop (20 * n)).take 20)
  reads : List.Forall₂ (Reads host) rows points
  readsNew : ∀ n, List.Forall₂ (Reads host) (added n) (new n)
  descending : ∀ n, (new n ++ points).Pairwise fun p q => q.date < p.date

section Fetching

variable {host : TextHost V} {get : ℕ → Response} {rows : List Fields} {points : List (NavPoint V)}
  {added : ℕ → List Fields} {new : ℕ → List (NavPoint V)}

theorem GrowingHistory.servesGrowing (h : GrowingHistory host get rows points added new) :
    Paging.ServesGrowing 20 (requestPage host get) (rows.map Json.obj)
      fun n => (added n).map Json.obj where
  first := by rw [h.first, List.map_nil]
  grows := fun n => (h.grows n).map Json.obj
  few := fun n => by rw [List.length_map]; exact h.few n
  pages := fun n => by rw [← List.map_append]; exact (h.serves n).requestPage

theorem GrowingHistory.initial (h : GrowingHistory host get rows points added new) :
    points.Pairwise fun p q => q.date < p.date :=
  (List.pairwise_append.1 (h.descending 0)).2.1

theorem fetchNavReal_nonpos {days : ℤ} (hdays : days ≤ 0) : fetchNavReal host get days = none := by
  rw [fetchNavReal, Paging.collect_of_nonpos 20 hdays]
  rfl

/-- What is fetched is a front part of the list at the first request, turned around. -/
theorem fetchNavReal_eq_take (h : GrowingHistory host get rows points added new) {days : ℤ}
    {result : List (NavPoint V)} (hresult : fetchNavReal host get days = some result) :
    ∃ k, result = (points.take k).reverse := by
  have hdays : 0 < days := by
    by_contra hnone
    rw [fetchNavReal_nonpos (by omega)] at hresult
    exact Option.some_ne_none result hresult.symm
  obtain ⟨ws, k, hcollect, hcovers⟩ := Paging.collect_growing h.servesGrowing days 20 0
    Paging.Covers.nil (by simp) (by simp)
  have hread : readRows host (Paging.windows (rows.map Json.obj) ws) [] [] =
      some (points.take k) := by
    rw [Paging.windows_map, readRows_keepFirst (Paging.forall₂_windows h.reads ws) (by simp),
      Paging.keepFirst_windows (dates_nodup h.initial) hcovers]
  have hcollect' : Paging.collect 20 days (requestPage host get) 20 1 [] =
      some (Paging.windows (rows.map Json.obj) ws) := hcollect
  rw [fetchNavReal, hcollect'] at hresult
  simp only [Option.bind_eq_bind, Option.bind_some, hread] at hresult
  split at hresult
  · exact absurd hresult.symm (Option.some_ne_none result)
  · split at hresult
    · exact absurd hresult.symm (Option.some_ne_none result)
    · refine ⟨min days.toNat k, ?_⟩
      rw [← Option.some.inj hresult, lastOf_reverse _ hdays, List.take_take]

/-- **What is fetched is ascending and without gaps**, whatever is published between the requests:
the dates are strictly ascending and distinct, the points are consecutive rows of the provider's
list at any of the requests, and no row of it between two of them is missing. -/
theorem fetchNavReal_gapless (h : GrowingHistory host get rows points added new) (days : ℤ)
    {result : List (NavPoint V)} (hresult : fetchNavReal host get days = some result) :
    (result.Pairwise fun p q => p.date < q.date) ∧ (result.map NavPoint.date).Nodup ∧
      (∀ n, result.reverse <:+: new n ++ points) ∧
      ∀ n, ∀ p ∈ new n ++ points, ∀ a ∈ result, ∀ b ∈ result,
        a.date ≤ p.date → p.date ≤ b.date → p ∈ result := by
  obtain ⟨k, rfl⟩ := fetchNavReal_eq_take h hresult
  have hpoints := h.initial
  refine ⟨?_, ?_, ?_, ?_⟩
  · rw [List.pairwise_reverse]
    exact hpoints.sublist (List.take_sublist k points)
  · rw [List.map_reverse, List.nodup_reverse, List.map_take]
    exact (dates_nodup h.initial).sublist (List.take_sublist k _)
  · intro n
    rw [List.reverse_reverse]
    exact (List.take_prefix k points).isInfix.trans (List.suffix_append (new n) points).isInfix
  · intro n p hp a ha b hb hap hpb
    rw [List.mem_reverse] at ha hb ⊢
    rcases List.mem_append.1 hp with hnew | hold
    · -- A row that was added is newer than all that were there.
      have hlt := (List.pairwise_append.1 (h.descending n)).2.2 p hnew b (List.mem_of_mem_take hb)
      exact absurd hlt (String.not_lt.2 hpb)
    · rw [← List.take_append_drop k points] at hold hpoints
      rcases List.mem_append.1 hold with htake | hdrop
      · exact htake
      · have hlt := (List.pairwise_append.1 hpoints).2.2 a ha p hdrop
        exact absurd hlt (String.not_lt.2 hap)

end Fetching

/-! Twenty-five days on two pages, and another that is published between the two requests. -/

def monthDates : List String := (List.range 25).map fun i => toString (125 - i)

def monthRows : List Fields := monthDates.map sampleRow

def monthPoints : List NavPoint := monthDates.map fun d => { date := d, nav := 1 }

/-- The rows of the pages; the second page repeats the last row of the first. -/
def monthPage : ℕ → List Fields
  | 1 => monthRows.take 20
  | 2 => monthRows.drop 19
  | _ => []

/-- `json.loads` on the texts of the pages, and `float` on the text of the NAVs. -/
def monthHost : TextHost :=
  { sampleHost with
    loads := fun s =>
      if s = (Json.obj (pageData (monthPage 1))).dumpsRaw then some (.obj (pageData (monthPage 1)))
      else if s = (Json.obj (pageData (monthPage 2))).dumpsRaw then
        some (.obj (pageData (monthPage 2)))
      else some (.obj (pageData [])) }

def monthPages (n : ℕ) : Response := .answered 200 (pageText (monthPage n))

def publishedRows (n : ℕ) : List Fields := if n = 0 then [] else [sampleRow "126"]

def publishedPoints (n : ℕ) : List NavPoint := if n = 0 then [] else [{ date := "126", nav := 1 }]

theorem answers_month (n : ℕ) :
    Answers monthHost (monthPages (n + 1)) ((monthPage (n + 1)).map Json.obj) := by
  have hfirst : ∀ k ∈ [2, 3], (Json.obj (pageData (monthPage k))).dumpsRaw ≠
      (Json.obj (pageData (monthPage 1))).dumpsRaw := by decide +kernel
  have hsecond : (Json.obj (pageData (monthPage 3))).dumpsRaw ≠
      (Json.obj (pageData (monthPage 2))).dumpsRaw := by decide +kernel
  have hloads : monthHost.loads (Json.obj (pageData (monthPage (n + 1)))).dumpsRaw =
      some (.obj (pageData (monthPage (n + 1)))) := by
    rcases n with _ | _ | n
    · simp only [monthHost, if_true]
    · simp only [monthHost, if_neg (hfirst 2 (by simp)), if_true]
    · have hlast : monthPage (n + 2 + 1) = monthPage 3 := rfl
      simp only [hlast, monthHost, if_neg (hfirst 3 (by simp)), if_neg hsecond]
      rfl
  exact ⟨_, _, _, rfl, (parseJsonp_pageText monthHost _).trans hloads, rfl, rfl⟩

theorem growingHistory_month : GrowingHistory monthHost monthPages monthRows monthPoints
    publishedRows publishedPoints where
  first := rfl
  grows := by
    intro n
    cases n with
    | zero => exact List.nil_suffix
    | succ n => exact List.suffix_refl _
  few := by
    intro n
    cases n with
    | zero => exact Nat.zero_le 20
    | succ n => exact Nat.succ_le_succ (Nat.zero_le 19)
  serves := by
    intro n
    have hpage : ((publishedRows n ++ monthRows).drop (20 * n)).take 20 = monthPage (n + 1) := by
      rcases n with _ | _ | n
      · rfl
      · rfl
      · have hnone : (publishedRows (n + 2) ++ monthRows).drop (20 * (n + 2)) = [] := by
          rw [List.drop_eq_nil_iff]
          show 26 ≤ 20 * (n + 2)
          omega
        rw [hnone]
        rfl
    rw [← List.map_drop, ← List.map_take, hpage]
    exact answers_month n
  reads := by
    rw [monthRows, monthPoints, List.forall₂_map_left_iff, List.forall₂_map_right_iff,
      List.forall₂_same]
    intro d _
    exact ⟨rfl, rfl, rfl, rfl⟩
  readsNew := by
    intro n
    cases n with
    | zero => exact List.Forall₂.nil
    | succ n => exact .cons ⟨rfl, rfl, rfl, rfl⟩ .nil
  descending := by
    intro n
    have hall : ∀ k ∈ [0, 1],
        (publishedPoints k ++ monthPoints).Pairwise fun p q => q.date < p.date := by
      decide +kernel
    cases n with
    | zero => exact hall 0 (by simp)
    | succ n => exact hall 1 (by simp)

theorem fetchNavReal_gapless_month :
    fetchNavReal monthHost monthPages 30 = some monthPoints.reverse ∧
      (monthPoints.reverse.Pairwise fun p q => p.date < q.date) ∧
      monthPoints.reverse.reverse <:+: publishedPoints 1 ++ monthPoints := by
  have hfetch : fetchNavReal monthHost monthPages 30 = some monthPoints.reverse := by
    have hfull : ((monthPage 1).map Json.obj).length = 20 := by
      simp [monthPage, monthRows, monthDates]
    have hshort : ((monthPage 2).map Json.obj).length = 6 := by
      simp [monthPage, monthRows, monthDates]
    have hcollect : Paging.collect 20 30 (requestPage monthHost monthPages) 20 1 [] =
        some ((monthPage 1 ++ monthPage 2).map Json.obj) := by
      rw [Paging.collect_page (answers_month 0).requestPage (by rw [hfull]; decide) (by simp),
        if_neg (by rw [hfull]; decide), List.nil_append,
        Paging.collect_page (answers_month 1).requestPage (by rw [hshort]; decide)
          (by rw [hfull]; decide),
        if_pos (by rw [hshort]; decide), List.map_append]
    have hreads : List.Forall₂ (Reads monthHost) (monthPage 1 ++ monthPage 2)
        (monthPoints.take 20 ++ monthPoints.drop 19) :=
      List.rel_append (List.forall₂_take 20 growingHistory_month.reads)
        (List.forall₂_drop 19 growingHistory_month.reads)
    have hkept : Paging.keepFirst NavPoint.date [] (monthPoints.take 20 ++ monthPoints.drop 19) =
        monthPoints := by decide +kernel
    have hread : readRows monthHost ((monthPage 1 ++ monthPage 2).map Json.obj) [] [] =
        some monthPoints := by
      rw [readRows_keepFirst hreads (by simp), hkept]
    have hsome : (monthPage 1 ++ monthPage 2).map Json.obj ≠ [] := by
      rw [List.map_append, ← List.length_pos_iff, List.length_append, hfull]
      exact Nat.add_pos_left (by decide) _
    have hlength : monthPoints.length = 25 := by simp [monthPoints, monthDates]
    rw [fetchNavReal_of_read hcollect hsome hread (by rw [hlength]; decide),
      lastOf_reverse _ (by decide), List.take_of_length_le (by rw [hlength]; decide)]
  obtain ⟨hascending, -, hconsecutive, -⟩ := fetchNavReal_gapless growingHistory_month 30 hfetch
  exact ⟨hfetch, hascending, hconsecutive 1⟩

end QuantFlow
