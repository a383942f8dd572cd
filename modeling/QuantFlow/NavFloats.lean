/-
**What `float` accepts as a NAV.**

`fetchNavReal` is about exact numbers: a text of no finite number counts as one that
`float` refuses.  Python's `float` takes more: zero and negative numbers, and the texts of the
infinities and of NaN.  `fetch_nav_real` of `backend/app/fund_data.py` skips a row only when the
conversion of its `DWJZ` raises, and neither it nor `get_nav` looks at the value.

This module takes the loop over the rows with the values `float` really has.  The label REAL says
nothing about the sign or finiteness of the NAVs: each is the conversion of one of the rows that were
kept.

Main definitions:

* `FloatValue` — the values of `float`;
* `keptRows` — the rows that are made into points.

Main results:

* `real_navs_positive_iff` — **when every NAV of a REAL series can be divided by**.
-/

import QuantFlow.NavPages

namespace QuantFlow

open Py (Json Str Fields Float64)

/-! ### Conversions -/

/-- A value of type `float`. -/
inductive FloatValue
  | finite (value : ℚ)
  | inf (negative : Bool)
  | nan
  deriving DecidableEq

def FloatValue.ofFloat64 : Float64 → FloatValue
  | .finite value _ => .finite value
  | .inf negative => .inf negative
  | .nan => .nan

instance : Floats FloatValue where
  ofRat := .finite
  ofFloat64 := fun x => some (.ofFloat64 x)

abbrev FloatHost := TextHost FloatValue

/-- A point with the values the code computes with. -/
abbrev FloatPoint := NavPoint FloatValue

/-- A point of exact numbers, taken for floats. -/
def NavPoint.floats (p : NavPoint) : FloatPoint :=
  { date := p.date, nav := .finite p.nav, accNav := p.accNav.map FloatValue.finite,
    changePct := p.changePct.map FloatValue.finite }

/-! ### The NAVs of a series -/

variable {host : FloatHost}

variable (host) in
/-- The rows that are made into points: those with a convertible `DWJZ` that come first for their
date. -/
def keptRows : List Json → List Str → List Fields
  | .obj row :: rows, seen =>
    match floatOf host (Fields.get row "DWJZ") with
    | .number _ =>
      match Fields.get row "FSRQ" with
      | .str date =>
        if date ∈ seen then keptRows rows seen else row :: keptRows rows (date :: seen)
      | _ => []
    | _ => keptRows rows seen
  | _, _ => []

/-- The row's `DWJZ` converts to the NAV of the point. -/
def Gives (host : FloatHost) (row : Fields) (p : FloatPoint) : Prop :=
  floatOf host (Fields.get row "DWJZ") = .number p.nav

/-- Each point has its NAV from the row it is made of. -/
theorem readRows_kept {rows : List Json} {seen : List Str} {before points : List FloatPoint}
    (h : readRows host rows seen before = some points) :
    ∃ read, points = before ++ read ∧
      List.Forall₂ (Gives host) (keptRows host rows seen) read := by
  induction rows generalizing seen before with
  | nil =>
    obtain rfl := Option.some.inj h
    exact ⟨[], (List.append_nil before).symm, List.Forall₂.nil⟩
  | cons x rows ih =>
    cases x with
    | obj row =>
      rw [readRows] at h
      rw [keptRows]
      cases hnav : floatOf host (Fields.get row "DWJZ") with
      | refused =>
        rw [hnav] at h
        exact ih h
      | raised =>
        rw [hnav] at h
        cases h
      | number nav =>
        rw [hnav] at h
        cases hdate : Fields.get row "FSRQ" with
        | str date =>
          rw [hdate] at h
          simp only at h ⊢
          by_cases hseen : date ∈ seen
          · rw [if_pos hseen] at h ⊢
            exact ih h
          · rw [if_neg hseen] at h ⊢
            obtain ⟨accNav, -, hacc⟩ := Option.bind_eq_some_iff.1 h
            obtain ⟨changePct, -, hrest⟩ := Option.bind_eq_some_iff.1 hacc
            obtain ⟨read, rfl, hread⟩ := ih hrest
            exact ⟨_ :: read, List.append_assoc _ _ _, .cons hnav hread⟩
        | null | bool _ | int _ | float _ | arr _ | obj _ =>
          rw [hdate] at h
          cases h
    | null | bool _ | int _ | float _ | str _ | arr _ => cases h

/-- Corresponding entries have corresponding properties. -/
theorem forall_mem_iff_of_forall₂ {α β : Type} {R : α → β → Prop} {P : α → Prop} {Q : β → Prop}
    {xs : List α} {ys : List β} (h : List.Forall₂ R xs ys) (hPQ : ∀ x y, R x y → (P x ↔ Q y)) :
    (∀ x ∈ xs, P x) ↔ ∀ y ∈ ys, Q y := by
  induction h with
  | nil => simp
  | cons hxy _ ih => rw [List.forall_mem_cons, List.forall_mem_cons, hPQ _ _ hxy, ih]

/-- A NAV that can be divided by. -/
def Divisible (v : FloatValue) : Prop := ∃ q, v = .finite q ∧ 0 < q

/-- What `get_nav` labels REAL is what was fetched. -/
theorem real_of_getNav {V : Type} {sim : Bool} {f : Fetch V} {points : List (NavPoint V)}
    (h : getNav sim f = (points, .real)) : f.real = some points := by
  have hlabel : (getNav sim f).2 = .real := by rw [h]
  obtain ⟨accepted, haccepted⟩ := Option.isSome_iff_exists.1 (getNav_real_iff.1 hlabel)
  rw [getNav_of_accepted haccepted] at h
  obtain rfl : accepted = points := congrArg Prod.fst h
  exact (Option.filter_eq_some_iff.1 haccepted).1

/-- **When every NAV of a REAL series can be divided by**: exactly when each of the newest rows that
were kept, as many as days were asked for, converts to a finite positive number. -/
theorem real_navs_positive_iff {get : ℕ → Response} {days : ℤ} {sim : Bool}
    {simulated points : List FloatPoint} {stamp : String}
    (h : getNav sim ⟨fetchNavReal host get days, simulated, stamp⟩ = (points, .real)) :
    ∃ rows, Paging.collect 20 days (requestPage host get) 20 1 [] = some rows ∧
      ((∀ p ∈ points, Divisible p.nav) ↔
        ∀ row ∈ (keptRows host rows []).take days.toNat, ∃ q,
          floatOf host (Fields.get row "DWJZ") = .number (.finite q) ∧ 0 < q) := by
  have hfetch : fetchNavReal host get days = some points := real_of_getNav h
  rw [fetchNavReal] at hfetch
  obtain ⟨rows, hcollect, hrest⟩ := Option.bind_eq_some_iff.1 hfetch
  refine ⟨rows, hcollect, ?_⟩
  split at hrest
  · cases hrest
  · rename_i hrows
    have hdays : 0 < days := by
      by_contra hnone
      rw [Paging.collect_of_nonpos 20 (by omega)] at hcollect
      obtain rfl := Option.some.inj hcollect
      exact hrows rfl
    obtain ⟨all, hread, hcut⟩ := Option.bind_eq_some_iff.1 hrest
    obtain ⟨read, rfl, hgives⟩ := readRows_kept hread
    split at hcut
    · cases hcut
    · obtain rfl := Option.some.inj hcut
      rw [lastOf_reverse _ hdays]
      simp only [List.mem_reverse]
      refine (forall_mem_iff_of_forall₂ (List.forall₂_take days.toNat hgives) ?_).symm
      intro row p hp
      rw [show floatOf host (Fields.get row "DWJZ") = .number p.nav from hp]
      simp only [Conversion.number.injEq]
      rfl

/-! Five days on one page; the newest NAV is a given text. -/

def textRow (date nav : String) : Fields :=
  [(Str.ofString "FSRQ", .text date), (Str.ofString "DWJZ", .text nav)]

def textRows (nav : String) : List Fields :=
  textRow "5" nav :: ["4", "3", "2", "1"].map fun d => textRow d "1"

/-- `json.loads` on the text of the page, and `float` on the texts of the NAVs. -/
def textHost (nav : String) : FloatHost where
  loads := fun s => [Json.obj (pageData (textRows nav))].find? fun x => x.dumpsRaw = s
  number := fun s => [("1", FloatValue.finite 1), ("0", .finite 0), ("nan", .nan)].findSome?
    fun t => if s = Str.ofString t.1 then some t.2 else none
  date := Str.shown
  date_text := Str.shown_ofString

def textPages (nav : String) (_ : ℕ) : Response := .answered 200 (pageText (textRows nav))

/-- The labelled series. -/
def textSeries (nav : String) : List FloatPoint × DataSource :=
  getNav false ⟨fetchNavReal (textHost nav) (textPages nav) 60, [], ""⟩

def textPoints (nav : FloatValue) : List FloatPoint :=
  (["1", "2", "3", "4"].map fun d => ⟨d, .finite 1, none, none⟩) ++ [⟨"5", nav, none, none⟩]

theorem real_navs_positive_iff_text :
    textSeries "1" = (textPoints (.finite 1), .real) ∧
      ∃ rows, Paging.collect 20 60 (requestPage (textHost "1") (textPages "1")) 20 1 [] =
          some rows ∧
        ((∀ p ∈ textPoints (.finite 1), Divisible p.nav) ↔
          ∀ row ∈ (keptRows (textHost "1") rows []).take 60, ∃ q,
            floatOf (textHost "1") (Fields.get row "DWJZ") = .number (.finite q) ∧ 0 < q) := by
  have hreal : textSeries "1" = (textPoints (.finite 1), .real) := by decide +kernel
  exact ⟨hreal, real_navs_positive_iff hreal⟩

/-- A NAV of zero, and one that is not a number, are labelled REAL. -/
theorem zero_nav_real :
    textSeries "0" = (textPoints (.finite 0), .real) ∧
      textSeries "nan" = (textPoints .nan, .real) := by
  decide +kernel

end QuantFlow
