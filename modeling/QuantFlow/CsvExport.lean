/-
**The export of a fund's history.**

`export_csv` of `backend/app/main.py` writes one row per point of a window, and takes the indicators
of the row from eight series by its index.  The MACD of a single NAV is empty, so a history of one
point would run off its list.  None is exported: the provider's rows are accepted from five on, the
generator makes at least sixty, without it there are none, and a window has at least twenty days.

An entry is `None` in the warm-up part of its window.  It is also `None` where the average or the band
overflows, and how large the NAVs may be is part of what is proved for each column: five NAVs of
`2 ^ 1022`, each a positive float, have no average, and NAVs of at most `2 ^ 1021` have one.

Main definitions:

* `FloatCache`, `FloatMoment` — the fund cache and the provider, with the points as floats;
* `exportRows`, `exportCsv` — the rows, and the route;
* `SafeExport` — what is asked of an export.

Main results:

* `exportRows_ok` — rows are made of every history that is not a single point;
* `exportCsv_safe` — **every export is safe**.
-/

import QuantFlow.IndicatorOverflow
import QuantFlow.SimulatedNav

namespace QuantFlow.CsvExport

open FloatValue
open FloatIndicators

/-! ### Histories -/

/-- What `get_nav` guarantees of a series under its label. -/
def Enough (points : List FloatPoint) : DataSource → Prop
  | .real => 5 ≤ points.length
  | .simulated => 60 ≤ points.length
  | .stale => points = []

/-- What every entry of the fund cache is: long enough for its label, and of floats. -/
structure Wellformed (e : Entry FloatValue) : Prop where
  enough : Enough e.points e.source
  floats : ∀ p ∈ e.points, OnGrid p.nav

/-- The fund cache. -/
structure FloatCache where
  funds : FundCache FloatValue
  wellformed : KeyedCache.Holds (fun _ => Wellformed) funds

def FloatCache.empty : FloatCache where
  funds := fun _ => none
  wellformed := KeyedCache.holds_empty

/-- The surroundings of one lookup.  The rows are of floats, and the generator makes as many as it is
asked for. -/
structure FloatMoment extends Moment FloatValue where
  realFloats : ∀ code want points, (provider code want).real = some points → ∀ p ∈ points, OnGrid p.nav
  simulatedFloats : ∀ code want, ∀ p ∈ (provider code want).simulated, OnGrid p.nav
  generated : ∀ code want, (provider code want).simulated.length = want.toNat

/-- A generated point, with the floats next to its numbers. -/
def nearPoint (p : NavPoint) : FloatPoint :=
  { date := p.date, nav := fl p.nav, accNav := p.accNav.map fl, changePct := p.changePct.map fl }

/-- The generator of `simulateNav`. -/
def FloatMoment.ofGenerator {R : Type} (N : Numerics) (rng : Rng R) (seeded : String → R)
    (strftime : ℤ → String) (offset now : ℚ) (stamp : String)
    (real : String → ℤ → Option (List FloatPoint))
    (realFloats : ∀ code want points, real code want = some points → ∀ p ∈ points, OnGrid p.nav) :
    FloatMoment where
  now := now
  provider := fun code want =>
    { real := real code want
      simulated := (simulateNav N rng (seeded code) strftime offset now want.toNat).map nearPoint
      fetchedAt := stamp }
  realFloats := realFloats
  simulatedFloats := by
    intro code want p hp
    obtain ⟨q, -, rfl⟩ := List.mem_map.1 hp
    exact onGrid_fl q.nav
  generated := fun code want => by rw [List.length_map, length_simulateNav]

theorem enough_getNav {sim : Bool} {f : Fetch FloatValue} (h : 60 ≤ f.simulated.length) :
    Enough (getNav sim f).1 (getNav sim f).2 := by
  unfold getNav
  split
  · rename_i points haccepted
    have hfive := (Option.filter_eq_some_iff.1 haccepted).2
    rw [decide_eq_true_eq] at hfive
    exact hfive
  · split
    · exact h
    · exact rfl

theorem mem_getNav {sim : Bool} {f : Fetch FloatValue} {p : FloatPoint}
    (h : p ∈ (getNav sim f).1) : (∃ points, f.real = some points ∧ p ∈ points) ∨ p ∈ f.simulated := by
  unfold getNav at h
  split at h
  · rename_i points haccepted
    exact .inl ⟨points, (Option.filter_eq_some_iff.1 haccepted).1, h⟩
  · split at h
    · exact .inr h
    · cases h

theorem wellformed_loadEntry (sim : Bool) (m : FloatMoment) (code : String) (days : ℤ)
    (old : Option (Entry FloatValue)) : Wellformed (loadEntry sim m.toMoment code days old) where
  enough := by
    refine enough_getNav ?_
    have hwanted : 60 ≤ wanted days old := (le_max_right days historyDays).trans (le_max_left _ _)
    rw [m.generated]
    omega
  floats := by
    intro p hp
    rcases mem_getNav hp with ⟨points, hpoints, hp⟩ | hp
    · exact m.realFloats code _ points hpoints p hp
    · exact m.simulatedFloats code _ p hp

theorem wellformed_ensureFund (sim : Bool) (m : FloatMoment) (cache : FloatCache) (code : String)
    (days : ℤ) : Wellformed (ensureFund sim m.toMoment cache.funds code days).1 :=
  (cache.wellformed.lookup (wellformed_loadEntry sim m code days (cache.funds code))).1

/-- The cache that a lookup leaves is so again. -/
def FloatCache.after (cache : FloatCache) (sim : Bool) (m : FloatMoment) (code : String) (days : ℤ) :
    FloatCache where
  funds := (ensureFund sim m.toMoment cache.funds code days).2
  wellformed := (cache.wellformed.lookup (wellformed_loadEntry sim m code days (cache.funds code))).2

theorem Enough.nil_or_five {points : List FloatPoint} {source : DataSource}
    (h : Enough points source) : points = [] ∨ 5 ≤ points.length := by
  cases source with
  | real => exact .inr h
  | simulated => exact .inr (le_trans (by norm_num) h)
  | stale => exact .inl h

/-- The window of an entry is not a single point. -/
theorem length_window_ne_one {e : Entry FloatValue} (h : Wellformed e) {days : ℤ} (hdays : 20 ≤ days) :
    (slice e.points days).length ≠ 1 := by
  rw [length_slice e.points (by omega)]
  rcases h.enough.nil_or_five with hnil | hfive
  · rw [hnil, List.length_nil, Nat.zero_min]
    exact Nat.zero_ne_one
  · omega

/-! ### Rows -/

inductive Cell
  | text (s : String)
  | number (v : FloatValue)
  | blank
  deriving DecidableEq

inductive ExportError
  | notFound
  | indexError
  | raised (e : PyError)
  deriving DecidableEq

/-- `x or ""`. -/
def orBlank : Option FloatValue → Cell
  | none => .blank
  | some v => if isZero v then .blank else .number v

/-- `x if x is not None else ""`. -/
def unlessNone : Option FloatValue → Cell
  | none => .blank
  | some v => .number v

/-- `series[i] or ""`. -/
def entryCell (series : List (Option FloatValue)) (i : ℕ) : Except ExportError Cell :=
  match series[i]? with
  | none => .error .indexError
  | some e => .ok (orBlank e)

/-- The first row. -/
def header : List String :=
  ["日期", "单位净值", "累计净值", "日涨跌%", "MA5", "MA20", "MA60", "BOLL上轨", "BOLL下轨", "MACD_DIF",
    "MACD_DEA", "RSI14"]

/-- The series of the last eight columns. -/
def columns (ind : All) : List (List (Option FloatValue)) :=
  [ind.ma5, ind.ma20, ind.ma60, ind.boll.upper, ind.boll.lower, ind.macd.dif, ind.macd.dea, ind.rsi]

def row (ind : All) (i : ℕ) (p : FloatPoint) : Except ExportError (List Cell) := do
  let cells ← (columns ind).mapM fun series => entryCell series i
  .ok ([.text p.date, .number p.nav, orBlank p.accNav, unlessNone p.changePct] ++ cells)

variable (np : NumPy)

/-- The rows of a history. -/
def exportRows (pts : List FloatPoint) : Except ExportError (List (List Cell)) := do
  let ind ← (computeAll np (pts.map NavPoint.nav)).mapError .raised
  pts.zipIdx.mapM fun p => row ind p.2 p.1

/-- `export_csv(code, days)`; the fund must be in the watchlist or the universe. -/
def exportCsv (known : String → Bool) (sim : Bool) (m : FloatMoment)
    (cache : FloatCache) (code : String) (days : ℤ) :
    Except ExportError (List String × List (List Cell)) :=
  if known code then do
    let rows ← exportRows np (slice (ensureFund sim m.toMoment cache.funds code days).1.points days)
    .ok (header, rows)
  else .error .notFound

/-! ### Safe exports -/

/-- Where a column has entries: after the warm-up part, of NAVs that are not above a power of two. -/
structure Reach where
  warmUp : ℕ
  power : ℕ

/-- The reach of each column; every float is below `2 ^ 1024`. -/
def reaches : List Reach :=
  [⟨4, 1021⟩, ⟨19, 1019⟩, ⟨59, 1018⟩, ⟨19, 508⟩, ⟨19, 508⟩, ⟨0, 1022⟩, ⟨0, 1022⟩, ⟨14, 1024⟩]

/-- What is asked of an export: every series has an entry for each point, there is a row for each
point, and of positive NAVs within its reach a column misses entries only in the warm-up part. -/
structure SafeExport (pts : List FloatPoint) (ind : All) (rows : List (List Cell)) : Prop where
  lengths : ∀ series ∈ columns ind, series.length = pts.length
  rows : rows.length = pts.length
  entries : ∀ c ∈ (columns ind).zip reaches,
    (∀ p ∈ pts, FloatIndicators.Positive p.nav ∧ Within c.2.power p.nav) →
      ∀ i, c.1[i]? = some none → i < c.2.warmUp

/-- The series of a history that is not a single point have its length. -/
theorem lengths_columns {values : List FloatValue} (kdj : List (List (Option FloatValue)))
    {rsi : List (Option FloatValue)} (hone : values.length ≠ 1) (hrsi : rsi.length = values.length) :
    ∀ series ∈ columns (allOf np values kdj rsi), series.length = values.length := by
  have hmacd := length_macd hone
  intro series hseries
  simp only [columns, List.mem_cons, List.not_mem_nil, or_false] at hseries
  rcases hseries with rfl | rfl | rfl | rfl | rfl | rfl | rfl | rfl
  · exact length_ma np values 5
  · exact length_ma np values 20
  · exact length_ma np values 60
  · exact length_bollBand np _ values 20 _
  · exact length_bollBand np _ values 20 _
  · exact hmacd.1
  · exact hmacd.2
  · exact hrsi

theorem row_ok {ind : All} {i : ℕ} (p : FloatPoint)
    (h : ∀ series ∈ columns ind, i < series.length) : ∃ cells, row ind i p = .ok cells := by
  have hcells : ∀ series ∈ columns ind, ∃ c, entryCell series i = .ok c := by
    intro series hseries
    rw [entryCell, List.getElem?_eq_getElem (h series hseries)]
    exact ⟨_, rfl⟩
  obtain ⟨cells, hmap, -⟩ := mapM_ok hcells
  unfold row
  rw [hmap]
  exact ⟨_, rfl⟩

/-- **Rows are made of every history that is not a single point.** -/
theorem exportRows_ok {pts : List FloatPoint} {kdj : List (List (Option FloatValue))}
    {rsi : List (Option FloatValue)}
    (hind : computeAll np (pts.map NavPoint.nav) =
      .ok (allOf np (pts.map NavPoint.nav) kdj rsi))
    (hlengths : ∀ series ∈ columns (allOf np (pts.map NavPoint.nav) kdj rsi),
      series.length = pts.length) :
    ∃ rows, exportRows np pts = .ok rows ∧ rows.length = pts.length := by
  have hrows : ∀ p ∈ pts.zipIdx,
      ∃ cells, row (allOf np (pts.map NavPoint.nav) kdj rsi) p.2 p.1 = .ok cells := by
    rintro ⟨p, i⟩ hp
    refine row_ok p fun series hs => ?_
    rw [hlengths series hs]
    exact (List.getElem?_eq_some_iff.1 (List.mem_zipIdx_iff_getElem?.1 hp)).1
  obtain ⟨rows, hmap, hall⟩ := mapM_ok hrows
  refine ⟨rows, ?_, ?_⟩
  · unfold exportRows
    rw [hind]
    exact hmap
  · rw [← hall.length_eq, List.length_zipIdx]

theorem lt_of_missing {series : List (Option FloatValue)} {n warm i : ℕ}
    (hlength : series.length = n)
    (hsome : i < n → warm ≤ i → ∃ u, series[i]? = some (some u)) (hnone : series[i]? = some none) :
    i < warm := by
  by_contra hwarm
  have hi : i < series.length := (List.getElem?_eq_some_iff.1 hnone).1
  obtain ⟨u, hu⟩ := hsome (hlength ▸ hi) (not_lt.1 hwarm)
  rw [hnone] at hu
  cases hu

theorem exists_of_forall {series : List (Option FloatValue)} (h : ∀ e ∈ series, ∃ u, e = some u)
    {i : ℕ} (hi : i < series.length) : ∃ u, series[i]? = some (some u) := by
  obtain ⟨u, hu⟩ := h series[i] (List.getElem_mem hi)
  exact ⟨u, (List.getElem?_eq_getElem hi).trans (congrArg some hu)⟩

theorem lt_of_ma_missing {values : List FloatValue} {w j k i : ℕ} (hvalues : ∀ v ∈ values, Within k v)
    (hw : 1 ≤ w) (hwj : w < 2 ^ j) (hj : j ≤ 53) (hk : j + k ≤ 1024)
    (hnone : (ma np values w)[i]? = some none) : i < w - 1 := by
  refine lt_of_missing (length_ma np values w) (fun hi hwarm => ?_) hnone
  obtain ⟨u, hu, -⟩ := ma_isSome np hvalues hw hwj hj hk hi (by omega)
  exact ⟨u, hu⟩

theorem entries_columns {values : List FloatValue} {kdj : List (List (Option FloatValue))}
    {rsi : List (Option FloatValue)} (hout : rsiSeries np values = .ok rsi)
    (hrsi : rsi.length = values.length) :
    ∀ c ∈ (columns (allOf np values kdj rsi)).zip reaches,
      (∀ v ∈ values, FloatIndicators.Positive v ∧ Within c.2.power v) →
        ∀ i, c.1[i]? = some none → i < c.2.warmUp := by
  intro c hc hvalues i hnone
  simp only [columns, reaches, List.zip_cons_cons, List.zip_nil_right, List.mem_cons,
    List.not_mem_nil, or_false] at hc
  have hwithin : ∀ v ∈ values, Within c.2.power v := fun v hv => (hvalues v hv).2
  -- fewer than `2 ^ j` NAVs add up to less than `2 ^ (j + power)`, which is `2 ^ 1024` for the averages
  rcases hc with rfl | rfl | rfl | rfl | rfl | rfl | rfl | rfl
  · exact lt_of_ma_missing np (j := 3) hwithin (by norm_num) (by norm_num) (by norm_num) le_rfl hnone
  · exact lt_of_ma_missing np (j := 5) hwithin (by norm_num) (by norm_num) (by norm_num) le_rfl hnone
  · exact lt_of_ma_missing np (j := 6) hwithin (by norm_num) (by norm_num) (by norm_num) le_rfl hnone
  · refine lt_of_missing (length_bollBand np add values 20 _) (fun hi hwarm => ?_) hnone
    exact bollBand_isSome np hwithin (fun a b ha hb => within_add ha hb (by norm_num)) hi
      (Nat.succ_le_succ hwarm)
  · refine lt_of_missing (length_bollBand np sub values 20 _) (fun hi hwarm => ?_) hnone
    exact bollBand_isSome np hwithin (fun a b ha hb => within_sub ha hb (by norm_num)) hi
      (Nat.succ_le_succ hwarm)
  · exact lt_of_missing rfl (fun hi _ => exists_of_forall (macd_isSome hwithin).1 hi) hnone
  · exact lt_of_missing rfl (fun hi _ => exists_of_forall (macd_isSome hwithin).2 hi) hnone
  · refine lt_of_missing hrsi (fun hi hwarm => ?_) hnone
    exact rsiSeries_isSome np (fun v hv => (hvalues v hv).1) hout hi (Nat.lt_succ_of_le hwarm)

/-- What is exported: the indicators, and a row for each point. -/
theorem exportCsv_ok (known : String → Bool) (sim : Bool) (m : FloatMoment)
    (cache : FloatCache) (code : String) {days : ℤ} (hknown : known code = true)
    (hdays : 20 ≤ days) {pts : List FloatPoint}
    (hpts : slice (ensureFund sim m.toMoment cache.funds code days).1.points days = pts) :
    ∃ kdj rsi rows,
      computeAll np (pts.map NavPoint.nav) = .ok (allOf np (pts.map NavPoint.nav) kdj rsi) ∧
      rsiSeries np (pts.map NavPoint.nav) = .ok rsi ∧
      rsi.length = (pts.map NavPoint.nav).length ∧
      exportCsv np known sim m cache code days = .ok (header, rows) ∧
      (∀ series ∈ columns (allOf np (pts.map NavPoint.nav) kdj rsi), series.length = pts.length) ∧
      rows.length = pts.length := by
  have hone : (pts.map NavPoint.nav).length ≠ 1 := by
    rw [List.length_map, ← hpts]
    exact length_window_ne_one (wellformed_ensureFund sim m cache code days) hdays
  have hgrid : ∀ p ∈ pts, OnGrid p.nav := by
    intro p hp
    rw [← hpts] at hp
    exact (wellformed_ensureFund sim m cache code days).floats p ((slice_suffix _ _).subset hp)
  obtain ⟨kdj, rsi, hind, hout, hrsi⟩ := computeAll_ok np (List.forall_mem_map.2 hgrid)
  have hlengths := lengths_columns np kdj hone hrsi
  rw [List.length_map] at hlengths
  obtain ⟨rows, hrows, hcount⟩ := exportRows_ok np hind hlengths
  refine ⟨kdj, rsi, rows, hind, hout, hrsi, ?_, hlengths, hcount⟩
  rw [exportCsv, if_pos hknown, hpts, hrows]
  rfl

/-! ### A fund with five points -/

/-- Five days with one NAV. -/
def fiveDays (n : ℕ) : List FloatPoint :=
  ["2024-01-02", "2024-01-03", "2024-01-04", "2024-01-05", "2024-01-08"].map fun date =>
    { date := date, nav := .finite (2 ^ n) }

theorem onGrid_two_pow (n : ℕ) : OnGrid (.finite (2 ^ n)) := by
  rintro q ⟨⟩
  obtain ⟨m, hm⟩ := Binary64.two_zpow_eq (e := -1074) (k := n) (by omega)
  exact ⟨m, by rw [← hm, zpow_natCast]⟩

/-- The provider answers with the five days. -/
def online (n : ℕ) : FloatMoment where
  now := 0
  provider := fun _ want =>
    { real := some (fiveDays n)
      simulated := List.replicate want.toNat { date := "", nav := .finite (2 ^ n) }
      fetchedAt := "2024-01-09" }
  realFloats := by
    rintro code want points ⟨⟩ p hp
    obtain ⟨date, -, rfl⟩ := List.mem_map.1 hp
    exact onGrid_two_pow n
  simulatedFloats := by
    intro code want p hp
    rw [(List.mem_replicate.1 hp).2]
    exact onGrid_two_pow n
  generated := fun _ _ => List.length_replicate

/-- What adding `n` times `2 ^ 1022` gives. -/
def copies (n : ℕ) : FloatValue := if n < 4 then .finite (n * 2 ^ 1022) else .inf false

theorem two_pow_add_two (n : ℕ) : (2 : ℚ) ^ (n + 2) = 4 * 2 ^ n := by
  rw [pow_add]
  ring

theorem add_copies (m n : ℕ) : add (copies m) (copies n) = copies (m + n) := by
  unfold copies
  by_cases hm : m < 4
  · by_cases hn : n < 4
    · rw [if_pos hm, if_pos hn]
      show fl (m * 2 ^ 1022 + n * 2 ^ 1022) = _
      rw [← add_mul, ← Nat.cast_add]
      have hpow : (2 : ℚ) ^ 1024 = 4 * 2 ^ 1022 := two_pow_add_two 1022
      have hpos : (0 : ℚ) < 2 ^ 1022 := pow_pos two_pos 1022
      by_cases hsum : m + n < 4
      · rw [if_pos hsum]
        refine fl_of_nearest_eq (nearest_nat_mul (by omega) 1022) ?_
        rw [abs_of_nonneg (mul_nonneg (Nat.cast_nonneg _) hpos.le), hpow]
        exact mul_lt_mul_of_pos_right (by exact_mod_cast hsum) hpos
      · rw [if_neg hsum]
        refine fl_of_large ?_
        rw [hpow]
        exact mul_le_mul_of_nonneg_right (by exact_mod_cast not_lt.1 hsum) hpos.le
    · rw [if_pos hm, if_neg hn, if_neg (by omega)]
      rfl
  · by_cases hn : n < 4
    · rw [if_neg hm, if_pos hn, if_neg (by omega)]
      rfl
    · rw [if_neg hm, if_neg hn, if_neg (by omega)]
      rfl

theorem sumOf_copies {xs : List FloatValue} {v : FloatValue} (h : SumOf xs v)
    (hxs : ∀ x ∈ xs, x = .finite (2 ^ 1022)) : v = copies xs.length := by
  induction h with
  | single x =>
    rw [hxs x (List.mem_singleton_self x), copies, List.length_singleton, if_pos (by norm_num)]
    simp
  | join _ _ ihv ihw =>
    rw [ihv fun x hx => hxs x (List.mem_append_left _ hx),
      ihw fun x hx => hxs x (List.mem_append_right _ hx), add_copies, List.length_append]
  | perm h _ ih => rw [ih fun x hx => hxs x (h.mem_iff.1 hx), h.length_eq]

theorem ma_fiveDays : (ma np ((fiveDays 1022).map NavPoint.nav) 5)[4]? = some none := by
  have hsum := sumOf_copies (np.sums ((fiveDays 1022).map NavPoint.nav) (by simp [fiveDays]))
    (by simp [fiveDays])
  rw [ma, List.getElem?_map, List.getElem?_range (by simp [fiveDays]), Option.map_some,
    if_neg (by norm_num)]
  show some (r 4 (mean np ((fiveDays 1022).map NavPoint.nav))) = some none
  rw [mean, hsum]
  rfl

theorem window_online (n : ℕ) :
    slice (ensureFund true (online n).toMoment FloatCache.empty.funds "000001" 60).1.points 60 =
      fiveDays n :=
  rfl

/-! ### Every export -/

/-- **Every export is safe**: of a fund that is known, in a window of 20 days or more, whatever the
provider answered. -/
theorem exportCsv_safe (known : String → Bool) (sim : Bool) (m : FloatMoment)
    (cache : FloatCache) (code : String) {days : ℤ} (hknown : known code = true)
    (hdays : 20 ≤ days) :
    ∃ ind rows,
      computeAll np ((slice (ensureFund sim m.toMoment cache.funds code days).1.points days).map
        NavPoint.nav) = .ok ind ∧
      exportCsv np known sim m cache code days = .ok (header, rows) ∧
      SafeExport (slice (ensureFund sim m.toMoment cache.funds code days).1.points days) ind rows := by
  obtain ⟨kdj, rsi, rows, hind, hout, hrsi, hexport, hlengths, hcount⟩ :=
    exportCsv_ok np known sim m cache code hknown hdays rfl
  refine ⟨_, rows, hind, hexport, hlengths, hcount, fun c hc hnavs => ?_⟩
  exact entries_columns np hout hrsi c hc (List.forall_mem_map.2 hnavs)

/-- Five days at one unit. -/
theorem exportCsv_safe_fiveDays :
    ∃ ind rows,
      exportCsv .inOrder (fun _ => true) true (online 0) .empty "000001" 60 =
        .ok (header, rows) ∧ SafeExport (fiveDays 0) ind rows ∧ rows.length = 5 := by
  obtain ⟨ind, rows, -, hexport, hsafe⟩ :=
    exportCsv_safe .inOrder (fun _ => true) true (online 0) .empty "000001" rfl
      (by norm_num : (20 : ℤ) ≤ 60)
  rw [window_online] at hsafe
  exact ⟨ind, rows, hexport, hsafe, hsafe.rows⟩

/-- Five positive NAVs, and no average after the warm-up part. -/
theorem average_missing :
    (ensureFund true (online 1022).toMoment FloatCache.empty.funds "000001" 60).1.source = .real ∧
      slice (ensureFund true (online 1022).toMoment FloatCache.empty.funds "000001" 60).1.points 60 =
        fiveDays 1022 ∧
      (∀ p ∈ fiveDays 1022, FloatIndicators.Positive p.nav) ∧
      ∃ ind rows, computeAll .inOrder ((fiveDays 1022).map NavPoint.nav) = .ok ind ∧
        exportCsv .inOrder (fun _ => true) true (online 1022) .empty "000001" 60 =
          .ok (header, rows) ∧
        rows.length = 5 ∧ ind.ma5[4]? = some none := by
  obtain ⟨kdj, rsi, rows, hind, -, -, hexport, -, hcount⟩ :=
    exportCsv_ok .inOrder (fun _ => true) true (online 1022) .empty "000001" rfl
      (by norm_num) (window_online 1022)
  refine ⟨rfl, window_online 1022, ?_, _, rows, hind, hexport, hcount, ma_fiveDays .inOrder⟩
  intro p hp
  obtain ⟨date, -, rfl⟩ := List.mem_map.1 hp
  exact pow_pos two_pos 1022

end QuantFlow.CsvExport
