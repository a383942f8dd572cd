/-
**The indicators as floats.**

`Indicators` has the series of `backend/app/indicators.py` in exact numbers, where nothing
overflows.  The code computes in floats and gives `None` for a result that is infinite or NaN, also
outside the warm-up part of a window.  Here are the series again with the values floats have.  How
NumPy orders a sum, and how it rounds a root, is left open.

Every series has as many entries as there are NAVs, except that the MACD of one NAV is empty, and no
division by zero is reached.  Where an entry is `None` is the subject of
`IndicatorOverflow`.

Main definitions:

* `NumPy`, `NumPy.inOrder` — sums and roots, and one way to take them;
* `ma`, `ema`, `macd`, `boll`, `kdj`, `rsiSeries`, `computeAll` — the series.

Main results:

* `length_macd` — the one series whose length may differ;
* `computeAll_ok` — **nothing is raised**.
-/

import QuantFlow.FloatArithmetic

namespace QuantFlow

open FloatValue

/-- `np.add.reduce`, which adds in an order of its own, and `np.sqrt`. -/
structure NumPy where
  sum : List FloatValue → FloatValue
  sums : ∀ xs, xs ≠ [] → SumOf xs (sum xs)
  sqrt : ℚ → ℚ
  sqrt_range : ∀ q, 0 ≤ q → 0 ≤ sqrt q ∧ sqrt q ≤ max 1 q

namespace FloatIndicators

variable (np : NumPy)

/-! ### Sample statistics -/

/-- `_r(v, n)`.  A finite float can be rounded to decimal places without an overflow. -/
def r (n : ℕ) : FloatValue → Option FloatValue
  | .finite q => some (fl (Decimal.roundTo n q))
  | _ => none

/-- `np.mean`. -/
def mean (xs : List FloatValue) : FloatValue := div (np.sum xs) (.finite xs.length)

/-- `np.sqrt`. -/
def root : FloatValue → FloatValue
  | .finite q => if q < 0 then .nan else .finite (np.sqrt q)
  | .inf negative => if negative then .nan else .inf false
  | .nan => .nan

/-- `np.std`. -/
def std (xs : List FloatValue) : FloatValue :=
  let m := mean np xs
  let dev := xs.map fun x => sub x m
  root np (div (np.sum (dev.map fun d => mul d d)) (.finite xs.length))

/-- `values[i + 1 - window : i + 1]`. -/
def window (values : List FloatValue) (w i : ℕ) : List FloatValue :=
  (values.take (i + 1)).drop (i + 1 - w)

/-- `a or 0`. -/
def orZero (a : Option FloatValue) : FloatValue := a.getD (.finite 0)

/-! ### The series -/

def ma (values : List FloatValue) (w : ℕ) : List (Option FloatValue) :=
  (List.range values.length).map fun i =>
    if i + 1 < w then none else r 4 (mean np (window values w i))

/-- `v * k + out[-1] * (1 - k)`. -/
def emaStep (k out v : FloatValue) : FloatValue := add (mul v k) (mul out (sub (.finite 1) k))

def ema (values : List FloatValue) (w : ℕ) : List (Option FloatValue) :=
  match values with
  | [] => []
  | v :: vs => (vs.scanl (emaStep (fl (2 / (w + 1)))) v).map (r 4)

structure Macd where
  dif : List (Option FloatValue)
  dea : List (Option FloatValue)
  hist : List (Option FloatValue)

def macd (values : List FloatValue) (fast : ℕ := 12) (slow : ℕ := 26) (signal : ℕ := 9) : Macd :=
  if values.length < 2 then { dif := [], dea := [], hist := [] }
  else
    let dif := List.zipWith (fun a b => r 4 (sub (orZero a) (orZero b))) (ema values fast)
      (ema values slow)
    let dea := ema (dif.map orZero) signal
    { dif := dif, dea := dea
      hist := List.zipWith (fun d s => r 4 (mul (.finite 2) (sub (orZero d) (orZero s)))) dif dea }

structure Boll where
  mid : List (Option FloatValue)
  upper : List (Option FloatValue)
  lower : List (Option FloatValue)

/-- One Bollinger band; `side` adds the distance to the rounded mean, or subtracts it. -/
def bollBand (side : FloatValue → FloatValue → FloatValue) (values : List FloatValue) (w : ℕ)
    (mult : FloatValue) : List (Option FloatValue) :=
  (List.range values.length).map fun i =>
    if i + 1 < w then none
    else r 4 (side (orZero ((ma np values w).getD i none)) (mul mult (std np (window values w i))))

def boll (values : List FloatValue) (w : ℕ := 20) (mult : FloatValue := .finite 2) : Boll :=
  { mid := ma np values w, upper := bollBand np add values w mult
    lower := bollBand np sub values w mult }

/-- The carried pair of `kdj` after day `i`, and the three entries of the day. -/
def kdjStep (values : List FloatValue) (n m1 m2 : ℕ) (prev : FloatValue × FloatValue) (i : ℕ) :
    Except PyError ((FloatValue × FloatValue) × List (Option FloatValue)) :=
  if i + 1 < n then .ok (prev, [none, none, none])
  else
    let seg := window values n i
    let hi := seg.tail.foldl pyMax (seg.headD .nan)
    let lo := seg.tail.foldl pyMin (seg.headD .nan)
    let rsv : Except PyError FloatValue :=
      if eq hi lo then .ok (.finite 50)
      else (pyDiv (sub (values.getD i .nan) lo) (sub hi lo)).map fun q => mul q (.finite 100)
    rsv.map fun rsv =>
      let k := add (mul (fl ((m1 - 1) / m1)) prev.1) (mul (fl (1 / m1)) rsv)
      let d := add (mul (fl ((m2 - 1) / m2)) prev.2) (mul (fl (1 / m2)) k)
      ((k, d), [r 2 k, r 2 d, r 2 (sub (mul (.finite 3) k) (mul (.finite 2) d))])

/-- The loop of `kdj` over the days. -/
def kdjDays (values : List FloatValue) (n m1 m2 : ℕ) :
    List ℕ → FloatValue × FloatValue → Except PyError (List (List (Option FloatValue)))
  | [], _ => .ok []
  | i :: days, prev => do
    let out ← kdjStep values n m1 m2 prev i
    let rest ← kdjDays values n m1 m2 days out.1
    .ok (out.2 :: rest)

def kdj (values : List FloatValue) (n : ℕ := 9) (m1 : ℕ := 3) (m2 : ℕ := 3) :
    Except PyError (List (List (Option FloatValue))) :=
  kdjDays values n m1 m2 (List.range values.length) (.finite 50, .finite 50)

/-- `(v / prev - 1) if prev else 0.0`. -/
def ret (prev v : FloatValue) : FloatValue :=
  if isZero prev then .finite 0 else sub (div v prev) (.finite 1)

/-- The returns of `rsi_series`, a zero for the first day. -/
def rets (values : List FloatValue) : List FloatValue :=
  .finite 0 :: List.zipWith ret values values.tail

/-- `[navs[i] / navs[i - 1] - 1 for i in range(1, len(navs))]`, of NAVs that are not zero. -/
def dailyReturns (navs : List FloatValue) : List FloatValue :=
  List.zipWith (fun prev v => sub (div v prev) (.finite 1)) navs navs.tail

/-- The entry of `rsi_series` for a window of returns. -/
def rsiOf (seg : List FloatValue) : Except PyError (Option FloatValue) :=
  let ag := mean np (seg.map fun x => pyMax x (.finite 0))
  let al := mean np (seg.map fun x => pyMax (neg x) (.finite 0))
  if isZero al then .ok (r 2 (.finite 100))
  else do
    let q ← pyDiv ag al
    let s ← pyDiv (.finite 100) (add (.finite 1) q)
    .ok (r 2 (sub (.finite 100) s))

def rsiSeries (values : List FloatValue) (w : ℕ := 14) : Except PyError (List (Option FloatValue)) :=
  if values.length < 2 then .ok (values.map fun _ => none)
  else
    (List.range values.length).mapM fun i =>
      if i + 1 ≤ w then .ok none else rsiOf np (window (rets values) w i)

/-- What `compute_all` returns. -/
structure All where
  ma5 : List (Option FloatValue)
  ma10 : List (Option FloatValue)
  ma20 : List (Option FloatValue)
  ma60 : List (Option FloatValue)
  boll : Boll
  macd : Macd
  kdj : List (List (Option FloatValue))
  rsi : List (Option FloatValue)

def allOf (values : List FloatValue) (kdj : List (List (Option FloatValue)))
    (rsi : List (Option FloatValue)) : All :=
  { ma5 := ma np values 5, ma10 := ma np values 10, ma20 := ma np values 20,
    ma60 := ma np values 60, boll := boll np values, macd := macd values, kdj := kdj, rsi := rsi }

/-- `compute_all(values)`. -/
def computeAll (values : List FloatValue) : Except PyError All := do
  let kdj ← kdj values
  let rsi ← rsiSeries np values
  .ok (allOf np values kdj rsi)

/-! ### Windows and lengths -/

section Lengths

variable {values : List FloatValue}

theorem mem_window {w i : ℕ} {x : FloatValue} (h : x ∈ window values w i) : x ∈ values :=
  List.mem_of_mem_take (List.mem_of_mem_drop h)

theorem length_window {w i : ℕ} (hi : i < values.length) :
    (window values w i).length = min w (i + 1) := by
  rw [window, List.length_drop, List.length_take]
  omega

theorem window_ne_nil {w i : ℕ} (hw : 1 ≤ w) (hi : i < values.length) : window values w i ≠ [] := by
  rw [← List.length_pos_iff, length_window hi]
  omega

@[simp] theorem length_ma (values : List FloatValue) (w : ℕ) :
    (ma np values w).length = values.length := by
  simp [ma]

@[simp] theorem length_ema (values : List FloatValue) (w : ℕ) : (ema values w).length = values.length := by
  cases values with
  | nil => rfl
  | cons v vs => simp [ema]

@[simp] theorem length_bollBand (side : FloatValue → FloatValue → FloatValue)
    (values : List FloatValue) (w : ℕ) (mult : FloatValue) :
    (bollBand np side values w mult).length = values.length := by
  simp [bollBand]

theorem length_macd (h : values.length ≠ 1) :
    (macd values).dif.length = values.length ∧ (macd values).dea.length = values.length := by
  unfold macd
  split
  · rename_i hshort
    have hnil : values = [] := List.length_eq_zero_iff.1 (by omega)
    subst hnil
    exact ⟨rfl, rfl⟩
  · simp

end Lengths

/-! ### Nothing is raised -/

theorem mapM_ok {α β ε : Type} {f : α → Except ε β} {xs : List α}
    (h : ∀ x ∈ xs, ∃ y, f x = .ok y) :
    ∃ ys, xs.mapM f = .ok ys ∧ List.Forall₂ (fun x y => f x = .ok y) xs ys := by
  induction xs with
  | nil => exact ⟨[], rfl, .nil⟩
  | cons x xs ih =>
    obtain ⟨y, hy⟩ := h x List.mem_cons_self
    obtain ⟨ys, hys, hall⟩ := ih fun x' hx' => h x' (List.mem_cons_of_mem x hx')
    refine ⟨y :: ys, ?_, .cons hy hall⟩
    rw [List.mapM_cons, hy, hys]
    rfl

/-- A finite value is a multiple of the smallest positive float, as every float is. -/
def OnGrid (v : FloatValue) : Prop :=
  ∀ q, v = .finite q → ∃ n : ℤ, q = (n : ℚ) * 2 ^ (-1074 : ℤ)

theorem onGrid_fl (x : ℚ) : OnGrid (fl x) := by
  intro q hq
  unfold fl at hq
  split at hq
  · cases hq
  · cases hq
    exact Binary64.nearest_eq_mul x

/-- Two different multiples of the smallest float have a difference that rounding does not lose. -/
theorem isZero_sub_finite {m n : ℤ} (h : m ≠ n) :
    isZero (sub (.finite ((m : ℚ) * 2 ^ (-1074 : ℤ))) (.finite ((n : ℚ) * 2 ^ (-1074 : ℤ)))) =
      false := by
  have hunit : (0 : ℚ) < 2 ^ (-1074 : ℤ) := zpow_pos two_pos _
  have hgap : (1 : ℚ) ≤ |(m : ℚ) - n| := by
    exact_mod_cast Int.one_le_abs (sub_ne_zero.2 h)
  have hlarge : (2 : ℚ) ^ (-1074 : ℤ) ≤
      |(m : ℚ) * 2 ^ (-1074 : ℤ) + -((n : ℚ) * 2 ^ (-1074 : ℤ))| := by
    rw [← sub_eq_add_neg, ← sub_mul, abs_mul, abs_of_pos hunit]
    exact le_mul_of_one_le_left hunit.le hgap
  show isZero (fl _) = false
  unfold fl
  split
  · rfl
  · exact decide_eq_false (Binary64.nearest_ne_zero hlarge)

/-- Different floats have a difference that is not zero. -/
theorem isZero_sub {a b : FloatValue} (ha : OnGrid a) (hb : OnGrid b) (hne : eq a b = false) :
    isZero (sub a b) = false := by
  cases a with
  | finite p =>
    cases b with
    | finite q =>
      obtain ⟨m, rfl⟩ := ha p rfl
      obtain ⟨n, rfl⟩ := hb q rfl
      refine isZero_sub_finite ?_
      rintro rfl
      simp [FloatValue.eq] at hne
    | inf t => rfl
    | nan => rfl
  | inf s =>
    cases b with
    | finite q => rfl
    | inf t =>
      have hst : s ≠ t := by simpa [FloatValue.eq] using hne
      have hdiff : sub (.inf s) (.inf t) = .inf s := by
        cases s <;> cases t <;> simp_all [sub, neg, add]
      rw [hdiff]
      rfl
    | nan => rfl
  | nan => rfl

/-- A fold that picks one of two picks from the list. -/
theorem onGrid_foldl {pick : FloatValue → FloatValue → FloatValue}
    (hpick : ∀ a b, pick a b = a ∨ pick a b = b) {xs : List FloatValue} :
    ∀ {x : FloatValue}, OnGrid x → (∀ y ∈ xs, OnGrid y) → OnGrid (xs.foldl pick x) := by
  induction xs with
  | nil => exact fun hx _ => hx
  | cons y xs ih =>
    intro x hx hxs
    rw [List.foldl_cons]
    refine ih ?_ fun z hz => hxs z (List.mem_cons_of_mem y hz)
    rcases hpick x y with heq | heq
    · rwa [heq]
    · rw [heq]
      exact hxs y List.mem_cons_self

theorem pyMax_eq (a b : FloatValue) : pyMax a b = a ∨ pyMax a b = b := by
  unfold pyMax
  split
  · exact .inr rfl
  · exact .inl rfl

theorem pyMin_eq (a b : FloatValue) : pyMin a b = a ∨ pyMin a b = b := by
  unfold pyMin
  split
  · exact .inr rfl
  · exact .inl rfl

theorem kdjStep_ok {values : List FloatValue} (hgrid : ∀ v ∈ values, OnGrid v) (n m1 m2 : ℕ)
    (prev : FloatValue × FloatValue) (i : ℕ) : ∃ out, kdjStep values n m1 m2 prev i = .ok out := by
  unfold kdjStep
  split
  · exact ⟨_, rfl⟩
  · have hseg : ∀ v ∈ window values n i, OnGrid v := fun v hv => hgrid v (mem_window hv)
    have hends : OnGrid ((window values n i).headD .nan) ∧ ∀ v ∈ (window values n i).tail, OnGrid v := by
      cases hwindow : window values n i with
      | nil => exact ⟨nofun, nofun⟩
      | cons v vs =>
        rw [hwindow] at hseg
        exact ⟨hseg v List.mem_cons_self, fun u hu => hseg u (List.mem_cons_of_mem v hu)⟩
    have hhi := onGrid_foldl pyMax_eq hends.1 hends.2
    have hlo := onGrid_foldl pyMin_eq hends.1 hends.2
    dsimp only
    split
    · exact ⟨_, rfl⟩
    · rename_i hne
      rw [pyDiv, isZero_sub hhi hlo (Bool.eq_false_iff.2 hne)]
      exact ⟨_, rfl⟩

theorem kdj_ok {values : List FloatValue} (hgrid : ∀ v ∈ values, OnGrid v) (n m1 m2 : ℕ) :
    ∃ out, kdj values n m1 m2 = .ok out := by
  suffices hdays : ∀ (days : List ℕ) (prev : FloatValue × FloatValue),
      ∃ out, kdjDays values n m1 m2 days prev = .ok out from hdays _ _
  intro days
  induction days with
  | nil => exact fun _ => ⟨[], rfl⟩
  | cons i days ih =>
    intro prev
    obtain ⟨out, hout⟩ := kdjStep_ok hgrid n m1 m2 prev i
    obtain ⟨rest, hrest⟩ := ih out.1
    refine ⟨out.2 :: rest, ?_⟩
    rw [kdjDays, hout]
    show (kdjDays values n m1 m2 days out.1 >>= fun rest => Except.ok (out.2 :: rest)) = _
    rw [hrest]
    rfl

theorem nonnegOrNan_mean {xs : List FloatValue} (hne : xs ≠ []) (hxs : ∀ x ∈ xs, NonnegOrNan x) :
    NonnegOrNan (mean np xs) := by
  have hlength : NonnegOrNan (.finite (xs.length : ℚ)) := .inr (Nat.cast_nonneg _)
  exact nonnegOrNan_div ((np.sums xs hne).closed nonnegOrNan_add hxs) hlength

/-- The entry of a window with losses, when neither division is by zero. -/
theorem rsiOf_eq {seg : List FloatValue}
    (hal : isZero (mean np (seg.map fun x => pyMax (neg x) (.finite 0))) = false)
    (hden : isZero (add (.finite 1) (div (mean np (seg.map fun x => pyMax x (.finite 0)))
      (mean np (seg.map fun x => pyMax (neg x) (.finite 0))))) = false) :
    rsiOf np seg = .ok (r 2 (sub (.finite 100) (div (.finite 100) (add (.finite 1)
      (div (mean np (seg.map fun x => pyMax x (.finite 0)))
        (mean np (seg.map fun x => pyMax (neg x) (.finite 0)))))))) := by
  unfold rsiOf
  dsimp only
  rw [hal, if_neg Bool.false_ne_true, pyDiv, hal, if_neg Bool.false_ne_true]
  show (pyDiv (.finite 100) _ >>= fun s => Except.ok (r 2 (sub (.finite 100) s))) = _
  rw [pyDiv, hden]
  rfl

theorem rsiOf_ok {seg : List FloatValue} (hne : seg ≠ []) : ∃ out, rsiOf np seg = .ok out := by
  have hmean (f : FloatValue → FloatValue) (hf : ∀ x, NonnegOrNan (f x)) :
      NonnegOrNan (mean np (seg.map f)) := by
    refine nonnegOrNan_mean np (by simpa using hne) fun y hy => ?_
    obtain ⟨x, -, rfl⟩ := List.mem_map.1 hy
    exact hf x
  have hag := hmean (fun x => pyMax x (.finite 0)) fun x => nonnegOrNan_pyMax_zero x
  have hal := hmean (fun x => pyMax (neg x) (.finite 0)) fun x => nonnegOrNan_pyMax_zero _
  by_cases hzero : isZero (mean np (seg.map fun x => pyMax (neg x) (.finite 0))) = true
  · exact ⟨_, if_pos hzero⟩
  · refine ⟨_, rsiOf_eq np (Bool.eq_false_iff.2 hzero) ?_⟩
    rcases nonnegOrNan_div hag hal with hnan | hnonneg
    · rw [hnan, add_nan]
      rfl
    · rcases one_add_cases hnonneg with hinf | ⟨q, hq, hone⟩
      · rw [hinf]
        rfl
      · rw [hq]
        exact decide_eq_false (by linarith : q ≠ 0)

theorem length_rets {values : List FloatValue} (h : values ≠ []) :
    (rets values).length = values.length := by
  have hpos := List.length_pos_iff.2 h
  rw [rets, List.length_cons, List.length_zipWith, List.length_tail]
  omega

theorem rsiSeries_ok (values : List FloatValue) :
    ∃ out, rsiSeries np values = .ok out ∧ out.length = values.length ∧
      ∀ i, i < values.length → 14 < i + 1 →
        ∃ e, out[i]? = some e ∧ rsiOf np (window (rets values) 14 i) = .ok e := by
  unfold rsiSeries
  split
  · exact ⟨_, rfl, List.length_map _, fun i hi hwarm => by omega⟩
  · have hdays : ∀ i ∈ List.range values.length, ∃ out, (if i + 1 ≤ 14 then Except.ok none
        else rsiOf np (window (rets values) 14 i)) = .ok out := by
      intro i hi
      have hlt := List.mem_range.1 hi
      have hne : values ≠ [] := List.length_pos_iff.1 (by omega)
      split
      · exact ⟨_, rfl⟩
      · exact rsiOf_ok np (window_ne_nil (by norm_num) (by rwa [length_rets hne]))
    obtain ⟨out, hout, hall⟩ := mapM_ok hdays
    have hlength : out.length = values.length := by rw [← hall.length_eq, List.length_range]
    refine ⟨out, hout, hlength, fun i hi hwarm => ?_⟩
    have hlt : i < out.length := hlength ▸ hi
    have hentry := hall.get (by rwa [List.length_range]) hlt
    simp only [List.get_eq_getElem, List.getElem_range] at hentry
    rw [if_neg (by omega)] at hentry
    exact ⟨out[i], List.getElem?_eq_getElem hlt, hentry⟩

theorem computeAll_ok {values : List FloatValue} (hgrid : ∀ v ∈ values, OnGrid v) :
    ∃ kdj rsi, computeAll np values = .ok (allOf np values kdj rsi) ∧
      rsiSeries np values = .ok rsi ∧ rsi.length = values.length := by
  obtain ⟨kdjOut, hkdj⟩ := kdj_ok hgrid 9 3 3
  obtain ⟨rsi, hrsi, hlength, -⟩ := rsiSeries_ok np values
  refine ⟨kdjOut, rsi, ?_, hrsi, hlength⟩
  unfold computeAll
  rw [hkdj, hrsi]
  rfl

end FloatIndicators

/-! ### Sums from left to right -/

namespace NumPy

/-- A root cut to twelve places. -/
def cutRoot (q : ℚ) : ℚ := (Nat.sqrt ⌊q * 10 ^ 24⌋.toNat : ℚ) / 10 ^ 12

theorem cutRoot_range {q : ℚ} (hq : 0 ≤ q) : 0 ≤ cutRoot q ∧ cutRoot q ≤ max 1 q := by
  have hfloor : ((⌊q * 10 ^ 24⌋.toNat : ℤ) : ℚ) ≤ q * 10 ^ 24 := by
    rw [Int.toNat_of_nonneg (Int.floor_nonneg.2 (by positivity))]
    exact Int.floor_le _
  unfold cutRoot
  generalize ⌊q * 10 ^ 24⌋.toNat = n at hfloor ⊢
  have hroot : (Nat.sqrt n : ℚ) * Nat.sqrt n ≤ n := by exact_mod_cast Nat.sqrt_le n
  rw [Int.cast_natCast] at hfloor
  refine ⟨by positivity, ?_⟩
  -- above one a root is less than its square
  by_contra hlt
  obtain ⟨hone, hself⟩ := max_lt_iff.1 (not_le.1 hlt)
  rw [lt_div_iff₀ (by positivity)] at hone hself
  nlinarith

/-- Sums from left to right, and roots cut to twelve places. -/
def inOrder : NumPy where
  sum := fun xs => xs.tail.foldl add (xs.headD (.finite 0))
  sums := by
    intro xs hne
    obtain ⟨x, xs, rfl⟩ := List.exists_cons_of_ne_nil hne
    suffices h : ∀ (ys seen : List FloatValue) (v : FloatValue), SumOf seen v →
        SumOf (seen ++ ys) (ys.foldl add v) from h xs [x] x (.single x)
    intro ys
    induction ys with
    | nil => exact fun seen v h => by rwa [List.append_nil]
    | cons y ys ih =>
      intro seen v h
      have hstep := ih (seen ++ [y]) (add v y) (.join h (.single y))
      rwa [List.append_assoc] at hstep
  sqrt := cutRoot
  sqrt_range := fun _ => cutRoot_range

end NumPy

end QuantFlow
