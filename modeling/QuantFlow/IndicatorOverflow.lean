/-
**Where an indicator has no entry.**

An entry of an indicator is `None` in the warm-up part of its window, and where the float it is made
of is infinite or NaN.  With positive NAVs that happens only through an overflow, and how large a NAV
may be before one is possible differs: an average adds a window up, a band squares the distances from
the average, an exponential average stays below the largest NAV, and the relative strength index
needs no bound at all.

Main results:

* `ma_isSome`, `bollBand_isSome` — averages and bands after the warm-up part;
* `within_emaStep` — **an exponential average keeps a bound that is a power
  of two**, for its two weights exceed one by at most half of the last place;
* `macd_isSome` — the MACD, which has no warm-up part;
* `rsiSeries_isSome` — **the relative strength index of positive NAVs**.
-/

import QuantFlow.FloatIndicators

namespace QuantFlow.FloatIndicators

open FloatValue

variable (np : NumPy)

/-! ### Rounding and averages -/

theorem abs_roundTo_le {q : ℚ} {k : ℕ} (n : ℕ) (h : |q| ≤ 2 ^ k) : |Decimal.roundTo n q| ≤ 2 ^ k := by
  have hfixed (m : ℤ) : Decimal.roundTo n (m : ℚ) = m := Decimal.roundTo_intCast n m
  rw [abs_le] at h ⊢
  constructor
  · have hlow : Decimal.roundTo n ((-2 ^ k : ℤ) : ℚ) ≤ Decimal.roundTo n q :=
      Decimal.roundTo_mono n (by push_cast; exact h.1)
    rw [hfixed] at hlow
    exact_mod_cast hlow
  · have hhigh : Decimal.roundTo n q ≤ Decimal.roundTo n ((2 ^ k : ℤ) : ℚ) :=
      Decimal.roundTo_mono n (by push_cast; exact h.2)
    rw [hfixed] at hhigh
    exact_mod_cast hhigh

theorem within_r {v : FloatValue} {k : ℕ} (n : ℕ) (h : Within k v) (hk : k ≤ 1023) :
    ∃ u, r n v = some u ∧ Within k u := by
  obtain ⟨q, rfl, hq⟩ := h.exists_finite
  exact ⟨_, rfl, within_fl hk (abs_roundTo_le n hq)⟩

theorem nonneg_div_pos {a : FloatValue} (ha : Nonneg a) {q : ℚ} (hq : 0 < q) :
    Nonneg (div a (.finite q)) := by
  rcases ha.inf_or_finite with rfl | ⟨p, rfl, hp⟩
  · exact nonneg_inf_div hq.le
  · exact nonneg_fl (div_nonneg hp hq.le)

section Averages

variable {xs : List FloatValue} {j k : ℕ}

theorem pos_of_lt_two_pow {n : ℕ} (hn : 0 < n) (h : n < 2 ^ j) : 0 < j := by
  rcases Nat.eq_zero_or_pos j with rfl | hj
  · omega
  · exact hj

theorem within_mean (hne : xs ≠ []) (hxs : ∀ x ∈ xs, Within k x) (hlength : xs.length < 2 ^ j)
    (hj : j ≤ 53) (hk : j + k ≤ 1024) : Within k (mean np xs) := by
  obtain ⟨q, hq, hle⟩ := (np.sums xs hne).bounded hxs hlength hj hk
  have hpos : 0 < xs.length := List.length_pos_iff.2 hne
  have hone := pos_of_lt_two_pow hpos hlength
  have hcast : (0 : ℚ) < xs.length := by exact_mod_cast hpos
  rw [mean, hq]
  refine within_fl (by omega) ?_
  rw [abs_div, abs_of_pos hcast, div_le_iff₀ hcast, mul_comm]
  exact hle

theorem within_root {v : FloatValue} (h : Within k v) (hpos : Nonneg v) : Within k (root np v) := by
  obtain ⟨q, rfl, hq⟩ := h.exists_finite
  have hq0 : 0 ≤ q := hpos
  obtain ⟨hlow, hhigh⟩ := np.sqrt_range q hq0
  rw [root, if_neg (not_lt.2 hq0)]
  show |np.sqrt q| ≤ 2 ^ k
  rw [abs_of_nonneg hlow]
  exact hhigh.trans (max_le (one_le_pow₀ one_le_two) ((le_abs_self q).trans hq))

theorem nonneg_mul_self {v : FloatValue} (h : Within k v) : Nonneg (mul v v) := by
  obtain ⟨q, rfl, -⟩ := h.exists_finite
  exact nonneg_fl (mul_self_nonneg q)

theorem nonneg_mean (hne : xs ≠ []) (hxs : ∀ x ∈ xs, Nonneg x) : Nonneg (mean np xs) := by
  have hlength : (0 : ℚ) < xs.length := by exact_mod_cast List.length_pos_iff.2 hne
  exact nonneg_div_pos ((np.sums xs hne).nonneg hxs) hlength

/-- The deviation of a window is the root of a mean of squares. -/
theorem std_eq (xs : List FloatValue) :
    std np xs = root np (mean np ((xs.map fun x => sub x (mean np xs)).map fun d => mul d d)) := by
  simp only [std, mean, List.length_map]

theorem within_std (hne : xs ≠ []) (hxs : ∀ x ∈ xs, Within k x) (hlength : xs.length < 2 ^ j)
    (hj : j ≤ 53) (hk : j + (k + 1 + (k + 1)) ≤ 1024) : Within (k + 1 + (k + 1)) (std np xs) := by
  have hone := pos_of_lt_two_pow (List.length_pos_iff.2 hne) hlength
  have hmean := within_mean np hne hxs hlength hj (by omega)
  have hsquares : ∀ y ∈ (xs.map fun x => sub x (mean np xs)).map fun d => mul d d,
      Within (k + 1 + (k + 1)) y ∧ Nonneg y := by
    intro y hy
    obtain ⟨d, hd, rfl⟩ := List.mem_map.1 hy
    obtain ⟨x, hx, rfl⟩ := List.mem_map.1 hd
    have hdist := within_sub (hxs x hx) hmean (by omega)
    exact ⟨within_mul hdist hdist (by omega), nonneg_mul_self hdist⟩
  rw [std_eq]
  refine within_root np (within_mean np (by simpa using hne) (fun y hy => (hsquares y hy).1)
    (by simpa using hlength) hj hk) ?_
  exact nonneg_mean np (by simpa using hne) fun y hy => (hsquares y hy).2

end Averages

/-! ### Moving averages and bands -/

section Windows

variable {values : List FloatValue} {j k : ℕ}

theorem ma_isSome (hvalues : ∀ v ∈ values, Within k v) {w i : ℕ} (hw : 1 ≤ w) (hwj : w < 2 ^ j)
    (hj : j ≤ 53) (hk : j + k ≤ 1024) (hi : i < values.length) (hwarm : w ≤ i + 1) :
    ∃ u, (ma np values w)[i]? = some (some u) ∧ Within k u := by
  have hlength : (window values w i).length = w := by
    rw [length_window hi]
    omega
  have hone := pos_of_lt_two_pow hw hwj
  have hmean := within_mean np (window_ne_nil hw hi) (fun v hv => hvalues v (mem_window hv))
    (by rwa [hlength]) hj hk
  obtain ⟨u, hu, hwithin⟩ := within_r 4 hmean (by omega)
  refine ⟨u, ?_, hwithin⟩
  rw [ma, List.getElem?_map, List.getElem?_range hi, Option.map_some, if_neg (by omega), hu]

/-- A band after the warm-up part: twenty squares of distances of at most `2 ^ 509` do not overflow. -/
theorem bollBand_isSome (hvalues : ∀ v ∈ values, Within 508 v)
    {side : FloatValue → FloatValue → FloatValue}
    (hside : ∀ a b, Within 1019 a → Within 1019 b → Within 1020 (side a b)) {i : ℕ}
    (hi : i < values.length) (hwarm : 20 ≤ i + 1) :
    ∃ u, (bollBand np side values 20 (.finite 2))[i]? = some (some u) := by
  have hlength : (window values 20 i).length = 20 := by
    rw [length_window hi]
    omega
  have hstd := within_std np (j := 5) (window_ne_nil (w := 20) (by norm_num) hi)
    (fun v hv => hvalues v (mem_window hv)) (by omega) (by norm_num) (by norm_num)
  have htwo : Within 1 (.finite 2) := within_finite (by norm_num)
  have hdist := within_mul htwo hstd (by norm_num)
  obtain ⟨m, hm, hmid⟩ := ma_isSome np (j := 5) hvalues (w := 20) (by norm_num) (by norm_num)
    (by norm_num) (by norm_num) hi hwarm
  obtain ⟨u, hu, -⟩ := within_r 4 (hside m _ (hmid.mono (by norm_num)) (hdist.mono (by norm_num)))
    (by norm_num)
  refine ⟨u, ?_⟩
  rw [bollBand, List.getElem?_map, List.getElem?_range hi, Option.map_some, if_neg (by omega),
    List.getD_eq_getElem?_getD, hm]
  exact congrArg some hu

end Windows

/-! ### Exponential averages -/

section Averaged

theorem fl_of_le_one {x : ℚ} (h : |x| ≤ 1) :
    fl x = .finite (Binary64.nearest x) ∧ |Binary64.nearest x| ≤ 1 := by
  have hle : |Binary64.nearest x| ≤ 1 := Binary64.abs_nearest_le Binary64.nearest_one h
  refine ⟨?_, hle⟩
  rw [fl, if_neg (not_le.2 (lt_of_le_of_lt hle (one_lt_pow₀ one_lt_two (by norm_num))))]

/-- The weight of a new value is a float between zero and one. -/
theorem weight_range {w : ℕ} (hw : 1 ≤ w) :
    ∃ q, fl (2 / (w + 1)) = .finite q ∧ Binary64.nearest q = q ∧ 0 ≤ q ∧ q ≤ 1 := by
  have hcast : (1 : ℚ) ≤ w := by exact_mod_cast hw
  have hpos : (0 : ℚ) ≤ 2 / (w + 1) := by positivity
  have hone : (2 : ℚ) / (w + 1) ≤ 1 := (div_le_one (by positivity)).2 (by linarith)
  obtain ⟨hfl, hle⟩ := fl_of_le_one (x := 2 / (w + 1)) (by rwa [abs_of_nonneg hpos])
  exact ⟨_, hfl, Binary64.nearest_nearest _, Binary64.nearest_nonneg hpos,
    (le_abs_self _).trans hle⟩

theorem mul_weight {k : ℕ} {v : FloatValue} (hv : Within k v) (hk : k ≤ 1023) {q : ℚ}
    (hq : Binary64.nearest q = q) (hpos : 0 ≤ q) (hone : q ≤ 1) :
    ∃ p, mul v (.finite q) = .finite p ∧ |p| ≤ 2 ^ k * q := by
  obtain ⟨x, rfl, hx⟩ := hv.exists_finite
  refine fl_bounded (Binary64.nearest_two_pow_mul hq k) ?_ ?_
  · exact lt_of_le_of_lt (mul_le_of_le_one_right (by positivity) hone) (two_pow_lt hk)
  · rw [abs_mul, abs_of_nonneg hpos]
    exact mul_le_mul_of_nonneg_right hx hpos

/-- **An exponential average keeps a bound that is a power of two.** -/
theorem within_emaStep {w k : ℕ} (hw : 1 ≤ w) (hk : k ≤ 1023) {out v : FloatValue}
    (hout : Within k out) (hv : Within k v) : Within k (emaStep (fl (2 / (w + 1))) out v) := by
  obtain ⟨q, hweight, hq, hpos, hone⟩ := weight_range hw
  have hrange : |1 - q| ≤ 1 := by
    rw [abs_of_nonneg (by linarith)]
    linarith
  have hnear := Binary64.abs_sub_nearest_le_of_le_one hrange
  obtain ⟨hfl, hrest⟩ := fl_of_le_one hrange
  have hsub : sub (.finite 1) (.finite q) = .finite (Binary64.nearest (1 - q)) := by
    show fl (1 + -q) = _
    rw [← sub_eq_add_neg, hfl]
  obtain ⟨a, ha, hale⟩ := mul_weight hv hk hq hpos hone
  obtain ⟨b, hb, hble⟩ := mul_weight hout hk (Binary64.nearest_nearest (1 - q))
    (Binary64.nearest_nonneg (by linarith)) ((le_abs_self _).trans hrest)
  rw [hweight, emaStep, hsub, ha, hb]
  refine within_fl_of_half hk ?_
  -- the weights add up to one, but for the rounding of the second
  have hsum : q + Binary64.nearest (1 - q) ≤ 1 + 2 ^ (-53 : ℤ) := by
    linarith [(abs_le.1 hnear).1]
  calc |a + b| ≤ |a| + |b| := abs_add_le a b
    _ ≤ 2 ^ k * q + 2 ^ k * Binary64.nearest (1 - q) := add_le_add hale hble
    _ = 2 ^ k * (q + Binary64.nearest (1 - q)) := (mul_add _ _ _).symm
    _ ≤ 2 ^ k * (1 + 2 ^ (-53 : ℤ)) := mul_le_mul_of_nonneg_left hsum (by positivity)

theorem within_scanl {w k : ℕ} (hw : 1 ≤ w) (hk : k ≤ 1023) (vs : List FloatValue) :
    ∀ {out : FloatValue}, Within k out → (∀ v ∈ vs, Within k v) →
      ∀ x ∈ vs.scanl (emaStep (fl (2 / (w + 1)))) out, Within k x := by
  induction vs with
  | nil =>
    intro out hout _ x hx
    rw [List.scanl_nil, List.mem_singleton] at hx
    rwa [hx]
  | cons v vs ih =>
    intro out hout hvs x hx
    rw [List.scanl_cons, List.mem_cons] at hx
    rcases hx with rfl | hx
    · exact hout
    · exact ih (within_emaStep hw hk hout (hvs v List.mem_cons_self))
        (fun u hu => hvs u (List.mem_cons_of_mem v hu)) x hx

theorem ema_isSome {values : List FloatValue} {k w : ℕ} (hw : 1 ≤ w) (hk : k ≤ 1023)
    (hvalues : ∀ v ∈ values, Within k v) : ∀ e ∈ ema values w, ∃ u, e = some u ∧ Within k u := by
  intro e he
  cases values with
  | nil => cases he
  | cons v vs =>
    obtain ⟨x, hx, rfl⟩ := List.mem_map.1 he
    have hwithin := within_scanl hw hk vs (hvalues v List.mem_cons_self)
      (fun u hu => hvalues u (List.mem_cons_of_mem v hu)) x hx
    exact within_r 4 hwithin hk

theorem mem_zipWith {α β γ : Type} {f : α → β → γ} {xs : List α} {ys : List β} {z : γ}
    (h : z ∈ List.zipWith f xs ys) : ∃ x ∈ xs, ∃ y ∈ ys, f x y = z := by
  rw [← List.map_uncurry_zip_eq_zipWith] at h
  obtain ⟨⟨x, y⟩, hxy, rfl⟩ := List.mem_map.1 h
  exact ⟨x, (List.of_mem_zip hxy).1, y, (List.of_mem_zip hxy).2, rfl⟩

theorem macd_isSome {values : List FloatValue} (hvalues : ∀ v ∈ values, Within 1022 v) :
    (∀ e ∈ (macd values).dif, ∃ u, e = some u) ∧ ∀ e ∈ (macd values).dea, ∃ u, e = some u := by
  unfold macd
  split
  · exact ⟨nofun, nofun⟩
  · have hdif : ∀ e ∈ List.zipWith (fun a b => r 4 (sub (orZero a) (orZero b))) (ema values 12)
        (ema values 26), ∃ u, e = some u ∧ Within 1023 u := by
      intro e he
      obtain ⟨a, ha, b, hb, rfl⟩ := mem_zipWith he
      obtain ⟨u, rfl, hu⟩ := ema_isSome (by norm_num) (by norm_num) hvalues a ha
      obtain ⟨v, rfl, hv⟩ := ema_isSome (by norm_num) (by norm_num) hvalues b hb
      exact within_r 4 (within_sub hu hv (by norm_num)) (by norm_num)
    refine ⟨fun e he => ?_, fun e he => ?_⟩
    · obtain ⟨u, hu, -⟩ := hdif e he
      exact ⟨u, hu⟩
    · have hsignal : ∀ v ∈ (List.zipWith (fun a b => r 4 (sub (orZero a) (orZero b)))
          (ema values 12) (ema values 26)).map orZero, Within 1023 v := by
        intro v hv
        obtain ⟨d, hd, rfl⟩ := List.mem_map.1 hv
        obtain ⟨u, rfl, hu⟩ := hdif d hd
        exact hu
      obtain ⟨u, hu, -⟩ := ema_isSome (by norm_num) (by norm_num) hsignal e he
      exact ⟨u, hu⟩

end Averaged

/-! ### The relative strength index -/

section Strength

/-- A positive finite value. -/
def Positive : FloatValue → Prop
  | .finite q => 0 < q
  | _ => False

theorem Positive.exists_finite {v : FloatValue} (h : Positive v) : ∃ q, v = .finite q ∧ 0 < q := by
  cases v with
  | finite q => exact ⟨q, rfl, h⟩
  | inf s => exact h.elim
  | nan => exact h.elim

/-- A return of positive NAVs: at least minus one, or infinite. -/
def Return (v : FloatValue) : Prop := v = .inf false ∨ ∃ q, v = .finite q ∧ -1 ≤ q

theorem return_fl {x : ℚ} (h : -1 ≤ x) : Return (fl x) := by
  have hlow : -1 ≤ Binary64.nearest x := by
    have hmono := Binary64.nearest_mono h
    rwa [Binary64.nearest_neg, Binary64.nearest_one] at hmono
  by_cases hneg : x < 0
  · obtain ⟨hfl, -⟩ := fl_of_le_one (x := x) (by rw [abs_of_neg hneg]; linarith)
    exact .inr ⟨_, hfl, hlow⟩
  · unfold fl
    split
    · exact .inl (by rw [decide_eq_false hneg])
    · exact .inr ⟨_, rfl, hlow⟩

theorem return_ret {prev v : FloatValue} (hprev : Positive prev) (hv : Positive v) :
    Return (ret prev v) := by
  obtain ⟨p, rfl, hp⟩ := hprev.exists_finite
  obtain ⟨q, rfl, hq⟩ := hv.exists_finite
  have hzero : isZero (.finite p) = false := decide_eq_false hp.ne'
  have hnonneg : Nonneg (div (.finite q) (.finite p)) := nonneg_fl (div_nonneg hq.le hp.le)
  rw [ret, hzero, if_neg Bool.false_ne_true]
  rcases hnonneg.inf_or_finite with hinf | ⟨x, hx, hx0⟩
  · rw [hinf]
    exact .inl rfl
  · rw [hx]
    exact return_fl (by linarith)

theorem nonneg_gain {x : FloatValue} (h : Return x) : Nonneg (pyMax x (.finite 0)) := by
  rcases nonnegOrNan_pyMax_zero x with hnan | hnonneg
  · rcases h with rfl | ⟨q, rfl, -⟩
    · cases hnan
    · rcases FloatIndicators.pyMax_eq (.finite q) (.finite 0) with heq | heq
      · rw [heq] at hnan
        cases hnan
      · rw [heq] at hnan
        cases hnan
  · exact hnonneg

theorem loss_range {x : FloatValue} (h : Return x) :
    Within 0 (pyMax (neg x) (.finite 0)) ∧ Nonneg (pyMax (neg x) (.finite 0)) := by
  have hzero : Within 0 (.finite 0) ∧ Nonneg (.finite 0) :=
    ⟨within_finite (by norm_num), le_refl (0 : ℚ)⟩
  rcases h with rfl | ⟨q, rfl, hq⟩
  · exact hzero
  · have hlt : lt (neg (.finite q)) (.finite 0) = decide (-q < 0) := rfl
    rw [pyMax, hlt]
    by_cases hneg : -q < 0
    · rw [if_pos (decide_eq_true hneg)]
      exact hzero
    · rw [if_neg fun h => hneg (of_decide_eq_true h)]
      refine ⟨within_finite ?_, not_lt.1 hneg⟩
      rw [abs_of_nonneg (not_lt.1 hneg), pow_zero]
      linarith

theorem within_hundred : Within 7 (.finite 100) := within_finite (by norm_num)

theorem within_hundred_div {a : FloatValue} (ha : Nonneg a) :
    isZero (add (.finite 1) a) = false ∧ Within 7 (div (.finite 100) (add (.finite 1) a)) := by
  rcases one_add_cases ha with hinf | ⟨q, hq, hone⟩
  · rw [hinf]
    exact ⟨rfl, within_finite (by norm_num)⟩
  · rw [hq]
    exact ⟨decide_eq_false (by linarith : q ≠ 0), within_div within_hundred hone (by norm_num)⟩

/-- The entry of a window of returns of positive NAVs. -/
theorem rsiOf_isSome {seg : List FloatValue} (hne : seg ≠ []) (hshort : seg.length ≤ 14)
    (hseg : ∀ x ∈ seg, Return x) : ∃ u, rsiOf np seg = .ok (some u) := by
  have hgains : ∀ y ∈ seg.map fun x => pyMax x (.finite 0), Nonneg y :=
    List.forall_mem_map.2 fun x hx => nonneg_gain (hseg x hx)
  have hlosses : ∀ y ∈ seg.map fun x => pyMax (neg x) (.finite 0), Within 0 y ∧ Nonneg y :=
    List.forall_mem_map.2 fun x hx => loss_range (hseg x hx)
  have hag := nonneg_mean np (by simpa using hne) hgains
  have hal := within_mean np (j := 4) (by simpa using hne) (fun y hy => (hlosses y hy).1)
    (by rw [List.length_map]; omega) (by norm_num) (by norm_num)
  have hal0 := nonneg_mean np (by simpa using hne) fun y hy => (hlosses y hy).2
  obtain ⟨q, hq, -⟩ := hal.exists_finite
  by_cases hzero : isZero (mean np (seg.map fun x => pyMax (neg x) (.finite 0))) = true
  · exact ⟨_, if_pos hzero⟩
  · rw [hq] at hzero hal0
    have hpos : 0 < q := lt_of_le_of_ne hal0 fun heq => hzero (decide_eq_true heq.symm)
    obtain ⟨hden, hquotient⟩ := within_hundred_div (nonneg_div_pos hag hpos)
    obtain ⟨u, hu, -⟩ := within_r 2 (within_sub within_hundred hquotient (by norm_num)) (by norm_num)
    refine ⟨u, ?_⟩
    rw [rsiOf_eq np (by rw [hq]; exact Bool.eq_false_iff.2 hzero) (by rw [hq]; exact hden), hq, hu]

/-- **The relative strength index of positive NAVs** has an entry after its warm-up part. -/
theorem rsiSeries_isSome {values : List FloatValue} (hvalues : ∀ v ∈ values, Positive v)
    {out : List (Option FloatValue)} (hout : rsiSeries np values = .ok out) {i : ℕ}
    (hi : i < values.length) (hwarm : 14 < i + 1) : ∃ u, out[i]? = some (some u) := by
  have hrets : ∀ x ∈ rets values, Return x := by
    intro x hx
    rcases List.mem_cons.1 hx with rfl | hx
    · exact .inr ⟨0, rfl, by norm_num⟩
    · obtain ⟨prev, hprev, v, hv, rfl⟩ := mem_zipWith hx
      exact return_ret (hvalues prev hprev) (hvalues v (List.mem_of_mem_tail hv))
  have hne : values ≠ [] := List.length_pos_iff.1 (by omega)
  have hrange : i < (rets values).length := by rwa [length_rets hne]
  obtain ⟨out', hout', -, hentries⟩ := rsiSeries_ok np values
  obtain rfl : out = out' := Except.ok.inj (hout.symm.trans hout')
  obtain ⟨e, he, hof⟩ := hentries i hi hwarm
  obtain ⟨u, hu⟩ := rsiOf_isSome np (window_ne_nil (w := 14) (by norm_num) hrange)
    (by rw [length_window hrange]; omega) fun x hx => hrets x (mem_window hx)
  exact ⟨u, he.trans (congrArg some (Except.ok.inj (hof.symm.trans hu)))⟩

end Strength

end QuantFlow.FloatIndicators
