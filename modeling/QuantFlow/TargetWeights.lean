/-
**Target weights, and the trades that reach them.**

The three methods of `target_weights` of `backend/app/rebalance.py` score every code and divide the
scores by their sum: 1 for equal weights, the reciprocal of the volatility with a floor, or the
confidence of an up-signal.  The scores are not negative and some score is positive, so the weights
are a distribution, whatever the inputs are.  Confidences below zero are cut off at zero; if nothing
is left of any signal, the weights are equal.

`suggest` trades the difference to the target.  What is bought is what is sold, and since the weights
depend on the codes and not on the values, a second run at the target finds nothing to do.

Main definitions:

* `Signal`, `targetWeightsOf` — signals as the function
  receives them, with missing keys, and a method by its name;
* `score`, `weight` — the weights as normalised scores;
* `targetValue`, `delta` — the trades before they are rounded.

Main results:

* `targetWeights_eq` — the three branches are one normalisation;
* `target_weights_distribution` — **target weights are a distribution of the promised shape**;
* `rebalancing_self_financing` — **rebalancing is self-financing and idempotent**.
-/

import QuantFlow.ListSums
import QuantFlow.Rebalance
import QuantFlow.WeightedSeries

namespace QuantFlow.Rebalance

/-! ### Signals as they are received -/

/-- The method of a name. -/
def Method.ofName (name : String) : Method :=
  if name = "equal" then .equal
  else if name = "risk_parity" then .riskParity
  else if name = "signal" then .signal
  else .other name

/-- A signal with the two keys the weights read.  Either may be missing; a confidence of `None` counts
as missing. -/
structure Signal where
  direction : Option String
  confidence : Option ℚ

def Signal.tilt (s : Signal) : Tilt :=
  { direction := if s.direction = some "up" then .up
      else if s.direction = some "down" then .down else .flat
    confidence := s.confidence.getD 0 }

/-- What the weights use of all signals. -/
def tilts (signals : Dict Signal) : Dict Tilt := signals.map fun p => (p.1, p.2.tilt)

/-- `target_weights(method, values, vols, signals)`. -/
def targetWeightsOf (method : String) (values vols : Dict ℚ) (signals : Dict Signal) : Dict ℚ :=
  targetWeights (.ofName method) values vols (tilts signals)

/-- `sig.get("direction") == "up"`. -/
def IsUp (signals : Dict Signal) (c : String) : Prop :=
  (signals.lookup c).bind Signal.direction = some "up"

instance (signals : Dict Signal) (c : String) : Decidable (IsUp signals c) :=
  inferInstanceAs (Decidable (_ = _))

/-- `float(sig.get("confidence", 0.0) or 0.0)`. -/
def confidenceOf (signals : Dict Signal) (c : String) : ℚ :=
  ((signals.lookup c).bind Signal.confidence).getD 0

theorem raw_tilts (signals : Dict Signal) (c : String) :
    Tilt.raw ((tilts signals).lookup c) =
      if IsUp signals c then max 0 (confidenceOf signals c) else 0 := by
  rw [tilts, Dict.lookup_map]
  cases hs : signals.lookup c with
  | none =>
    have hnone : ¬ IsUp signals c := by simp [IsUp, hs]
    rw [if_neg hnone]
    rfl
  | some s =>
    have hup : IsUp signals c ↔ s.direction = some "up" := by simp [IsUp, hs]
    have hconfidence : confidenceOf signals c = s.confidence.getD 0 := by simp [confidenceOf, hs]
    simp only [hup, hconfidence, Option.map_some]
    by_cases h : s.direction = some "up"
    · simp only [Signal.tilt, if_pos h, Tilt.raw]
    · rw [if_neg h]
      -- neither of the two other directions counts
      by_cases hdown : s.direction = some "down"
      · simp only [Signal.tilt, if_neg h, if_pos hdown, Tilt.raw]
      · simp only [Signal.tilt, if_neg h, if_neg hdown, Tilt.raw]

/-! ### Scores -/

section Scores

variable (method : Method) (codes : List String) (vols : Dict ℚ) (signals : Dict Tilt)

/-- `max(vols.get(c, 0.0), 1e-4)`. -/
def flooredVol (c : String) : ℚ := max ((vols.lookup c).getD 0) (1 / 10000)

/-- What the weights are proportional to. -/
def score (c : String) : ℚ :=
  match method with
  | .riskParity => 1 / flooredVol vols c
  | .signal =>
    if (codes.map fun c => Tilt.raw (signals.lookup c)).sum ≤ 0 then 1
    else Tilt.raw (signals.lookup c)
  | _ => 1

theorem score_signal_of_sum_pos {codes : List String}
    (hsum : 0 < (codes.map fun c => Tilt.raw (signals.lookup c)).sum) :
    score .signal codes vols signals = fun c => Tilt.raw (signals.lookup c) := by
  funext c
  simp only [score, if_neg (not_le.2 hsum)]

theorem score_signal_of_sum_le {codes : List String}
    (hsum : (codes.map fun c => Tilt.raw (signals.lookup c)).sum ≤ 0) (c : String) :
    score .signal codes vols signals c = 1 := by
  simp only [score, if_pos hsum]

/-- The share of a code in all scores. -/
def weight (c : String) : ℚ :=
  score method codes vols signals c / (codes.map (score method codes vols signals)).sum

theorem map_weight :
    codes.map (weight method codes vols signals) =
      WeightedSeries.normalize (codes.map (score method codes vols signals)) := by
  rw [WeightedSeries.normalize, List.map_map]
  rfl

theorem flooredVol_pos (c : String) : 0 < flooredVol vols c :=
  lt_max_of_lt_right (by norm_num)

theorem raw_nonneg (s : Option Tilt) : 0 ≤ Tilt.raw s := by
  unfold Tilt.raw
  split
  · exact le_max_left _ _
  · exact le_rfl

theorem score_nonneg (c : String) : 0 ≤ score method codes vols signals c := by
  cases method with
  | equal => exact zero_le_one
  | other name => exact zero_le_one
  | riskParity => exact (one_div_pos.2 (flooredVol_pos vols c)).le
  | signal =>
    simp only [score]
    split_ifs
    · exact zero_le_one
    · exact raw_nonneg _

variable {codes}

theorem sum_score_pos (hne : codes ≠ []) :
    0 < (codes.map (score method codes vols signals)).sum := by
  have hall : (∀ c, 0 < score method codes vols signals c) →
      0 < (codes.map (score method codes vols signals)).sum := by
    intro hpos
    refine WeightedSeries.sum_pos_of_pos (by simpa using hne) ?_
    intro a ha
    obtain ⟨c, -, rfl⟩ := List.mem_map.1 ha
    exact hpos c
  cases method with
  | equal => exact hall fun c => one_pos
  | other name => exact hall fun c => one_pos
  | riskParity => exact hall fun c => one_div_pos.2 (flooredVol_pos vols c)
  | signal =>
    by_cases hsum : (codes.map fun c => Tilt.raw (signals.lookup c)).sum ≤ 0
    · refine hall fun c => ?_
      rw [score_signal_of_sum_le vols signals hsum]
      exact one_pos
    · rw [score_signal_of_sum_pos vols signals (not_le.1 hsum)]
      exact not_le.1 hsum

theorem sum_weight (hne : codes ≠ []) : (codes.map (weight method codes vols signals)).sum = 1 := by
  rw [map_weight, WeightedSeries.sum_normalize (sum_score_pos method vols signals hne).ne']

variable (codes)

theorem sum_score_nonneg : 0 ≤ (codes.map (score method codes vols signals)).sum := by
  refine List.sum_nonneg ?_
  intro a ha
  obtain ⟨c, -, rfl⟩ := List.mem_map.1 ha
  exact score_nonneg method codes vols signals c

theorem weight_nonneg (c : String) : 0 ≤ weight method codes vols signals c :=
  div_nonneg (score_nonneg method codes vols signals c) (sum_score_nonneg method codes vols signals)

theorem weight_of_score_one (h : ∀ c, score method codes vols signals c = 1) (c : String) :
    weight method codes vols signals c = 1 / codes.length := by
  have hsum : (codes.map (score method codes vols signals)).sum = codes.length := by
    rw [List.map_congr_left fun c _ => h c, List.map_const', List.sum_replicate, nsmul_eq_mul, mul_one]
  rw [weight, hsum, h c]

theorem total_map (f : String → ℚ) :
    Dict.total (codes.map fun c => (c, f c)) = (codes.map f).sum := by
  rw [Dict.total, List.map_map]
  rfl

/-- A dictionary of numbers, divided by their sum. -/
theorem map_div_total (f : String → ℚ) :
    ((codes.map fun c => (c, f c)).map fun p =>
        (p.1, p.2 / Dict.total (codes.map fun c => (c, f c)))) =
      codes.map fun c => (c, f c / (codes.map f).sum) := by
  rw [total_map, List.map_map]
  rfl

/-- **The three branches are one normalisation.** -/
theorem targetWeights_eq (values : Dict ℚ) :
    targetWeights method values vols signals = (values.map Prod.fst).map fun c =>
      (c, weight method (values.map Prod.fst) vols signals c) := by
  have hequal : (∀ c, score method (values.map Prod.fst) vols signals c = 1) →
      ((values.map Prod.fst).map fun c => (c, 1 / ((values.map Prod.fst).length : ℚ))) =
        (values.map Prod.fst).map fun c =>
          (c, weight method (values.map Prod.fst) vols signals c) := by
    intro hone
    refine List.map_congr_left fun c _ => ?_
    rw [weight_of_score_one method _ vols signals hone]
  cases method with
  | equal => exact hequal fun c => rfl
  | other name => exact hequal fun c => rfl
  | riskParity => exact map_div_total _ fun c => 1 / flooredVol vols c
  | signal =>
    simp only [targetWeights]
    rw [map_div_total, total_map]
    by_cases hsum : ((values.map Prod.fst).map fun c => Tilt.raw (signals.lookup c)).sum ≤ 0
    · rw [if_pos hsum]
      exact hequal (score_signal_of_sum_le vols signals hsum)
    · rw [if_neg hsum]
      refine List.map_congr_left fun c _ => ?_
      rw [weight, score_signal_of_sum_pos vols signals (not_le.1 hsum)]

theorem snd_of_mem_targetWeights {values : Dict ℚ} {p : String × ℚ}
    (hp : p ∈ targetWeights method values vols signals) :
    p.2 = weight method (values.map Prod.fst) vols signals p.1 := by
  rw [targetWeights_eq] at hp
  obtain ⟨c, -, rfl⟩ := List.mem_map.1 hp
  rfl

end Scores

/-! ### The shape of the weights -/

section Shape

variable (vols : Dict ℚ) (signals : Dict Signal) {codes : List String}

/-- Some code has an up-signal of positive confidence. -/
def Raised (codes : List String) : Prop := ∃ c ∈ codes, IsUp signals c ∧ 0 < confidenceOf signals c

/-- The sum that the code tests is positive exactly if a signal counts. -/
theorem sum_raw_pos_iff :
    0 < (codes.map fun c => Tilt.raw ((tilts signals).lookup c)).sum ↔ Raised signals codes := by
  constructor
  · intro hsum
    by_contra hnone
    -- otherwise every term is zero
    refine absurd (List.sum_eq_zero ?_) hsum.ne'
    intro a ha
    obtain ⟨c, hc, rfl⟩ := List.mem_map.1 ha
    rw [raw_tilts]
    split_ifs with hup
    · refine max_eq_left (not_lt.1 fun hpos => hnone ⟨c, hc, hup, hpos⟩)
    · rfl
  · rintro ⟨c, hc, hup, hpos⟩
    have hterm : 0 < Tilt.raw ((tilts signals).lookup c) := by
      rw [raw_tilts, if_pos hup]
      exact lt_max_of_lt_right hpos
    refine lt_of_lt_of_le hterm (List.single_le_sum ?_ _ (List.mem_map_of_mem hc))
    intro a ha
    obtain ⟨c', -, rfl⟩ := List.mem_map.1 ha
    exact raw_nonneg _

/-- With a signal that counts, the weights are proportional to what is left of the confidences. -/
theorem weight_of_raised (h : Raised signals codes) :
    ∃ k, 0 < k ∧ ∀ c, weight .signal codes vols (tilts signals) c =
      if IsUp signals c then k * max 0 (confidenceOf signals c) else 0 := by
  have hsum := (sum_raw_pos_iff signals).2 h
  refine ⟨_, one_div_pos.2 hsum, fun c => ?_⟩
  rw [weight, score_signal_of_sum_pos vols _ hsum]
  simp only [raw_tilts]
  split_ifs
  · rw [div_eq_mul_one_div, mul_comm]
  · rw [zero_div]

theorem weight_of_not_raised (h : ¬ Raised signals codes) (c : String) :
    weight .signal codes vols (tilts signals) c = 1 / codes.length := by
  refine weight_of_score_one _ _ _ _ (fun c => ?_) c
  refine score_signal_of_sum_le vols _ (not_lt.1 ?_) c
  rwa [sum_raw_pos_iff]

/-- Risk parity: weight times volatility is the same for all codes. -/
theorem weight_riskParity_mul (tilts : Dict Tilt) (c : String) :
    weight .riskParity codes vols tilts c * flooredVol vols c =
      1 / (codes.map (score .riskParity codes vols tilts)).sum := by
  rw [weight, div_mul_eq_mul_div]
  congr 1
  exact one_div_mul_cancel (flooredVol_pos vols c).ne'

theorem weight_riskParity_anti (tilts : Dict Tilt) {c c' : String}
    (h : (vols.lookup c).getD 0 ≤ (vols.lookup c').getD 0) :
    weight .riskParity codes vols tilts c' ≤ weight .riskParity codes vols tilts c := by
  have hfloor : flooredVol vols c ≤ flooredVol vols c' := max_le_max_right _ h
  have hscore : 1 / flooredVol vols c' ≤ 1 / flooredVol vols c :=
    one_div_le_one_div_of_le (flooredVol_pos vols c) hfloor
  exact div_le_div_of_nonneg_right hscore (sum_score_nonneg _ _ _ _)

end Shape

/-- **Target weights are a distribution of the promised shape.**  They name the codes of the values, are
not negative and sum to one.  For risk parity, weight times floored volatility is the same for all
codes, so that a lower volatility never gets a smaller weight.  For signals, codes that are not up get
nothing and the others what is left of their confidence above zero, in proportion; if that is nothing
for every code, all weights are equal. -/
theorem target_weights_distribution {values : Dict ℚ} (hne : values ≠ []) (method : String)
    (vols : Dict ℚ) (signals : Dict Signal) :
    let w := targetWeightsOf method values vols signals
    w.map Prod.fst = values.map Prod.fst ∧ (∀ p ∈ w, 0 ≤ p.2) ∧ (w.map Prod.snd).sum = 1 ∧
      (method = "risk_parity" →
        (∃ k, ∀ p ∈ w, p.2 * max ((vols.lookup p.1).getD 0) (1 / 10000) = k) ∧
        ∀ p ∈ w, ∀ q ∈ w, (vols.lookup p.1).getD 0 ≤ (vols.lookup q.1).getD 0 → q.2 ≤ p.2) ∧
      (method = "signal" →
        (Raised signals (values.map Prod.fst) →
          (∀ p ∈ w, ¬ IsUp signals p.1 → p.2 = 0) ∧
          ∃ k, 0 < k ∧ ∀ p ∈ w, IsUp signals p.1 → p.2 = k * max 0 (confidenceOf signals p.1)) ∧
        (¬ Raised signals (values.map Prod.fst) → ∀ p ∈ w, p.2 = 1 / values.length)) := by
  intro w
  have hcodes : values.map Prod.fst ≠ [] := by simpa using hne
  have hw : w = (values.map Prod.fst).map fun c =>
      (c, weight (.ofName method) (values.map Prod.fst) vols (tilts signals) c) :=
    targetWeights_eq _ vols _ values
  have hentry : ∀ p ∈ w, p.2 =
      weight (.ofName method) (values.map Prod.fst) vols (tilts signals) p.1 :=
    fun p hp => snd_of_mem_targetWeights _ _ _ hp
  refine ⟨?_, ?_, ?_, ?_, ?_⟩
  · rw [hw, List.map_map]
    exact List.map_id' _
  · intro p hp
    rw [hentry p hp]
    exact weight_nonneg _ _ _ _ _
  · rw [hw, List.map_map]
    exact sum_weight _ _ _ hcodes
  · rintro rfl
    obtain ⟨k, hk⟩ : ∃ k, ∀ c, weight .riskParity (values.map Prod.fst) vols
        (tilts signals) c * flooredVol vols c = k :=
      ⟨_, weight_riskParity_mul vols _⟩
    refine ⟨⟨k, fun p hp => ?_⟩, ?_⟩
    · rw [hentry p hp]
      exact hk p.1
    · intro p hp q hq hle
      rw [hentry p hp, hentry q hq]
      exact weight_riskParity_anti vols _ hle
  · rintro rfl
    refine ⟨?_, ?_⟩
    · intro hraised
      obtain ⟨k, hk, hweight⟩ := weight_of_raised vols signals hraised
      refine ⟨?_, k, hk, ?_⟩
      · intro p hp hdown
        rw [hentry p hp]
        exact (hweight p.1).trans (if_neg hdown)
      · intro p hp hup
        rw [hentry p hp]
        exact (hweight p.1).trans (if_pos hup)
    · intro hnone p hp
      have hequal := weight_of_not_raised vols signals hnone p.1
      rw [List.length_map] at hequal
      rw [hentry p hp]
      exact hequal

/-- Two holdings of one value. -/
def twoValues : Dict ℚ := [("000001", 100), ("000002", 100)]

/-- Both signals are up, one with a negative confidence. -/
def mixedSignals : Dict Signal :=
  [("000001", { direction := some "up", confidence := some (1 / 2) }),
    ("000002", { direction := some "up", confidence := some (-1 / 2) })]

theorem target_weights_distribution_mixedSignals :
    ((targetWeightsOf "signal" twoValues [] mixedSignals).map Prod.snd).sum = 1 ∧
      ∃ k, 0 < k ∧ ∀ p ∈ targetWeightsOf "signal" twoValues [] mixedSignals,
        IsUp mixedSignals p.1 → p.2 = k * max 0 (confidenceOf mixedSignals p.1) := by
  have hraised : Raised mixedSignals (twoValues.map Prod.fst) :=
    ⟨"000001", List.mem_cons_self, by decide +kernel, by decide +kernel⟩
  obtain ⟨-, -, hsum, -, hsignal⟩ :=
    target_weights_distribution (show twoValues ≠ [] by decide) "signal" [] mixedSignals
  exact ⟨hsum, ((hsignal rfl).1 hraised).2⟩

/-- A negative confidence gets nothing, so the weights are not proportional to the confidences. -/
theorem negative_confidence_cut :
    Raised mixedSignals (twoValues.map Prod.fst) ∧
      (∀ c ∈ twoValues.map Prod.fst, IsUp mixedSignals c) ∧
      ¬ ∃ k, ∀ p ∈ targetWeightsOf "signal" twoValues [] mixedSignals,
        p.2 = k * confidenceOf mixedSignals p.1 := by
  refine ⟨⟨"000001", List.mem_cons_self, by decide +kernel, by decide +kernel⟩, by decide +kernel, ?_⟩
  have hweights : targetWeightsOf "signal" twoValues [] mixedSignals =
      [("000001", 1), ("000002", 0)] := by decide +kernel
  have hfirst : confidenceOf mixedSignals "000001" = 1 / 2 := by decide +kernel
  have hsecond : confidenceOf mixedSignals "000002" = -1 / 2 := by decide +kernel
  rintro ⟨k, hk⟩
  rw [hweights] at hk
  have hone := hk ("000001", 1) (by simp)
  have hzero := hk ("000002", 0) (by simp)
  rw [hfirst] at hone
  rw [hsecond] at hzero
  linarith

/-! ### The trades -/

section Trades

variable (method : Method) (navs vols : Dict ℚ) (signals : Dict Tilt)

/-- `w * total`. -/
def targetValue (c : String) : ℚ :=
  ((targetWeights method navs vols signals).lookup c).getD 0 * Dict.total navs

/-- `tgt - cur`. -/
def delta (p : String × ℚ) : ℚ := targetValue method navs vols signals p.1 - p.2

/-- The holdings at their target values. -/
def rebalanced : Dict ℚ := navs.map fun p => (p.1, targetValue method navs vols signals p.1)

theorem targetValue_eq {p : String × ℚ} (hp : p ∈ navs) :
    targetValue method navs vols signals p.1 =
      weight method (navs.map Prod.fst) vols signals p.1 * Dict.total navs := by
  rw [targetValue, targetWeights_eq, List.lookup_graph _ (List.mem_map_of_mem hp), Option.getD_some]

/-- The reported row of a holding names its trade. -/
theorem deltaValue_row (N : Numerics) (prices : Dict ℚ) (names : Dict String) (p : String × ℚ) :
    (position N prices names (Dict.total navs) p.1 p.2
      (((targetWeights method navs vols signals).lookup p.1).getD 0)).deltaValue =
        N.round 2 (delta method navs vols signals p) := rfl

/-- The reported trades are the trades, rounded and sorted. -/
theorem perm_deltaValue (N : Numerics) (prices : Dict ℚ) (names : Dict String) :
    ((suggest N method navs vols signals prices names).positions.map Position.deltaValue).Perm
      (navs.map fun p => N.round 2 (delta method navs vols signals p)) := by
  have hsorted := List.mergeSort_perm (navs.map fun p => position N prices names (Dict.total navs)
    p.1 p.2 (((targetWeights method navs vols signals).lookup p.1).getD 0))
    fun a b => b.deltaValue ≤ a.deltaValue
  have hvalues := hsorted.map Position.deltaValue
  rw [List.map_map] at hvalues
  exact hvalues

/-- A reported position is the row of a holding. -/
theorem mem_positions {N : Numerics} {prices : Dict ℚ} {names : Dict String} {row : Position}
    (h : row ∈ (suggest N method navs vols signals prices names).positions) :
    ∃ p ∈ navs, row = position N prices names (Dict.total navs) p.1 p.2
      (((targetWeights method navs vols signals).lookup p.1).getD 0) := by
  obtain ⟨p, hp, hrow⟩ := List.mem_map.1 ((List.mergeSort_perm _ _).mem_iff.1 h)
  exact ⟨p, hp, hrow.symm⟩

theorem codes_rebalanced :
    (rebalanced method navs vols signals).map Prod.fst = navs.map Prod.fst := by
  rw [rebalanced, List.map_map]
  rfl

variable {navs}

theorem ne_nil_of_total_pos (htotal : 0 < Dict.total navs) : navs ≠ [] := by
  rintro rfl
  exact lt_irrefl _ htotal

/-- The target values have the total of the current ones. -/
theorem sum_targetValue (hne : navs ≠ []) :
    (navs.map fun p => targetValue method navs vols signals p.1).sum = Dict.total navs := by
  have hweights : ((navs.map Prod.fst).map (weight method (navs.map Prod.fst) vols signals)).sum = 1 :=
    sum_weight method vols signals (by simpa using hne)
  rw [List.map_map] at hweights
  calc (navs.map fun p => targetValue method navs vols signals p.1).sum
      = (navs.map fun p =>
          weight method (navs.map Prod.fst) vols signals p.1 * Dict.total navs).sum := by
        rw [List.map_congr_left fun p hp => targetValue_eq method navs vols signals hp]
    _ = (navs.map fun p => weight method (navs.map Prod.fst) vols signals p.1).sum *
          Dict.total navs := List.sum_map_mul_right _ _ _
    _ = Dict.total navs := by
        rw [show (navs.map fun p => weight method (navs.map Prod.fst) vols signals p.1).sum = 1
          from hweights, one_mul]

theorem sum_delta (hne : navs ≠ []) : (navs.map (delta method navs vols signals)).sum = 0 := by
  have hdifference : (navs.map (delta method navs vols signals)).sum =
      (navs.map fun p => targetValue method navs vols signals p.1).sum - Dict.total navs :=
    ListSums.sum_map_sub navs (fun p => targetValue method navs vols signals p.1) Prod.snd
  rw [hdifference, sum_targetValue method vols signals hne, sub_self]

theorem total_rebalanced (hne : navs ≠ []) :
    Dict.total (rebalanced method navs vols signals) = Dict.total navs := by
  rw [Dict.total, rebalanced, List.map_map]
  exact sum_targetValue method vols signals hne

/-- The targets of the rebalanced holdings are those of the holdings before: the weights depend on
the codes, and the total has not changed. -/
theorem targetValue_rebalanced (hne : navs ≠ []) (c : String) :
    targetValue method (rebalanced method navs vols signals) vols signals c =
      targetValue method navs vols signals c := by
  rw [targetValue, targetWeights_eq, codes_rebalanced, total_rebalanced method vols signals hne,
    targetValue, targetWeights_eq]

theorem delta_rebalanced (hne : navs ≠ []) :
    ∀ p ∈ rebalanced method navs vols signals,
      delta method (rebalanced method navs vols signals) vols signals p = 0 := by
  intro p hp
  rw [delta, targetValue_rebalanced method vols signals hne]
  obtain ⟨q, -, rfl⟩ := List.mem_map.1 hp
  exact sub_self _

theorem action_of_delta_eq_zero {N : Numerics} {prices : Dict ℚ} {names : Dict String}
    {p : String × ℚ} (h : delta method navs vols signals p = 0) :
    (position N prices names (Dict.total navs) p.1 p.2
      (((targetWeights method navs vols signals).lookup p.1).getD 0)).action = .hold := by
  refine if_pos ?_
  show |delta method navs vols signals p| < max (Dict.total navs * (5 / 1000)) 1
  rw [h, abs_zero]
  exact lt_max_of_lt_right one_pos

end Trades

/-- **Rebalancing is self-financing and idempotent.**  The trades sum to zero and reach the target;
rounded to cents, the `n` reported ones sum to at most half a cent each; and at the target the same
request finds nothing to trade and holds every position. -/
theorem rebalancing_self_financing {pow : ℚ → ℚ → ℚ} {sqrt : ℚ → ℚ} (method : Method)
    {navs : Dict ℚ} (htotal : 0 < Dict.total navs) (vols : Dict ℚ) (signals : Dict Tilt)
    (prices : Dict ℚ) (names : Dict String) :
    let N : Numerics := .python pow sqrt
    let trade := delta method navs vols signals
    let reported :=
      (suggest N method navs vols signals prices names).positions.map Position.deltaValue
    (navs.map trade).sum = 0 ∧
      (∀ p ∈ navs, p.2 + trade p = targetValue method navs vols signals p.1) ∧
      reported.Perm (navs.map fun p => N.round 2 (trade p)) ∧
      |reported.sum| ≤ navs.length * (5 / 1000) ∧
      ∀ (prices' : Dict ℚ) (names' : Dict String),
        let target := rebalanced method navs vols signals
        (∀ p ∈ target, delta method target vols signals p = 0) ∧
          ∀ row ∈ (suggest N method target vols signals prices' names').positions,
            row.deltaValue = 0 ∧ row.action = .hold := by
  intro N trade reported
  have hne := ne_nil_of_total_pos htotal
  have hzero : (navs.map trade).sum = 0 := sum_delta method vols signals hne
  have hperm : reported.Perm (navs.map fun p => N.round 2 (trade p)) :=
    perm_deltaValue method navs vols signals N prices names
  refine ⟨hzero, fun p _ => add_sub_cancel _ _, hperm, ?_, ?_⟩
  · have hrounded := Decimal.abs_sum_roundTo_sub_le 2 (navs.map trade)
    rw [hzero, sub_zero, List.map_map, List.length_map] at hrounded
    rw [hperm.sum_eq]
    calc |(navs.map fun p => N.round 2 (trade p)).sum|
        ≤ navs.length * (1 / 2 / 10 ^ 2) := hrounded
      _ = navs.length * (5 / 1000) := by norm_num
  · intro prices' names' target
    have hnothing := delta_rebalanced method vols signals hne
    refine ⟨hnothing, ?_⟩
    intro row hrow
    obtain ⟨p, hp, rfl⟩ := mem_positions method target vols signals hrow
    refine ⟨?_, action_of_delta_eq_zero method vols signals (hnothing p hp)⟩
    rw [deltaValue_row, hnothing p hp]
    exact Decimal.roundTo_zero 2

/-- Three holdings at risk parity: the volatility of the third is missing. -/
theorem rebalancing_self_financing_riskParity :
    let navs : Dict ℚ := [("000001", 100), ("000002", 250), ("000003", 50)]
    let vols : Dict ℚ := [("000001", 1 / 10), ("000002", 1 / 5)]
    0 < Dict.total navs ∧ (navs.map (delta .riskParity navs vols [])).sum = 0 ∧
      ∀ row ∈ (suggest .runnable .riskParity (rebalanced .riskParity navs vols []) vols [] []
        []).positions, row.deltaValue = 0 ∧ row.action = .hold := by
  intro navs vols
  have htotal : 0 < Dict.total navs := by decide +kernel
  obtain ⟨hsum, -, -, -, hagain⟩ :=
    rebalancing_self_financing .riskParity htotal vols [] [] []
  exact ⟨htotal, hsum, (hagain [] []).2⟩

end QuantFlow.Rebalance
