/-
**The arithmetic of floats.**

The values of `FloatValue` are added, multiplied and divided as IEEE 754 says: a finite
result is rounded to binary64 and may overflow, and infinities and NaN have tables of their own.
Signed zeros are not told apart.  The order of the summands of a sum in NumPy is not fixed, so a sum
is any result of adding the numbers up in some order.

For results that must not be infinite or NaN two properties are carried along: a bound by a power of
two, and not being negative, which infinity has too.

Main definitions:

* `fl` — the float next to a number;
* `add`, `mul`, `div`, `neg`, `lt`, `pyMax`, `pyMin` — the operations;
* `SumOf` — the possible sums of a list;
* `Within`, `Nonneg` — the two properties.

Main results:

* `within_fl`, `fl_of_large` — what does not overflow, and what does;
* `SumOf.bounded`, `SumOf.nonneg` — **sums in any order**.
-/

import QuantFlow.Binary64
import QuantFlow.NavFloats

namespace QuantFlow.FloatValue

open Binary64 (nearest)

/-! ### The operations -/

/-- The float next to a number. -/
def fl (x : ℚ) : FloatValue :=
  if 2 ^ 1024 ≤ |nearest x| then .inf (x < 0) else .finite (nearest x)

def neg : FloatValue → FloatValue
  | .finite q => .finite (-q)
  | .inf negative => .inf !negative
  | .nan => .nan

def add : FloatValue → FloatValue → FloatValue
  | .finite a, .finite b => fl (a + b)
  | .inf s, .inf t => if s = t then .inf s else .nan
  | .inf s, .finite _ => .inf s
  | .finite _, .inf t => .inf t
  | _, _ => .nan

def sub (a b : FloatValue) : FloatValue := add a (neg b)

def mul : FloatValue → FloatValue → FloatValue
  | .finite a, .finite b => fl (a * b)
  | .inf s, .inf t => .inf (s != t)
  | .inf s, .finite b => if b = 0 then .nan else .inf (s != decide (b < 0))
  | .finite a, .inf t => if a = 0 then .nan else .inf (t != decide (a < 0))
  | _, _ => .nan

/-- The quotient by a number that is not zero. -/
def div : FloatValue → FloatValue → FloatValue
  | .finite a, .finite b => fl (a / b)
  | .inf s, .finite b => .inf (s != decide (b < 0))
  | .finite _, .inf _ => .finite 0
  | _, _ => .nan

/-- `a < b`, which is false of NaN. -/
def lt : FloatValue → FloatValue → Bool
  | .finite a, .finite b => a < b
  | .inf s, .finite _ => s
  | .finite _, .inf t => !t
  | .inf s, .inf t => s && !t
  | _, _ => false

/-- `a == b`, which is false of NaN. -/
def eq : FloatValue → FloatValue → Bool
  | .finite a, .finite b => a = b
  | .inf s, .inf t => s = t
  | _, _ => false

/-- `max(a, b)`: the first one, unless the second is greater. -/
def pyMax (a b : FloatValue) : FloatValue := if lt a b then b else a

/-- `min(a, b)`: the first one, unless the second is less. -/
def pyMin (a b : FloatValue) : FloatValue := if lt b a then b else a

def isZero : FloatValue → Bool
  | .finite q => q = 0
  | _ => false

/-- The number that a value is, zero for an infinity and NaN. -/
def number : FloatValue → ℚ
  | .finite q => q
  | _ => 0

/-- `a / b` in Python, which raises for zero. -/
def pyDiv (a b : FloatValue) : Except PyError FloatValue :=
  if isZero b then .error .zeroDivision else .ok (div a b)

/-- `a / b` in NumPy, which divides by zero too. -/
def npDiv (a b : FloatValue) : FloatValue :=
  if isZero b then
    match a with
    | .finite q => if q = 0 then .nan else .inf (q < 0)
    | v => v
  else div a b

/-- The results of adding up a list that is not empty, in some order. -/
inductive SumOf : List FloatValue → FloatValue → Prop
  | single (x : FloatValue) : SumOf [x] x
  | join {xs ys : List FloatValue} {v w : FloatValue} (hv : SumOf xs v) (hw : SumOf ys w) :
      SumOf (xs ++ ys) (add v w)
  | perm {xs ys : List FloatValue} {v : FloatValue} (h : xs.Perm ys) (hv : SumOf xs v) : SumOf ys v

/-! ### Bounded values -/

/-- A finite value of at most a power of two. -/
def Within (k : ℕ) : FloatValue → Prop
  | .finite q => |q| ≤ 2 ^ k
  | _ => False

theorem within_finite {k : ℕ} {q : ℚ} (h : |q| ≤ 2 ^ k) : Within k (.finite q) := h

theorem Within.exists_finite {k : ℕ} {v : FloatValue} (h : Within k v) :
    ∃ q, v = .finite q ∧ |q| ≤ 2 ^ k := by
  cases v with
  | finite q => exact ⟨q, rfl, h⟩
  | inf s => exact h.elim
  | nan => exact h.elim

theorem Within.mono {j k : ℕ} {v : FloatValue} (h : Within j v) (hjk : j ≤ k) : Within k v := by
  obtain ⟨q, rfl, hq⟩ := h.exists_finite
  exact hq.trans (pow_le_pow_right₀ one_le_two hjk)

theorem fl_bounded {x b : ℚ} (hb : nearest b = b) (hlt : b < 2 ^ 1024) (h : |x| ≤ b) :
    ∃ q, fl x = .finite q ∧ |q| ≤ b := by
  have hnearest := Binary64.abs_nearest_le hb h
  rw [fl, if_neg (not_le.2 (lt_of_le_of_lt hnearest hlt))]
  exact ⟨_, rfl, hnearest⟩

theorem fl_of_nearest_eq {x : ℚ} (hx : nearest x = x) (hlt : |x| < 2 ^ 1024) : fl x = .finite x := by
  rw [fl, hx, if_neg (not_le.2 hlt)]

theorem nearest_nat_mul {n : ℕ} (hn : n < 2 ^ 53) (k : ℕ) : nearest (n * 2 ^ k) = n * 2 ^ k := by
  have hdigits : |(n : ℤ)| < 2 ^ 53 := by
    rw [Nat.abs_cast]
    exact_mod_cast hn
  simpa using Binary64.nearest_mul_two_zpow hdigits (k := k) (by omega)

theorem two_pow_lt {k : ℕ} (hk : k ≤ 1023) : (2 : ℚ) ^ k < 2 ^ 1024 :=
  pow_lt_pow_right₀ one_lt_two (by omega)

/-- A bound that is a power of two absorbs half of the last place. -/
theorem within_fl_of_half {x : ℚ} {k : ℕ} (hk : k ≤ 1023)
    (h : |x| ≤ 2 ^ k * (1 + 2 ^ (-53 : ℤ))) : Within k (fl x) := by
  have hnearest := Binary64.abs_nearest_le_two_pow h
  rw [fl, if_neg (not_le.2 (lt_of_le_of_lt hnearest (two_pow_lt hk)))]
  exact hnearest

theorem within_fl {x : ℚ} {k : ℕ} (hk : k ≤ 1023) (h : |x| ≤ 2 ^ k) : Within k (fl x) :=
  within_fl_of_half hk (h.trans (le_mul_of_one_le_right (by positivity) (by norm_num)))

theorem fl_of_large {x : ℚ} (h : 2 ^ 1024 ≤ x) : fl x = .inf false := by
  have hnearest : (2 : ℚ) ^ (1024 : ℤ) ≤ nearest x :=
    Binary64.two_zpow_le_nearest (by norm_num) (by exact_mod_cast h)
  have hpow : (2 : ℚ) ^ 1024 ≤ |nearest x| := by
    rw [← zpow_natCast]
    exact hnearest.trans (le_abs_self _)
  have hpos : ¬ x < 0 := not_lt.2 ((by positivity : (0 : ℚ) ≤ 2 ^ 1024).trans h)
  rw [fl, if_pos hpow, decide_eq_false hpos]

section Bounds

variable {j k : ℕ} {a b : FloatValue}

theorem within_neg (h : Within k a) : Within k (neg a) := by
  obtain ⟨q, rfl, hq⟩ := h.exists_finite
  show |-q| ≤ 2 ^ k
  rwa [abs_neg]

theorem within_add (ha : Within k a) (hb : Within k b) (hk : k + 1 ≤ 1023) :
    Within (k + 1) (add a b) := by
  obtain ⟨p, rfl, hp⟩ := ha.exists_finite
  obtain ⟨q, rfl, hq⟩ := hb.exists_finite
  refine within_fl hk ((abs_add_le p q).trans ?_)
  rw [pow_succ]
  linarith

theorem within_sub (ha : Within k a) (hb : Within k b) (hk : k + 1 ≤ 1023) :
    Within (k + 1) (sub a b) := within_add ha (within_neg hb) hk

theorem within_mul (ha : Within j a) (hb : Within k b) (hk : j + k ≤ 1023) :
    Within (j + k) (mul a b) := by
  obtain ⟨p, rfl, hp⟩ := ha.exists_finite
  obtain ⟨q, rfl, hq⟩ := hb.exists_finite
  refine within_fl hk ?_
  rw [abs_mul, pow_add]
  exact mul_le_mul hp hq (abs_nonneg q) (by positivity)

/-- Division by a number that is not less than one. -/
theorem within_div (ha : Within k a) {d : ℚ} (hd : 1 ≤ d) (hk : k ≤ 1023) :
    Within k (div a (.finite d)) := by
  obtain ⟨p, rfl, hp⟩ := ha.exists_finite
  refine within_fl hk ?_
  rw [abs_div, abs_of_pos (lt_of_lt_of_le one_pos hd)]
  exact (div_le_self (abs_nonneg p) hd).trans hp

/-- A sum of fewer than `2 ^ j` values, none of them above `2 ^ k`.  The partial sums are bounded by
multiples of `2 ^ k`, which are floats. -/
theorem SumOf.bounded {xs : List FloatValue} {v : FloatValue} (h : SumOf xs v)
    (hxs : ∀ x ∈ xs, Within k x) (hlength : xs.length < 2 ^ j) (hj : j ≤ 53) (hk : j + k ≤ 1024) :
    ∃ q, v = .finite q ∧ |q| ≤ xs.length * 2 ^ k := by
  induction h with
  | single x =>
    obtain ⟨q, rfl, hq⟩ := (hxs x (List.mem_singleton_self x)).exists_finite
    exact ⟨q, rfl, by simpa using hq⟩
  | @join xs ys v w hv hw ihv ihw =>
    rw [List.length_append] at hlength ⊢
    obtain ⟨p, rfl, hp⟩ := ihv (fun x hx => hxs x (List.mem_append_left _ hx)) (by omega)
    obtain ⟨q, rfl, hq⟩ := ihw (fun x hx => hxs x (List.mem_append_right _ hx)) (by omega)
    refine fl_bounded (nearest_nat_mul (hlength.trans_le (Nat.pow_le_pow_right two_pos hj)) k) ?_ ?_
    · calc ((xs.length + ys.length : ℕ) : ℚ) * 2 ^ k < 2 ^ j * 2 ^ k :=
          mul_lt_mul_of_pos_right (by exact_mod_cast hlength) (by positivity)
        _ = 2 ^ (j + k) := (pow_add _ _ _).symm
        _ ≤ 2 ^ 1024 := pow_le_pow_right₀ one_le_two hk
    · push_cast
      rw [add_mul]
      exact (abs_add_le p q).trans (add_le_add hp hq)
  | perm h _ ih =>
    rw [← h.length_eq] at hlength ⊢
    exact ih (fun x hx => hxs x (h.mem_iff.1 hx)) hlength

end Bounds

/-! ### Values that are not negative -/

/-- A value that is not negative; infinity is one, and NaN is not. -/
def Nonneg : FloatValue → Prop
  | .finite q => 0 ≤ q
  | .inf negative => negative = false
  | .nan => False

/-- A value that is not negative, or NaN. -/
def NonnegOrNan (v : FloatValue) : Prop := v = .nan ∨ Nonneg v

theorem nonneg_fl {x : ℚ} (h : 0 ≤ x) : Nonneg (fl x) := by
  unfold fl
  split
  · exact decide_eq_false (not_lt.2 h)
  · exact Binary64.nearest_nonneg h

theorem Nonneg.inf_or_finite {v : FloatValue} (h : Nonneg v) :
    v = .inf false ∨ ∃ q, v = .finite q ∧ 0 ≤ q := by
  cases v with
  | finite q => exact .inr ⟨q, rfl, h⟩
  | inf s => exact .inl (congrArg FloatValue.inf h)
  | nan => exact h.elim

theorem nonneg_add {a b : FloatValue} (ha : Nonneg a) (hb : Nonneg b) : Nonneg (add a b) := by
  rcases ha.inf_or_finite with rfl | ⟨p, rfl, hp⟩
  · rcases hb.inf_or_finite with rfl | ⟨q, rfl, -⟩
    · exact rfl
    · exact rfl
  · rcases hb.inf_or_finite with rfl | ⟨q, rfl, hq⟩
    · exact rfl
    · exact nonneg_fl (add_nonneg hp hq)

theorem SumOf.closed {P : FloatValue → Prop} (hadd : ∀ a b, P a → P b → P (add a b))
    {xs : List FloatValue} {v : FloatValue} (h : SumOf xs v) (hxs : ∀ x ∈ xs, P x) : P v := by
  induction h with
  | single x => exact hxs x (List.mem_singleton_self x)
  | join _ _ ihv ihw =>
    exact hadd _ _ (ihv fun x hx => hxs x (List.mem_append_left _ hx))
      (ihw fun x hx => hxs x (List.mem_append_right _ hx))
  | perm h _ ih => exact ih fun x hx => hxs x (h.mem_iff.1 hx)

theorem SumOf.nonneg {xs : List FloatValue} {v : FloatValue} (h : SumOf xs v)
    (hxs : ∀ x ∈ xs, Nonneg x) : Nonneg v := h.closed (fun _ _ => nonneg_add) hxs

theorem add_nan (a : FloatValue) : add a .nan = .nan := by
  cases a <;> rfl

theorem nonnegOrNan_add (a b : FloatValue) (ha : NonnegOrNan a) (hb : NonnegOrNan b) :
    NonnegOrNan (add a b) := by
  rcases ha with rfl | ha
  · exact .inl rfl
  · rcases hb with rfl | hb
    · exact .inl (add_nan a)
    · exact .inr (nonneg_add ha hb)

theorem nonneg_inf_div {q : ℚ} (hq : 0 ≤ q) : Nonneg (div (.inf false) (.finite q)) := by
  show (false != decide (q < 0)) = false
  rw [decide_eq_false (not_lt.2 hq)]
  rfl

theorem nonnegOrNan_div {a b : FloatValue} (ha : NonnegOrNan a) (hb : NonnegOrNan b) :
    NonnegOrNan (div a b) := by
  rcases ha with rfl | ha
  · exact .inl rfl
  · rcases hb with rfl | hb
    · exact .inl (by cases a <;> rfl)
    · rcases ha.inf_or_finite with rfl | ⟨p, rfl, hp⟩
      · rcases hb.inf_or_finite with rfl | ⟨q, rfl, hq⟩
        · exact .inl rfl
        · exact .inr (nonneg_inf_div hq)
      · rcases hb.inf_or_finite with rfl | ⟨q, rfl, hq⟩
        · exact .inr (le_refl (0 : ℚ))
        · exact .inr (nonneg_fl (div_nonneg hp hq))

theorem nonnegOrNan_pyMax_zero (a : FloatValue) : NonnegOrNan (pyMax a (.finite 0)) := by
  unfold pyMax
  split
  · exact .inr le_rfl
  · rename_i hlt
    cases a with
    | finite q =>
      refine .inr (not_lt.1 fun hneg => hlt ?_)
      exact decide_eq_true hneg
    | inf s => exact .inr (Bool.eq_false_iff.2 hlt)
    | nan => exact .inl rfl

/-- One more than a value that is not negative: at least one, or infinite. -/
theorem one_add_cases {a : FloatValue} (ha : Nonneg a) :
    add (.finite 1) a = .inf false ∨ ∃ q, add (.finite 1) a = .finite q ∧ 1 ≤ q := by
  rcases ha.inf_or_finite with rfl | ⟨q, rfl, hq⟩
  · exact .inl rfl
  · have hone : (1 : ℚ) ≤ nearest (1 + q) := by
      have hmono := Binary64.nearest_mono (show 1 ≤ 1 + q by linarith)
      rwa [Binary64.nearest_one] at hmono
    show fl (1 + q) = .inf false ∨ ∃ p, fl (1 + q) = .finite p ∧ 1 ≤ p
    unfold fl
    split
    · left
      rw [decide_eq_false (not_lt.2 (by linarith))]
    · exact .inr ⟨_, rfl, hone⟩

end QuantFlow.FloatValue
