/-
**Numbers written with leading zeros sort as text.**

A number written with a fixed count of decimal digits sorts as text the way it sorts as a number, and
a text made of such fields sorts by the first field that differs, whatever stands between them.  What
follows the fields matters only between texts that agree on all of them.

Main definitions:

* `digits` — a number with a fixed count of digits.

Main results:

* `append_lt_append_iff` — texts are compared by their first parts, if these have one length;
* `block_lt_iff` — places in consecutive blocks are compared by the block first;
* `digits_lt_iff` — **digits sort as the number**;
* `field_lt_iff` — a field decides, or what follows it does.
-/

import Mathlib.Data.List.Lex
import Mathlib.Data.Char
import Mathlib.Algebra.Order.Group.Nat

namespace OrderedText

/-! ### Texts in parts -/

theorem append_lt_append_iff {α : Type} [LinearOrder α] {a b x y : List α}
    (h : a.length = b.length) : a ++ x < b ++ y ↔ a < b ∨ a = b ∧ x < y := by
  induction a generalizing b with
  | nil =>
    obtain rfl : b = [] := List.length_eq_zero_iff.1 h.symm
    simp
  | cons c a ih =>
    obtain ⟨d, b, rfl⟩ := List.exists_cons_of_length_eq_add_one h.symm
    rw [List.cons_append, List.cons_append, List.cons_lt_cons_iff, List.cons_lt_cons_iff,
      ih (Nat.succ.inj h), List.cons.injEq]
    constructor
    · rintro (hlt | ⟨rfl, hlt | ⟨rfl, hlt⟩⟩)
      · exact .inl (.inl hlt)
      · exact .inl (.inr ⟨rfl, hlt⟩)
      · exact .inr ⟨⟨rfl, rfl⟩, hlt⟩
    · rintro ((hlt | ⟨rfl, hlt⟩) | ⟨⟨rfl, rfl⟩, hlt⟩)
      · exact .inl hlt
      · exact .inr ⟨rfl, .inl hlt⟩
      · exact .inr ⟨rfl, .inr ⟨rfl, hlt⟩⟩

/-! ### Consecutive blocks

A line cut into consecutive blocks: block `a` begins at `start a` and is `len a` long. -/

theorem block_lt_iff (start len : ℕ → ℕ) (hstart : ∀ a b, a < b → start a + len a ≤ start b)
    {a b r s : ℕ} (hr : r < len a) (hs : s < len b) :
    start a + r < start b + s ↔ a < b ∨ a = b ∧ r < s := by
  obtain hlt | rfl | hgt := lt_trichotomy a b
  · have hab := hstart a b hlt
    omega
  · omega
  · have hba := hstart b a hgt
    omega

/-- Blocks of one length: the digits of a mixed radix. -/
theorem radix_lt_iff {k a b r s : ℕ} (hr : r < k) (hs : s < k) :
    a * k + r < b * k + s ↔ a < b ∨ a = b ∧ r < s := by
  refine block_lt_iff (fun q => q * k) (fun _ => k) (fun a b hab => ?_) hr hs
  have hsucc : (a + 1) * k ≤ b * k := Nat.mul_le_mul_right k hab
  rwa [Nat.succ_mul] at hsucc

/-! ### Digits -/

/-- The last `w` decimal digits of a number. -/
def digits : ℕ → ℕ → List Char
  | 0, _ => []
  | w + 1, n => Nat.digitChar (n / 10 ^ w) :: digits w (n % 10 ^ w)

@[simp] theorem length_digits (w n : ℕ) : (digits w n).length = w := by
  induction w generalizing n with
  | zero => rfl
  | succ w ih => rw [digits, List.length_cons, ih]

theorem digitChar_lt_iff {m n : ℕ} (hm : m < 10) (hn : n < 10) :
    Nat.digitChar m < Nat.digitChar n ↔ m < n := by
  have hlt : Nat.digitChar m < Nat.digitChar n ↔
      (Nat.digitChar m).toNat < (Nat.digitChar n).toNat := Iff.rfl
  rw [hlt, Nat.toNat_digitChar_of_lt_ten hm, Nat.toNat_digitChar_of_lt_ten hn]
  omega

theorem digitChar_inj_iff {m n : ℕ} (hm : m < 10) (hn : n < 10) :
    Nat.digitChar m = Nat.digitChar n ↔ m = n := by
  constructor
  · intro heq
    have hnat := congrArg Char.toNat heq
    rw [Nat.toNat_digitChar_of_lt_ten hm, Nat.toNat_digitChar_of_lt_ten hn] at hnat
    omega
  · rintro rfl
    rfl

/-- **Digits sort as the number.** -/
theorem digits_lt_iff {w m n : ℕ} (hm : m < 10 ^ w) (hn : n < 10 ^ w) :
    digits w m < digits w n ↔ m < n := by
  induction w generalizing m n with
  | zero =>
    rw [pow_zero] at hm hn
    simp [digits]
    omega
  | succ w ih =>
    have hpos : 0 < 10 ^ w := Nat.pow_pos (by decide)
    have hm' : m / 10 ^ w < 10 := Nat.div_lt_of_lt_mul (by rwa [← pow_succ])
    have hn' : n / 10 ^ w < 10 := Nat.div_lt_of_lt_mul (by rwa [← pow_succ])
    rw [digits, digits, List.cons_lt_cons_iff, digitChar_lt_iff hm' hn', digitChar_inj_iff hm' hn',
      ih (Nat.mod_lt _ hpos) (Nat.mod_lt _ hpos)]
    rw [← radix_lt_iff (Nat.mod_lt m hpos) (Nat.mod_lt n hpos), Nat.div_add_mod', Nat.div_add_mod']

theorem digits_inj_iff {w m n : ℕ} (hm : m < 10 ^ w) (hn : n < 10 ^ w) :
    digits w m = digits w n ↔ m = n := by
  constructor
  · intro heq
    refine Nat.le_antisymm (not_lt.1 fun hlt => ?_) (not_lt.1 fun hlt => ?_)
    · have hdigits := (digits_lt_iff hn hm).2 hlt
      rw [heq] at hdigits
      exact lt_irrefl _ hdigits
    · have hdigits := (digits_lt_iff hm hn).2 hlt
      rw [heq] at hdigits
      exact lt_irrefl _ hdigits
  · rintro rfl
    rfl

/-- **A field decides, or what follows it does.** -/
theorem field_lt_iff {w m n : ℕ} (hm : m < 10 ^ w) (hn : n < 10 ^ w) (x y : List Char) :
    digits w m ++ x < digits w n ++ y ↔ m < n ∨ m = n ∧ x < y := by
  rw [append_lt_append_iff (by simp), digits_lt_iff hm hn, digits_inj_iff hm hn]

end OrderedText
