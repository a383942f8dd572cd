/-
**Accounts that trade at the market price.**

An account holds a number of units and remembers what was paid for them.  A trade at a price `p`
that moves `q` units moves the cost by `q * p`, so it changes the value at that price and the cost
alike; between two trades the holding is constant and only the price moves.  What the account has
earned at the end is therefore what the market has paid on the units it held: the sum, over the
trades, of the holding after the trade times the way the price makes until the next one.

The account is any state with a holding and a cost that a step changes; prices and amounts are
elements of any commutative ring.

Main definitions:

* `FairStep` — a step that changes value and cost alike;
* `gains` — what the market pays on a series of holdings.

Main results:

* `profit_foldl` — **the profit of a run of fair steps is the gain of its holdings**;
* `foldl_prefix_induction` — a loop invariant that knows the steps already made.
-/

import Mathlib.Algebra.Ring.Basic
import Mathlib.Algebra.BigOperators.Group.List.Basic
import Mathlib.Tactic.Ring
import Mathlib.Tactic.LinearCombination

namespace SelfFinancing

variable {S A K : Type*}

/-! ### Loops -/

/-- An invariant indexed by the steps already made holds at the end of the loop. -/
theorem foldl_prefix_induction {f : S → A → S} {I : List A → S → Prop} {s : S} {as : List A}
    (base : I [] s)
    (step : ∀ pre a post t, as = pre ++ a :: post → I pre t → I (pre ++ [a]) (f t a)) :
    I as (as.foldl f s) := by
  suffices rest : ∀ post pre t, as = pre ++ post → I pre t → I as (post.foldl f t) from
    rest as [] s rfl base
  intro post
  induction post with
  | nil =>
    intro pre t hpre ht
    rw [hpre, List.append_nil]
    exact ht
  | cons a post ih =>
    intro pre t hpre ht
    exact ih (pre ++ [a]) (f t a) (by rw [hpre, List.append_assoc, List.singleton_append])
      (step pre a post t hpre ht)

/-! ### Holdings -/

section Holdings

variable (f : S → A → S) (held : S → K)

/-- The holdings after each step. -/
def holdings (s : S) (as : List A) : List K := (as.scanl f s).tail.map held

@[simp] theorem holdings_nil (s : S) : holdings f held s ([] : List A) = [] := rfl

@[simp] theorem holdings_cons (s : S) (a : A) (as : List A) :
    holdings f held s (a :: as) = held (f s a) :: holdings f held (f s a) as := by
  cases as with
  | nil => rfl
  | cons b bs => simp [holdings]

end Holdings

/-! ### Fair steps -/

section Ring

variable [CommRing K] (f : S → A → S) (price : A → K) (held cost : S → K)

/-- At the price of the step, value and cost change alike. -/
def FairStep (s : S) (a : A) : Prop :=
  held (f s a) * price a - cost (f s a) = held s * price a - cost s

/-- The sum of `h k * (p (k + 1) - p k)`, where the price after the last one is `last`. -/
def gains : List K → List K → K → K
  | h :: hs, p :: ps, last => h * (ps.headD last - p) + gains hs ps last
  | _, _, _ => 0

@[simp] theorem gains_nil (ps : List K) (last : K) : gains [] ps last = 0 := by
  simp [gains]

@[simp] theorem gains_cons (h p last : K) (hs ps : List K) :
    gains (h :: hs) (p :: ps) last = h * (ps.headD last - p) + gains hs ps last := rfl

variable {f price held cost}

/-- **The profit of a run of fair steps**, valued at any last price, is what was there at the first
price and the gain of the holdings. -/
theorem profit_foldl {as : List A} (fair : ∀ s, ∀ a ∈ as, FairStep f price held cost s a) (s : S)
    (last : K) :
    held (as.foldl f s) * last - cost (as.foldl f s) =
      held s * (as.map price).headD last - cost s +
        gains (holdings f held s as) (as.map price) last := by
  induction as generalizing s with
  | nil => simp
  | cons a as ih =>
    have hrest := ih (fun t b hb => fair t b (List.mem_cons_of_mem a hb)) (f s a)
    have hfair : held (f s a) * price a - cost (f s a) = held s * price a - cost s :=
      fair s a List.mem_cons_self
    rw [List.foldl_cons, hrest, holdings_cons, List.map_cons, gains_cons, List.headD_cons]
    linear_combination hfair

end Ring

end SelfFinancing
