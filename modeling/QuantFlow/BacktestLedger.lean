/-
**The equity curve is the compounded ledger.**

The loop of `run` compounds the daily returns of the days it enters with a position, and writes a
trade when it leaves one.  The two accounts of the same history agree: without rounding and without
a daily fee, the equity of any day is the product of the round trips completed by then, of the trip
still open, valued at the day's NAV, and of what each order left after its charge.

The ledger here is read from the position series alone: a trip begins on the day the position
becomes one and ends on the day it becomes zero.  The trades of the loop are its records, and the
marks of the result are its orders.

Main definitions:

* `RoundTrip` — a trip from one point to another;
* `Ledger`, `Ledger.enter` — the trips and orders so far, and one more day;
* `ledgerOf` — the ledger of a position series;
* `Tracks`, `Kept` — the loop tells the ledger, and its value.

Main results:

* `tracks_run` — the loop writes the trades of the ledger;
* `kept_run` — without rounding, its equity is the value of the ledger;
* `type_placedMarks` — the marks are the orders of the ledger;
* `equity_eq_ledger` — **the final equity is the compounded ledger**.
-/

import QuantFlow.BacktestFees

namespace QuantFlow

namespace Backtest

variable {N : Numerics}

/-! ### The ledger of a position series -/

/-- A trip from the point of the buy to the point of the sale. -/
structure RoundTrip where
  entry : NavPoint
  exit : NavPoint

/-- What one unit of capital becomes on a trip. -/
def RoundTrip.growth (t : RoundTrip) : ℚ := t.exit.nav / t.entry.nav

/-- The trade that `run` writes for a trip. -/
def RoundTrip.record (N : Numerics) (t : RoundTrip) : Trade :=
  tradeOf N (t.entry.nav, t.entry.date) t.exit.date t.exit.nav

/-- The trips completed, the point at which the open one began, and the orders. -/
structure Ledger where
  closed : List RoundTrip
  opened : Option NavPoint
  orders : List MarkType

def Ledger.empty : Ledger := { closed := [], opened := none, orders := [] }

/-- A day at whose end the position is `holding`. -/
def Ledger.enter (l : Ledger) (day : NavPoint × ℤ) : Ledger :=
  match l.opened with
  | none =>
    if day.2 = 1 then { l with opened := some day.1, orders := l.orders ++ [.buy] } else l
  | some entry =>
    if day.2 = 1 then l
    else { closed := l.closed ++ [⟨entry, day.1⟩], opened := none, orders := l.orders ++ [.sell] }

/-- The ledger of a history and its position series. -/
def ledgerOf (points : List NavPoint) (position : List ℤ) : Ledger :=
  (points.zip position).foldl Ledger.enter .empty

/-- The charge of an order, as a part of the capital. -/
def Fees.charge (fees : Fees) : MarkType → ℚ
  | .buy => fees.oneTime 1
  | .sell => fees.oneTime 0

/-- What the orders leave of one unit of capital. -/
def Fees.left (fees : Fees) (orders : List MarkType) : ℚ :=
  (orders.map fun o => 1 - fees.charge o).prod

/-- The compounded ledger, with the open trip valued at `nav`. -/
def Ledger.value (l : Ledger) (fees : Fees) (nav : ℚ) : ℚ :=
  (l.closed.map RoundTrip.growth).prod * (l.opened.elim 1 fun entry => nav / entry.nav) *
    fees.left l.orders

@[simp] theorem Fees.left_concat (fees : Fees) (orders : List MarkType) (o : MarkType) :
    fees.left (orders ++ [o]) = fees.left orders * (1 - fees.charge o) := by
  simp [Fees.left]

/-! ### The loop tracks the ledger -/

/-- The state of the loop tells the ledger: the position, the entry and the trades. -/
structure Tracks (N : Numerics) (l : Ledger) (s : LoopState) : Prop where
  holding : s.holding = if l.opened.isSome then 1 else 0
  entry : s.entry = l.opened.map fun p => (p.nav, p.date)
  positive : ∀ p ∈ l.opened, 0 < p.nav
  trades : s.trades = l.closed.map (RoundTrip.record N)

theorem tracks_init : Tracks N .empty LoopState.init := by
  refine ⟨rfl, rfl, ?_, rfl⟩
  intro p hp
  cases hp

section Tracks

variable {fees : Fees} {closed : List RoundTrip} {orders : List MarkType} {s : LoopState}
  {p q entry : NavPoint}

/-- A day on which the target is the position only moves the equity. -/
theorem tracks_same {l : Ledger} {target : ℤ} (h : Tracks N l s) (hsame : s.holding = target) :
    Tracks N l (dayStep N fees s (target, p, q)) := by
  simp only [dayStep, hsame, if_true]
  exact ⟨hsame ▸ h.holding, h.entry, h.positive, h.trades⟩

theorem tracks_buy (hq : 0 < q.nav) (h : Tracks N ⟨closed, none, orders⟩ s) :
    Tracks N ⟨closed, some q, orders ++ [.buy]⟩ (dayStep N fees s (1, p, q)) := by
  have hholding : s.holding = 0 := h.holding
  have hbuys : ¬ (1 : ℤ) = s.holding := by rw [hholding]; decide
  refine ⟨?_, ?_, ?_, ?_⟩
  · simp [dayStep, hholding]
  · simp [dayStep, hholding]
  · intro p' hp'
    cases hp'
    exact hq
  · simp only [dayStep, if_neg hbuys, if_true]
    exact h.trades

/-- A sale at the NAV of the day: the entry is not zero, so the loop writes the trade. -/
theorem tracks_sell (h : Tracks N ⟨closed, some entry, orders⟩ s) :
    Tracks N ⟨closed ++ [⟨entry, q⟩], none, orders ++ [.sell]⟩ (dayStep N fees s (0, p, q)) := by
  have hholding : s.holding = 1 := h.holding
  have hne : entry.nav ≠ 0 := ne_of_gt (h.positive entry rfl)
  have hentry : s.entry = some (entry.nav, entry.date) := h.entry
  refine ⟨?_, ?_, ?_, ?_⟩
  · simp [dayStep, hholding]
  · simp [dayStep, hholding]
  · intro p' hp'
    cases hp'
  · simp [dayStep, hholding, openEntry, hentry, hne, h.trades, RoundTrip.record]

/-- **One day tracks the ledger**, whatever the fees and the rounding. -/
theorem tracks_dayStep {l : Ledger} {target : ℤ} (h : Tracks N l s)
    (htarget : target = 0 ∨ target = 1) (hq : 0 < q.nav) :
    Tracks N (l.enter (q, target)) (dayStep N fees s (target, p, q)) := by
  obtain ⟨closed, opened, orders⟩ := l
  cases opened with
  | none =>
    rcases htarget with rfl | rfl
    · exact tracks_same h h.holding
    · exact tracks_buy hq h
  | some entry =>
    rcases htarget with rfl | rfl
    · exact tracks_sell h
    · exact tracks_same h h.holding

end Tracks

/-- What each day keeps of a ledger, a point and a state, all days keep.  The induction is on the
points that follow `p`. -/
theorem foldl_days_induction {fees : Fees} {P : Ledger → NavPoint → LoopState → Prop}
    (hstep : ∀ l p s q target, P l p s → target = 0 ∨ target = 1 → 0 < p.nav → 0 < q.nav →
      P (l.enter (q, target)) q (dayStep N fees s (target, p, q)))
    {rest : List NavPoint} {raw : List ℤ} (hlen : rest.length ≤ raw.length)
    (hraw : ∀ x ∈ raw, x = 0 ∨ x = 1) (hrest : ∀ q ∈ rest, 0 < q.nav) {p : NavPoint}
    (hp : 0 < p.nav) {l : Ledger} {s : LoopState} (h : P l p s) :
    P ((rest.zip raw).foldl Ledger.enter l) (rest.getLastD p)
      ((days raw (p :: rest)).foldl (dayStep N fees) s) := by
  induction rest generalizing raw p l s with
  | nil => simpa [days] using h
  | cons q rest ih =>
    cases raw with
    | nil => simp at hlen
    | cons target raw =>
      have hq : 0 < q.nav := hrest q List.mem_cons_self
      have hday := hstep l p s q target h (hraw target List.mem_cons_self) hp hq
      have hlater := ih (Nat.le_of_succ_le_succ hlen)
        (fun x hx => hraw x (List.mem_cons_of_mem _ hx))
        (fun q' hq' => hrest q' (List.mem_cons_of_mem _ hq')) hq hday
      rw [List.getLastD_cons]
      exact hlater

/-! ### The loop keeps the ledger -/

/-- The state of the loop tells the ledger: the position, the entry, the trades and the equity at
the NAV of the day. -/
structure Kept (N : Numerics) (fees : Fees) (l : Ledger) (nav : ℚ) (s : LoopState) : Prop where
  holding : s.holding = if l.opened.isSome then 1 else 0
  entry : s.entry = l.opened.map fun p => (p.nav, p.date)
  positive : ∀ p ∈ l.opened, 0 < p.nav
  trades : s.trades = l.closed.map (RoundTrip.record N)
  equity : s.equity = l.value fees nav

theorem Kept.tracks {fees : Fees} {l : Ledger} {nav : ℚ} {s : LoopState}
    (h : Kept N fees l nav s) : Tracks N l s :=
  ⟨h.holding, h.entry, h.positive, h.trades⟩

theorem Tracks.kept {fees : Fees} {l : Ledger} {nav : ℚ} {s : LoopState} (h : Tracks N l s)
    (hequity : s.equity = l.value fees nav) : Kept N fees l nav s :=
  ⟨h.holding, h.entry, h.positive, h.trades, hequity⟩

theorem kept_init (fees : Fees) (nav : ℚ) : Kept N fees .empty nav LoopState.init := by
  refine tracks_init.kept ?_
  simp [Ledger.value, Ledger.empty, Fees.left, LoopState.init]

section Day

variable {fees : Fees} {s : LoopState} {p q : NavPoint}

/-- The equity after a day, without rounding and without a daily fee. -/
theorem equity_dayStep (hround : ∀ x, N.round 6 x = x) (hfees : fees.managementFee ≤ 0)
    (target : ℤ) :
    (dayStep N fees s (target, p, q)).equity =
      s.equity * (1 + (q.nav / p.nav - 1) * s.holding) *
        if target = s.holding then 1 else 1 - fees.oneTime target := by
  rw [dayStep_equity, hround, Fees.daily_eq_zero hfees, sub_zero, mul_one]

/-- The value of the ledger moves as the equity does: with the NAV while a trip is open, and by the
charge of each order.  A sale moves the growth of the trip from the open factor to the closed
ones. -/
theorem value_enter {l : Ledger} {target : ℤ} (htarget : target = 0 ∨ target = 1)
    (hp : 0 < p.nav) (hq : 0 < q.nav) :
    (l.enter (q, target)).value fees q.nav =
      l.value fees p.nav * (1 + (q.nav / p.nav - 1) * (if l.opened.isSome then 1 else 0)) *
        if target = (if l.opened.isSome then 1 else 0) then 1 else 1 - fees.oneTime target := by
  obtain ⟨closed, opened, orders⟩ := l
  have hpne : p.nav ≠ 0 := ne_of_gt hp
  have hqne : q.nav ≠ 0 := ne_of_gt hq
  cases opened with
  | none =>
    rcases htarget with rfl | rfl
    · simp [Ledger.enter, Ledger.value]
    · simp [Ledger.enter, Ledger.value, Fees.charge, hqne]
      ring
  | some entry =>
    rcases htarget with rfl | rfl
    · simp only [Ledger.enter, Ledger.value, Option.elim, Option.isSome_some, if_true, mul_one,
        List.map_append, List.map_cons, List.map_nil, List.prod_append, List.prod_cons,
        List.prod_nil, RoundTrip.growth, Fees.left_concat, Fees.charge, zero_ne_one, if_false]
      field_simp
      ring
    · simp only [Ledger.enter, Ledger.value, Option.elim, Option.isSome_some, if_true, mul_one]
      field_simp
      ring

/-- **One day keeps the ledger.** -/
theorem kept_dayStep (hround : ∀ x, N.round 6 x = x) (hfees : fees.managementFee ≤ 0)
    {l : Ledger} {target : ℤ} (h : Kept N fees l p.nav s) (htarget : target = 0 ∨ target = 1)
    (hp : 0 < p.nav) (hq : 0 < q.nav) :
    Kept N fees (l.enter (q, target)) q.nav (dayStep N fees s (target, p, q)) := by
  refine (tracks_dayStep h.tracks htarget hq).kept ?_
  rw [equity_dayStep hround hfees, value_enter htarget hp hq, h.equity, h.holding]
  push_cast
  rfl

end Day

/-! ### The marks are the orders -/

/-- The mark of an order executed at the point `p`. -/
def markOf (N : Numerics) (p : NavPoint) (type : MarkType) : Mark :=
  { date := p.date, nav := N.round 4 p.nav, type := type }

/-- The mark of a day does not depend on how many days came before. -/
theorem markAt_succ (p : NavPoint) (h : ℤ) (points : List NavPoint) (position : List ℤ) {i : ℕ}
    (hi : 1 ≤ i) :
    (markAt N (p :: points) (h :: position) (i + 1)).map Prod.snd =
      (markAt N points position i).map Prod.snd := by
  obtain ⟨j, rfl⟩ : ∃ j, i = j + 1 := ⟨i - 1, by omega⟩
  simp only [markAt, List.getElem?_cons_succ, Nat.add_sub_cancel]
  split
  · split_ifs <;> rfl
  · rfl

/-- The type of the mark on the second day, if there is one. -/
def orderOf (before after : ℤ) : List MarkType :=
  if after = before then [] else [if after = 1 then .buy else .sell]

theorem placedMarks_cons (p q : NavPoint) (rest : List NavPoint) (h k : ℤ) (position : List ℤ) :
    (placedMarks N (p :: q :: rest) (h :: k :: position)).map Prod.snd =
      (orderOf h k).map (markOf N q) ++
        (placedMarks N (q :: rest) (k :: position)).map Prod.snd := by
  simp only [placedMarks, List.length_cons, Nat.add_sub_cancel, List.map_filterMap]
  rw [List.range'_succ, List.filterMap_cons, List.range'_succ_left, List.filterMap_map]
  have hlater : List.filterMap ((fun i => (markAt N (p :: q :: rest) (h :: k :: position) i).map
      Prod.snd) ∘ (· + 1)) (List.range' 1 rest.length) =
      List.filterMap (fun i => (markAt N (q :: rest) (k :: position) i).map Prod.snd)
        (List.range' 1 rest.length) := by
    refine List.filterMap_congr ?_
    intro i hi
    exact markAt_succ p h (q :: rest) (k :: position) (List.mem_range'_1.1 hi).1
  rw [hlater]
  by_cases hkh : k = h
  · simp [markAt, orderOf, hkh]
  · simp [markAt, orderOf, hkh, markOf]

/-- The ledger is open exactly while the position is held. -/
theorem opened_enter (l : Ledger) (q : NavPoint) {k : ℤ} (hk : k = 0 ∨ k = 1) :
    k = if (l.enter (q, k)).opened.isSome then 1 else 0 := by
  obtain ⟨closed, opened, orders⟩ := l
  cases opened with
  | none => rcases hk with rfl | rfl <;> rfl
  | some entry => rcases hk with rfl | rfl <;> rfl

/-- **What a day adds to a reading of the ledger by its order, a run adds by its marks**, from any day
on. -/
theorem read_foldl_enter {β : Type} (read : Ledger → List β) (g : Mark → β)
    (henter : ∀ (l : Ledger) (q : NavPoint) (k : ℤ), k = 0 ∨ k = 1 →
      read (l.enter (q, k)) =
        read l ++ ((orderOf (if l.opened.isSome then 1 else 0) k).map (markOf N q)).map g)
    {p : NavPoint} {rest : List NavPoint} {h : ℤ} {position : List ℤ}
    (hlen : position.length = rest.length) (hposition : ∀ k ∈ position, k = 0 ∨ k = 1)
    {l : Ledger} (hl : h = if l.opened.isSome then 1 else 0) :
    read ((rest.zip position).foldl Ledger.enter l) =
      read l ++ ((placedMarks N (p :: rest) (h :: position)).map Prod.snd).map g := by
  induction rest generalizing p h position l with
  | nil => simp [placedMarks]
  | cons q rest ih =>
    cases position with
    | nil => simp at hlen
    | cons k position =>
      have hk := hposition k List.mem_cons_self
      rw [placedMarks_cons, List.map_append, List.zip_cons_cons, List.foldl_cons,
        ih (by simpa using hlen) (fun k' hk' => hposition k' (List.mem_cons_of_mem _ hk'))
          (opened_enter l q hk), henter l q k hk, ← hl, List.append_assoc]

theorem orders_enter (l : Ledger) (q : NavPoint) (k : ℤ) (hk : k = 0 ∨ k = 1) :
    (l.enter (q, k)).orders =
      l.orders ++ ((orderOf (if l.opened.isSome then 1 else 0) k).map (markOf N q)).map Mark.type := by
  have htypes (orders : List MarkType) : (orders.map (markOf N q)).map Mark.type = orders := by
    rw [List.map_map]
    exact List.map_id _
  rw [htypes]
  obtain ⟨closed, opened, orders⟩ := l
  cases opened with
  | none | some entry => rcases hk with rfl | rfl <;> simp [Ledger.enter, orderOf]

/-- **The marks are the orders of the ledger**, from any day on. -/
theorem type_placedMarks {p : NavPoint} {rest : List NavPoint} {h : ℤ} {position : List ℤ}
    (hlen : position.length = rest.length) (hposition : ∀ k ∈ position, k = 0 ∨ k = 1)
    {l : Ledger} (hl : h = if l.opened.isSome then 1 else 0) :
    ((rest.zip position).foldl Ledger.enter l).orders =
      l.orders ++ (placedMarks N (p :: rest) (h :: position)).map fun m => m.2.type := by
  rw [read_foldl_enter Ledger.orders Mark.type (orders_enter (N := N)) hlen hposition hl, List.map_map]
  rfl

/-! ### The result of a run -/

/-- The trades of a ledger, the open one at the end. -/
def Ledger.trades (N : Numerics) (l : Ledger) (nav : ℚ) : List Trade :=
  l.closed.map (RoundTrip.record N) ++
    (l.opened.map fun p => tradeOf N (p.nav, p.date) "持仓中" nav).toList

/-- The open trade of the loop is that of the ledger. -/
theorem Tracks.openTrade_eq {l : Ledger} {s : LoopState} (h : Tracks N l s) (last : ℚ) :
    openTrade N s last = l.opened.map fun p => tradeOf N (p.nav, p.date) "持仓中" last := by
  unfold openTrade openEntry
  cases hl : l.opened with
  | none =>
    have hholding : s.holding = 0 := by rw [h.holding, hl]; rfl
    rw [hholding, if_neg (by decide)]
    rfl
  | some p =>
    have hholding : s.holding = 1 := by rw [h.holding, hl]; rfl
    have hne : p.nav ≠ 0 := ne_of_gt (h.positive p hl)
    rw [hholding, if_pos rfl, h.entry, hl]
    simp [hne]

theorem Tracks.trades_eq {l : Ledger} {s : LoopState} (h : Tracks N l s) (last : ℚ) :
    s.trades ++ (openTrade N s last).toList = l.trades N last := by
  rw [h.openTrade_eq, h.trades, Ledger.trades]

theorem getLast?_states (fees : Fees) (raw : List ℤ) (points : List NavPoint) :
    (states N fees raw points).getLast? =
      some ((days raw points).foldl (dayStep N fees) LoopState.init) := by
  rw [states, List.getLast?_scanl]

theorem getLastD_states (fees : Fees) (raw : List ℤ) (points : List NavPoint) :
    (states N fees raw points).getLastD LoopState.init =
      (days raw points).foldl (dayStep N fees) LoopState.init := by
  rw [List.getLastD_eq_getLast?, getLast?_states]
  rfl

theorem ledgerOf_shifted {p : NavPoint} {rest : List NavPoint} {raw : List ℤ}
    (hlen : raw.length = rest.length + 1) :
    ledgerOf (p :: rest) (0 :: raw.dropLast) = (rest.zip raw).foldl Ledger.enter .empty := by
  have hzip : rest.zip raw.dropLast = rest.zip raw := by
    conv_rhs => rw [List.zip_eq_zip_take_min]
    simp [hlen, List.dropLast_eq_take]
  rw [ledgerOf, List.zip_cons_cons, List.foldl_cons, hzip]
  rfl

/-- What each day keeps, the loop of a run keeps of the ledger of its position series. -/
theorem loop_induction (fees : Fees) {P : Ledger → NavPoint → LoopState → Prop}
    (hinit : ∀ p, P .empty p LoopState.init)
    (hstep : ∀ l p s q target, P l p s → target = 0 ∨ target = 1 → 0 < p.nav → 0 < q.nav →
      P (l.enter (q, target)) q (dayStep N fees s (target, p, q)))
    {points : List NavPoint} (hne : points ≠ []) (hpos : ∀ p ∈ points, 0 < p.nav)
    (strategy : Strategy) (short long : ℤ) :
    let raw := rawPos N strategy (navsOf points) short long
    ∃ last, last.nav = (navsOf points).getLastD 0 ∧
      P (ledgerOf points (0 :: raw.dropLast)) last
        ((days raw points).foldl (dayStep N fees) LoopState.init) := by
  intro raw
  have hraw := signal_zero_or_one N strategy (navsOf points) short long
  have hlen : raw.length = points.length := by simp [raw, navsOf]
  cases points with
  | nil => exact absurd rfl hne
  | cons p rest =>
    have hp : 0 < p.nav := hpos p List.mem_cons_self
    have hlast : (navsOf (p :: rest)).getLastD 0 = (rest.getLastD p).nav := by
      rw [navsOf, List.map_cons, List.getLastD_cons, List.getLastD_eq_getLast?,
        List.getLastD_eq_getLast?, List.getLast?_map]
      cases rest.getLast? with
      | none => rfl
      | some q => rfl
    have hlonger : rest.length ≤ raw.length := by
      rw [hlen, List.length_cons]
      exact Nat.le_succ _
    refine ⟨rest.getLastD p, hlast.symm, ?_⟩
    rw [ledgerOf_shifted hlen]
    exact foldl_days_induction hstep hlonger hraw
      (fun q hq => hpos q (List.mem_cons_of_mem _ hq)) hp (hinit p)

/-- The loop of a run tracks the ledger of its position series. -/
theorem tracks_run {points : List NavPoint} (hne : points ≠ []) (hpos : ∀ p ∈ points, 0 < p.nav)
    (strategy : Strategy) (short long : ℤ) (fees : Fees) :
    let raw := rawPos N strategy (navsOf points) short long
    Tracks N (ledgerOf points (0 :: raw.dropLast))
      ((days raw points).foldl (dayStep N fees) LoopState.init) := by
  obtain ⟨-, -, htracks⟩ := loop_induction (N := N) fees (P := fun l _ s => Tracks N l s)
    (fun _ => tracks_init) (fun _ _ _ _ _ h htarget _ hq => tracks_dayStep h htarget hq) hne hpos
    strategy short long
  exact htracks

/-- The loop of a run keeps the ledger of its position series. -/
theorem kept_run (hround : ∀ x, N.round 6 x = x) {points : List NavPoint} (hne : points ≠ [])
    (hpos : ∀ p ∈ points, 0 < p.nav) (strategy : Strategy) (short long : ℤ) {fees : Fees}
    (hfees : fees.managementFee ≤ 0) :
    let raw := rawPos N strategy (navsOf points) short long
    Kept N fees (ledgerOf points (0 :: raw.dropLast)) ((navsOf points).getLastD 0)
      ((days raw points).foldl (dayStep N fees) LoopState.init) := by
  obtain ⟨last, hlast, hkept⟩ := loop_induction (N := N) fees
    (P := fun l p s => Kept N fees l p.nav s) (fun p => kept_init fees p.nav)
    (fun _ _ _ _ _ h htarget hp hq => kept_dayStep hround hfees h htarget hp hq) hne hpos strategy
    short long
  rw [← hlast]
  exact hkept

/-- **The final equity is the compounded ledger**: the growth of every completed trip and of the
open one, and what is left after the charge of every order.  The trips are those the trades record,
and the orders those the marks show. -/
theorem equity_eq_ledger (hround : ∀ x, N.round 6 x = x) {points : List NavPoint}
    (hlen : 5 ≤ points.length) (hpos : ∀ p ∈ points, 0 < p.nav) (strategy : Strategy)
    (short long : ℤ) {fees : Fees} (hfees : fees.managementFee ≤ 0) :
    ∃ r, run N points strategy short long fees = .ok r ∧
      let ledger := ledgerOf points r.position
      let last := (navsOf points).getLastD 0
      r.equity.getLast? = some ((ledger.closed.map RoundTrip.growth).prod *
        (ledger.opened.elim 1 fun entry => last / entry.nav) *
          (r.marks.map fun m => 1 - fees.charge m.type).prod) ∧
      r.trades = (ledger.trades N last).drop ((ledger.trades N last).length - 30) ∧
      r.stats.tradeCount = (ledger.trades N last).length := by
  refine ⟨_, run_eq_ok N hlen hpos strategy short long fees, ?_⟩
  have hne : points ≠ [] := by rintro rfl; simp at hlen
  have hkept := kept_run hround hne hpos strategy (clampShort short)
    (clampLong (clampShort short) long) hfees
  have hraw := signal_zero_or_one N strategy (navsOf points) (clampShort short)
    (clampLong (clampShort short) long)
  have hlength := length_rawPos N strategy (navsOf points) (clampShort short)
    (clampLong (clampShort short) long)
  simp only [withGross, runOnce, position_eq]
  generalize rawPos N strategy (navsOf points) (clampShort short)
    (clampLong (clampShort short) long) = raw at hkept hraw hlength ⊢
  have htrades := hkept.tracks.trades_eq ((navsOf points).getLastD 0)
  rw [getLastD_states, htrades]
  refine ⟨?_, rfl, ?_⟩
  -- the orders of the ledger are the marks, so both are charged alike
  · have horders : (ledgerOf points (0 :: raw.dropLast)).orders =
        (placedMarks N points (0 :: raw.dropLast)).map fun m => m.2.type := by
      cases points with
      | nil => exact absurd rfl hne
      | cons p rest =>
        have hshort : raw.dropLast.length = rest.length := by
          simp [hlength, navsOf]
        exact type_placedMarks hshort
          (fun k hk => hraw k (List.dropLast_subset _ hk)) rfl
    rw [List.getLast?_map, getLast?_states, Option.map_some, hkept.equity, Ledger.value, Fees.left,
      horders, List.map_map, List.map_map]
    rfl
  · rw [← List.length_append, htrades]

theorem equity_eq_ledger_fiveDays :
    ∃ r, run .unrounded (fiveDays 1) .momentum 2 20 {} = .ok r ∧
      let ledger := ledgerOf (fiveDays 1) r.position
      r.equity.getLast? = some ((ledger.closed.map RoundTrip.growth).prod *
        (ledger.opened.elim 1 fun entry => 1 / entry.nav) *
          (r.marks.map fun m => 1 - ({} : Fees).charge m.type).prod) ∧
      r.trades = (ledger.trades .unrounded 1).drop ((ledger.trades .unrounded 1).length - 30) ∧
      r.stats.tradeCount = (ledger.trades .unrounded 1).length :=
  equity_eq_ledger (fun _ => rfl) (by decide) (by decide +kernel) .momentum 2 20
    (by decide +kernel)

end Backtest

end QuantFlow
