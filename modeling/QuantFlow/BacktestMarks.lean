/-
**Trades, marks and positions tell one story.**

Three outputs of `run` report the same orders.  The loop writes a trade when it leaves a position,
with the entry it has carried since it took it; the trade still open is written after the loop; and
the marks are found afterwards, by comparing neighbouring entries of the position series.

All three are read from the ledger of the position series (`ledgerOf`).  A trip
of the ledger is a trade, and it is a buy mark followed by a sell mark; the trip still open is the
open trade, and one more buy mark.

Main definitions:

* `Alternate` — marks of alternating types;
* `marksOf` — the marks of one type, in order;
* `loopEnd` — the loop after the last day;
* `Ledger.marks` — the marks of a ledger.

Main results:

* `marks_foldl` — the marks of a run are those of its ledger;
* `trades_match_marks` — **the `k`-th trade is made of the `k`-th buy mark and the
  `k`-th sell mark, and the marks alternate**.
-/

import QuantFlow.BacktestLedger

namespace QuantFlow

namespace Backtest

variable {N : Numerics}

/-! ### Marks -/

/-- The order that follows. -/
def MarkType.other : MarkType → MarkType
  | .buy => .sell
  | .sell => .buy

/-- Marks of alternating types, the first of type `type`. -/
def Alternate : MarkType → List Mark → Prop
  | _, [] => True
  | type, m :: ms => m.type = type ∧ Alternate type.other ms

/-- The marks of one type, in order. -/
def marksOf (type : MarkType) (marks : List Mark) : List Mark :=
  marks.filter fun m => m.type = type

/-- The marks of a trip: where it begins and where it ends. -/
def RoundTrip.marks (N : Numerics) (t : RoundTrip) : List Mark :=
  [markOf N t.entry .buy, markOf N t.exit .sell]

/-- The marks of a ledger. -/
def Ledger.marks (N : Numerics) (l : Ledger) : List Mark :=
  l.closed.flatMap (RoundTrip.marks N) ++ (l.opened.map (markOf N · .buy)).toList

theorem alternate_marks (l : Ledger) : Alternate .buy (l.marks N) := by
  have hclosed : ∀ (trips : List RoundTrip) (ms : List Mark), Alternate .buy ms →
      Alternate .buy (trips.flatMap (RoundTrip.marks N) ++ ms) := by
    intro trips ms hms
    induction trips with
    | nil => exact hms
    | cons t trips ih => exact ⟨rfl, rfl, ih⟩
  refine hclosed l.closed _ ?_
  cases l.opened with
  | none => trivial
  | some p => exact ⟨rfl, trivial⟩

theorem marksOf_append (type : MarkType) (xs ys : List Mark) :
    marksOf type (xs ++ ys) = marksOf type xs ++ marksOf type ys := List.filter_append ..

theorem marksOf_flatMap (trips : List RoundTrip) :
    marksOf .buy (trips.flatMap (RoundTrip.marks N)) =
        trips.map (fun t => markOf N t.entry .buy) ∧
      marksOf .sell (trips.flatMap (RoundTrip.marks N)) =
        trips.map fun t => markOf N t.exit .sell := by
  induction trips with
  | nil => exact ⟨rfl, rfl⟩
  | cons t trips ih =>
    rw [List.map_cons, List.map_cons, ← ih.1, ← ih.2]
    exact ⟨rfl, rfl⟩

theorem marksOf_buy (l : Ledger) :
    marksOf .buy (l.marks N) =
      l.closed.map (fun t => markOf N t.entry .buy) ++
        (l.opened.map (markOf N · .buy)).toList := by
  rw [Ledger.marks, marksOf_append, (marksOf_flatMap l.closed).1]
  cases l.opened with
  | none => rfl
  | some p => rfl

theorem marksOf_sell (l : Ledger) :
    marksOf .sell (l.marks N) = l.closed.map fun t => markOf N t.exit .sell := by
  rw [Ledger.marks, marksOf_append, (marksOf_flatMap l.closed).2]
  cases l.opened with
  | none => exact List.append_nil _
  | some p => exact List.append_nil _

/-- The entries of the trades of a ledger are its buy marks. -/
theorem entries_trades (l : Ledger) (last : ℚ) :
    (l.trades N last).map (fun t => (t.entryDate, t.entryNav)) =
      (marksOf .buy (l.marks N)).map fun m => (m.date, m.nav) := by
  rw [marksOf_buy, Ledger.trades, List.map_append, List.map_append, List.map_map, List.map_map]
  congr 1
  cases l.opened with
  | none => rfl
  | some p => rfl

/-- The exits of its completed trips are its sell marks. -/
theorem exits_closed (l : Ledger) :
    (l.closed.map (RoundTrip.record N)).map (fun t => (t.exitDate, t.exitNav)) =
      (marksOf .sell (l.marks N)).map fun m => (m.date, m.nav) := by
  rw [marksOf_sell, List.map_map, List.map_map]
  rfl

/-! ### The marks of a run -/

/-- A day adds its order to the marks of the ledger. -/
theorem marks_enter (l : Ledger) (q : NavPoint) {k : ℤ} (hk : k = 0 ∨ k = 1) :
    (l.enter (q, k)).marks N =
      l.marks N ++ (orderOf (if l.opened.isSome then 1 else 0) k).map (markOf N q) := by
  obtain ⟨closed, opened, orders⟩ := l
  cases opened with
  | none =>
    rcases hk with rfl | rfl
    · simp [Ledger.enter, orderOf]
    · simp [Ledger.enter, orderOf, Ledger.marks]
  | some entry =>
    rcases hk with rfl | rfl
    · simp [Ledger.enter, orderOf, Ledger.marks, RoundTrip.marks]
    · simp [Ledger.enter, orderOf]

/-- **The marks of a run are those of its ledger**, from any day on. -/
theorem marks_foldl {p : NavPoint} {rest : List NavPoint} {h : ℤ} {position : List ℤ}
    (hlen : position.length = rest.length) (hposition : ∀ k ∈ position, k = 0 ∨ k = 1)
    {l : Ledger} (hl : h = if l.opened.isSome then 1 else 0) :
    ((rest.zip position).foldl Ledger.enter l).marks N =
      l.marks N ++ (placedMarks N (p :: rest) (h :: position)).map Prod.snd := by
  have hread := read_foldl_enter (Ledger.marks N) id (fun l q k hk => by
    rw [marks_enter l q hk, List.map_id]) (p := p) hlen hposition hl
  rwa [List.map_id] at hread

/-! ### The sequence of trades -/

/-- The loop after the last day. -/
def loopEnd (N : Numerics) (points : List NavPoint) (strategy : Strategy) (short long : ℤ)
    (fees : Fees) : LoopState :=
  (states N fees (rawPos N strategy (navsOf points) (clampShort short)
    (clampLong (clampShort short) long)) points).getLastD LoopState.init

section Run

variable {points : List NavPoint} (strategy : Strategy) (short long : ℤ) (fees : Fees)

/-- The loop ends with the trades of the ledger of the position series. -/
theorem tracks_loopEnd (hne : points ≠ []) (hpos : ∀ p ∈ points, 0 < p.nav) :
    Tracks N (ledgerOf points (runOnce N points strategy short long fees).position)
      (loopEnd N points strategy short long fees) := by
  have htracks := tracks_run (N := N) hne hpos strategy (clampShort short)
    (clampLong (clampShort short) long) fees
  rw [loopEnd, getLastD_states]
  simp only [runOnce, position_eq]
  exact htracks

theorem marks_runOnce (hne : points ≠ []) :
    (runOnce N points strategy short long fees).marks =
      (ledgerOf points (runOnce N points strategy short long fees).position).marks N := by
  have hraw := signal_zero_or_one N strategy (navsOf points) (clampShort short)
    (clampLong (clampShort short) long)
  have hlength := length_rawPos N strategy (navsOf points) (clampShort short)
    (clampLong (clampShort short) long)
  simp only [runOnce, position_eq]
  generalize rawPos N strategy (navsOf points) (clampShort short)
    (clampLong (clampShort short) long) = raw at hraw hlength ⊢
  cases points with
  | nil => exact absurd rfl hne
  | cons p rest =>
    have hshort : raw.dropLast.length = rest.length := by simp [hlength, navsOf]
    have hmarks := marks_foldl (N := N) (p := p) (l := .empty) hshort
      (fun k hk => hraw k (List.dropLast_subset _ hk)) rfl
    exact hmarks.symm

/-- The last position is what the loop holds at its end. -/
theorem getLast?_position :
    (runOnce N points strategy short long fees).position.getLast? =
      some (loopEnd N points strategy short long fees).holding := by
  rw [loopEnd, getLastD_states]
  simp only [runOnce]
  rw [List.getLast?_map, getLast?_states, Option.map_some]

end Run

/-- Lists with the same images have, place by place, elements with the same image. -/
theorem exists_getElem?_of_map_eq {α β γ : Type} {f : α → γ} {g : β → γ} {xs : List α}
    {ys : List β} (h : xs.map f = ys.map g) {k : ℕ} {x : α} (hx : xs[k]? = some x) :
    ∃ y, ys[k]? = some y ∧ f x = g y := by
  have hk := congrArg (fun zs => zs[k]?) h
  simp only [List.getElem?_map, hx, Option.map_some] at hk
  obtain ⟨y, hy, hfy⟩ := Option.map_eq_some_iff.1 hk.symm
  exact ⟨y, hy, hfy.symm⟩

/-- **The `k`-th trade is made of the `k`-th buy mark and the `k`-th sell mark, and the marks
alternate.**  The trades of a result are the last thirty of the sequence; the open trade, if there
is one, is its last. -/
theorem trades_match_marks {points : List NavPoint} (hlen : 5 ≤ points.length)
    (hpos : ∀ p ∈ points, 0 < p.nav) (strategy : Strategy) (short long : ℤ) (fees : Fees) :
    ∃ r, run N points strategy short long fees = .ok r ∧
      let final := loopEnd N points strategy short long fees
      let closed := final.trades
      let opened := openTrade N final ((navsOf points).getLastD 0)
      let trades : List Trade := closed ++ opened.toList
      Alternate .buy r.marks ∧ closed.length = (marksOf .sell r.marks).length ∧
        r.stats.tradeCount = (marksOf .buy r.marks).length ∧
        (opened.isSome = true ↔ r.position.getLast? = some 1) ∧
        (∀ (k : ℕ) (t : Trade), trades[k]? = some t → ∃ m, (marksOf .buy r.marks)[k]? = some m ∧
          t.entryDate = m.date ∧ t.entryNav = m.nav) ∧
        (∀ (k : ℕ) (t : Trade), closed[k]? = some t → ∃ m, (marksOf .sell r.marks)[k]? = some m ∧
          t.exitDate = m.date ∧ t.exitNav = m.nav) ∧
        r.trades = trades.drop (trades.length - 30) := by
  refine ⟨_, run_eq_ok N hlen hpos strategy short long fees, ?_⟩
  have hne : points ≠ [] := by rintro rfl; simp at hlen
  have htracks := tracks_loopEnd (N := N) strategy short long fees hne hpos
  have htrades := htracks.trades_eq ((navsOf points).getLastD 0)
  have hmarks := marks_runOnce (N := N) strategy short long fees hne
  have hposition : (runOnce N points strategy short long fees).position.getLast? =
      some (loopEnd N points strategy short long fees).holding :=
    getLast?_position strategy short long fees
  have hcount : (runOnce N points strategy short long fees).stats.tradeCount =
      ((loopEnd N points strategy short long fees).trades ++
        (openTrade N (loopEnd N points strategy short long fees)
          ((navsOf points).getLastD 0)).toList).length := List.length_append.symm
  intro final closed opened trades
  -- every part is a fact about the ledger, which the loop tracks and the marks show
  simp only [withGross, hmarks, hcount, hposition]
  generalize ledgerOf points (runOnce N points strategy short long fees).position = ledger
    at htracks htrades
  have hentries := entries_trades (N := N) ledger ((navsOf points).getLastD 0)
  rw [← htrades] at hentries
  refine ⟨alternate_marks ledger, ?_, ?_, ?_, ?_, ?_, rfl⟩
  · rw [show closed = _ from htracks.trades, marksOf_sell, List.length_map, List.length_map]
  · simpa using congrArg List.length hentries
  · rw [show opened = _ from htracks.openTrade_eq _, htracks.holding]
    cases ledger.opened with
    | none => simp
    | some p => simp
  · intro k t ht
    obtain ⟨m, hm, heq⟩ := exists_getElem?_of_map_eq hentries ht
    exact ⟨m, hm, Prod.mk.inj heq⟩
  · intro k t ht
    rw [show closed = _ from htracks.trades] at ht
    obtain ⟨m, hm, heq⟩ := exists_getElem?_of_map_eq (exits_closed ledger) ht
    exact ⟨m, hm, Prod.mk.inj heq⟩

/-- Six days with one round trip: a buy on the fourth day and a sale on the sixth. -/
def tripDays : List NavPoint :=
  [{ date := "05", nav := 1 }, { date := "06", nav := 1 }, { date := "07", nav := 2 },
    { date := "08", nav := 2 }, { date := "09", nav := 1 }, { date := "12", nav := 1 }]

theorem trades_match_marks_tripDays :
    ∃ r, run .runnable tripDays .momentum 2 20 {} = .ok r ∧
      let final := loopEnd .runnable tripDays .momentum 2 20 {}
      let opened := openTrade .runnable final 1
      let trades : List Trade := final.trades ++ opened.toList
      Alternate .buy r.marks ∧ final.trades.length = (marksOf .sell r.marks).length ∧
        r.stats.tradeCount = (marksOf .buy r.marks).length ∧
        (opened.isSome = true ↔ r.position.getLast? = some 1) ∧
        (∀ (k : ℕ) (t : Trade), trades[k]? = some t → ∃ m, (marksOf .buy r.marks)[k]? = some m ∧
          t.entryDate = m.date ∧ t.entryNav = m.nav) ∧
        (∀ (k : ℕ) (t : Trade), final.trades[k]? = some t →
          ∃ m, (marksOf .sell r.marks)[k]? = some m ∧ t.exitDate = m.date ∧ t.exitNav = m.nav) ∧
        r.trades = trades.drop (trades.length - 30) :=
  trades_match_marks (by decide) (by decide +kernel) .momentum 2 20 {}

example : (loopEnd .runnable tripDays .momentum 2 20 {}).trades.map
    (fun t => (t.entryDate, t.exitDate)) = [("08", "12")] := by decide +kernel

end Backtest

end QuantFlow
