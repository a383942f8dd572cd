/-
**A bounded log that is read by cursor.**

Entries are numbered from 1 as they are written, and the log holds the last `cap` of them.  A reader
asks for what comes after the last number it has, and gets the first `size` of it.  The numbers in
the log are consecutive and end with the last one written, so the reader misses an entry only if it
was dropped, that is if `cap` others were written after it.

Main definitions:

* `kept` — the numbers in the log after `n` entries;
* `page` — what a reader is given;
* `Feed`, `Feed.poll` — a log with what its reader asked and got;
* `Faithful` — the reader gets everything in order, but for entries that were dropped.

Main results:

* `drop_kept` — writing an entry keeps the last numbers in the log;
* `page_eq` — a page is a block of consecutive numbers;
* `Faithful.poll` — **a poll keeps the reading faithful**.
-/

import Mathlib.Data.List.Range

namespace CursorLog

variable {cap size : ℕ}

/-! ### The log -/

/-- The numbers in the log after `n` entries, if it holds `cap`. -/
def kept (cap n : ℕ) : List ℕ := List.range' (n - cap + 1) (n - (n - cap))

/-- Writing an entry: the oldest one is dropped if the log is full. -/
theorem drop_kept (cap n : ℕ) :
    (kept cap n ++ [n + 1]).drop ((kept cap n ++ [n + 1]).length - cap) = kept cap (n + 1) := by
  have hall : kept cap n ++ [n + 1] = List.range' (n - cap + 1) (n + 1 - (n - cap)) := by
    have hlast : n + 1 = n - cap + 1 + (n - (n - cap)) := by omega
    have hlen : n + 1 - (n - cap) = n - (n - cap) + 1 := by omega
    rw [kept, hlen, List.range'_1_concat, ← hlast]
  rw [hall, List.length_range', List.drop_range', kept]
  congr 1
  · omega
  · omega

/-! ### Pages -/

/-- The first `size` numbers after `after` that the log holds. -/
def page (cap size n after : ℕ) : List ℕ := ((kept cap n).filter (after < ·)).take size

/-- The numbers of a block above a bound are a block. -/
theorem filter_range' (after lo len : ℕ) :
    (List.range' lo len).filter (after < ·) =
      List.range' (max lo (after + 1)) (lo + len - max lo (after + 1)) := by
  induction len generalizing lo with
  | zero =>
    have hzero : lo + 0 - max lo (after + 1) = 0 := by omega
    rw [hzero]
    rfl
  | succ len ih =>
    rw [List.range'_succ, List.filter_cons, ih]
    by_cases hlt : after < lo
    · have hmax : max lo (after + 1) = lo := by omega
      have hmax' : max (lo + 1) (after + 1) = lo + 1 := by omega
      have hlen : lo + (len + 1) - lo = len + 1 := by omega
      have hlen' : lo + 1 + len - (lo + 1) = len := by omega
      rw [if_pos (by simpa using hlt), hmax, hmax', hlen, hlen', List.range'_succ]
    · have hmax : max (lo + 1) (after + 1) = max lo (after + 1) := by omega
      have hlen : lo + 1 + len = lo + (len + 1) := by omega
      rw [if_neg (by simpa using hlt), hmax, hlen]

theorem take_range' (size lo len : ℕ) :
    (List.range' lo len).take size = List.range' lo (min size len) := by
  induction len generalizing lo size with
  | zero => simp
  | succ len ih =>
    cases size with
    | zero => simp
    | succ size =>
      have hmin : min (size + 1) (len + 1) = min size len + 1 := by omega
      rw [hmin, List.range'_succ, List.range'_succ, List.take_succ_cons, ih]

/-- **A page is a block of consecutive numbers**: it starts after the last number the reader has,
or with the first one the log holds. -/
theorem page_eq (cap size n after : ℕ) :
    page cap size n after =
      List.range' (max (n - cap) after + 1) (min size (n - max (n - cap) after)) := by
  rw [page, kept, filter_range', take_range']
  congr 1
  · omega
  · omega

theorem mem_page {n after c : ℕ} (h : c ∈ page cap size n after) :
    after < c ∧ n - cap < c ∧ c ≤ n := by
  rw [page_eq, List.mem_range'_1] at h
  omega

/-! ### Readers -/

/-- What a reader asked for, how many entries had been written, and what it got. -/
structure Poll where
  after : ℕ
  count : ℕ
  cursors : List ℕ

/-- A log with the polls of its reader. -/
structure Feed where
  count : ℕ
  polls : List Poll

/-- The numbers the reader has received. -/
def received (polls : List Poll) : List ℕ := polls.flatMap Poll.cursors

/-- The last number the reader has received, 0 at first. -/
def lastReceived (polls : List Poll) : ℕ := (received polls).getLast?.getD 0

/-- The reader passes the last number it has. -/
def Feed.poll (cap size : ℕ) (f : Feed) : Feed :=
  { f with polls := f.polls ++
      [{ after := lastReceived f.polls, count := f.count,
         cursors := page cap size f.count (lastReceived f.polls) }] }

/-- **The reading is faithful**: each page is a short block of consecutive numbers, the numbers
increase, and one that was skipped had been followed by `cap` others by then. -/
structure Faithful (cap size : ℕ) (f : Feed) : Prop where
  consecutive : ∀ p ∈ f.polls, p.cursors.length ≤ size ∧
    ∃ first, p.cursors = List.range' first p.cursors.length
  increasing : (received f.polls).Pairwise (· < ·)
  written : ∀ c ∈ received f.polls, 0 < c ∧ c ≤ f.count
  skipped : ∀ c, 0 < c → c ∉ received f.polls → (∃ c' ∈ received f.polls, c < c') →
    ∃ p ∈ f.polls, p.after < c ∧ (∃ c' ∈ p.cursors, c < c') ∧ c + cap ≤ p.count

theorem faithful_nil (cap size count : ℕ) : Faithful cap size ⟨count, []⟩ := by
  refine ⟨by simp, List.Pairwise.nil, by simp [received], ?_⟩
  rintro c - - ⟨c', hc', -⟩
  cases hc'

/-- Entries that are written do not change what the reader has. -/
theorem Faithful.mono {f : Feed} (h : Faithful cap size f) {count : ℕ} (hle : f.count ≤ count) :
    Faithful cap size { f with count := count } := by
  refine ⟨h.consecutive, h.increasing, ?_, h.skipped⟩
  intro c hc
  obtain ⟨hpos, hcount⟩ := h.written c hc
  exact ⟨hpos, hcount.trans hle⟩

/-- What was received is at most the last number received. -/
theorem Faithful.le_last {f : Feed} (h : Faithful cap size f) {c : ℕ}
    (hc : c ∈ received f.polls) : c ≤ lastReceived f.polls := by
  rcases List.eq_nil_or_concat (received f.polls) with hnil | ⟨init, last, hconcat⟩
  · rw [hnil] at hc
    cases hc
  · rw [List.concat_eq_append] at hconcat
    have hlast : lastReceived f.polls = last := by simp [lastReceived, hconcat]
    have hpairwise := h.increasing
    rw [hconcat] at hc hpairwise
    rw [hlast]
    rcases List.mem_append.1 hc with hinit | htail
    · exact ((List.pairwise_append.1 hpairwise).2.2 c hinit last (List.mem_singleton.2 rfl)).le
    · exact (List.mem_singleton.1 htail).le

theorem lastReceived_mem (polls : List Poll) :
    lastReceived polls = 0 ∨ lastReceived polls ∈ received polls := by
  unfold lastReceived
  cases hlast : (received polls).getLast? with
  | none => exact .inl rfl
  | some c => exact .inr (List.mem_of_getLast? hlast)

/-- **A poll keeps the reading faithful.** -/
theorem Faithful.poll {f : Feed} (h : Faithful cap size f) :
    Faithful cap size (f.poll cap size) := by
  have hreceived : received (f.poll cap size).polls =
      received f.polls ++ page cap size f.count (lastReceived f.polls) := by
    simp [received, Feed.poll]
  refine ⟨?_, ?_, ?_, ?_⟩
  · intro p hp
    rcases List.mem_append.1 hp with hold | hnew
    · exact h.consecutive p hold
    · rw [List.mem_singleton.1 hnew]
      simp only [page_eq, List.length_range']
      exact ⟨min_le_left _ _, _, rfl⟩
  · rw [hreceived, List.pairwise_append]
    refine ⟨h.increasing, ?_, ?_⟩
    · rw [page_eq]
      exact List.pairwise_lt_range'
    · intro c hc c' hc'
      exact (h.le_last hc).trans_lt (mem_page hc').1
  · intro c hc
    rw [hreceived] at hc
    rcases List.mem_append.1 hc with hold | hnew
    · exact h.written c hold
    · obtain ⟨-, hlow, hhigh⟩ := mem_page hnew
      exact ⟨by omega, hhigh⟩
  · intro c hpos hnot hbelow
    rw [hreceived] at hnot hbelow
    obtain ⟨hold, hpage⟩ := not_or.1 (List.mem_append.not.1 hnot)
    -- a number below the last one received was skipped before, any other is skipped now
    by_cases hlast : c < lastReceived f.polls
    · have hmem : lastReceived f.polls ∈ received f.polls := by
        rcases lastReceived_mem f.polls with hzero | hmem
        · omega
        · exact hmem
      obtain ⟨p, hp, hskip⟩ := h.skipped c hpos hold ⟨_, hmem, hlast⟩
      exact ⟨p, List.mem_append_left _ hp, hskip⟩
    · obtain ⟨c', hc', hlt⟩ := hbelow
      have hc'page : c' ∈ page cap size f.count (lastReceived f.polls) := by
        rcases List.mem_append.1 hc' with hmem | hmem
        · have hle := h.le_last hmem
          omega
        · exact hmem
      have hafter : lastReceived f.polls < c := by
        rcases Nat.lt_or_eq_of_le (Nat.le_of_not_lt hlast) with hlt' | heq
        · exact hlt'
        · rcases lastReceived_mem f.polls with hzero | hmem
          · omega
          · rw [heq] at hmem
            exact absurd hmem hold
      refine ⟨_, List.mem_append_right _ (List.mem_singleton.2 rfl), hafter, ⟨c', hc'page, hlt⟩, ?_⟩
      -- it is not in the page although a larger one is, so the log does not hold it
      rw [page_eq, List.mem_range'_1] at hc'page hpage
      show c + cap ≤ f.count
      omega

end CursorLog
