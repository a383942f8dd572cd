/-
**The provider's pages.**

`fetch_nav_real` of `backend/app/fund_data.py` asks the provider for pages of twenty rows, newest
first, until it has the days it wants, at most twenty pages.  It reads the rows, skips dates it has
seen, turns the list around and cuts it to the window.  Whatever raises on the way makes the answer
`None`.

`ensure_fund` keeps the longest history and cuts shorter windows from it.  Cutting twice is cutting
once: as long as the provider serves one history, the window that is cut from the cache is the one
that would be fetched.

What `json.loads` and `float` make of a text are inputs.  The type of the numbers is a parameter; where
they are exact, a text of no finite number is one that `float` refuses.

Main definitions:

* `pageRows`, `readRows`, `fetchNavReal` — a page, the rows, the fetch;
* `Reads`, `Answers` — a row that is read as a point, and an answer with a page;
* `recent` — the most recent points in ascending order.

Main results:

* `fetchNavReal_recent` — what is fetched of a history;
* `slice_eq_recent` — **the window cut from the cache is that of the most recent rows**.
-/

import QuantFlow.FundCache
import QuantFlow.Paging
import QuantFlow.PyValues

namespace QuantFlow

open Py (Cp Json Str Fields Float64)

/-! ### Pages -/

/-- What a request gives: an exception of the client, or a status and a text. -/
inductive Response
  | failed
  | answered (status : ℕ) (text : Str)

/-- `json.loads` and `float` of a text, `none` where they raise, and how a date is kept. -/
structure TextHost (V : Type := ℚ) where
  loads : Str → Option Json
  number : Str → Option V
  date : Str → String
  date_text : ∀ s, date (Str.ofString s) = s

/-- The numbers that `float` gives: those next to the rationals, and those of the JSON decoder, where
`none` is one that the model does not have. -/
class Floats (V : Type) where
  ofRat : ℚ → V
  ofFloat64 : Float64 → Option V

instance : Floats ℚ where
  ofRat := id
  ofFloat64
    | .finite value _ => some value
    | _ => none

variable {V : Type} (host : TextHost V)

/-- `_parse_jsonp(text)`: the JSON between the first opening and the last closing brace. -/
def parseJsonp (text : Str) : Option Json :=
  match text.findIdx? (· = .char '{'), text.reverse.findIdx? (· = .char '}') with
  | some start, some back => host.loads ((text.take (text.length - back)).drop start)
  | _, _ => none

theorem findIdx?_first {c : Cp} {s : Str} (h : c ∉ s) (t : Str) :
    (s ++ c :: t).findIdx? (· = c) = some s.length := by
  induction s with
  | nil => simp [List.findIdx?_cons]
  | cons b s ih =>
    simp only [List.mem_cons, not_or] at h
    rw [List.cons_append, List.findIdx?_cons, ih h.2]
    simp [Ne.symm h.1]

/-- What stands between the first opening and the last closing bracket. -/
theorem find_brackets {opening closing : Cp} {before after : Str} (hbefore : opening ∉ before)
    (hafter : closing ∉ after) (body : Str) :
    let text := before ++ opening :: (body ++ [closing]) ++ after
    text.findIdx? (· = opening) = some before.length ∧
      text.reverse.findIdx? (· = closing) = some after.length ∧
      (text.take (text.length - after.length)).drop before.length = opening :: (body ++ [closing]) := by
  intro text
  refine ⟨?_, ?_, ?_⟩
  · rw [show text = before ++ opening :: (body ++ [closing] ++ after) by simp [text]]
    exact findIdx?_first hbefore _
  · have hreverse : text.reverse = after.reverse ++ closing ::
        (before ++ opening :: body).reverse := by
      simp [text]
    rw [hreverse, findIdx?_first (by simpa using hafter), List.length_reverse]
  · have hlength : text.length - after.length =
        (before ++ opening :: (body ++ [closing])).length := by
      rw [List.length_append, Nat.add_sub_cancel]
    rw [hlength, List.take_left, List.drop_left]

/-- `x.get(key)`, which only a dictionary has. -/
def getKey (x : Json) (key : String) : Option (Option Json) :=
  match x with
  | .obj d => some (Fields.find d key)
  | _ => none

/-- `list.extend(x)` and `len(x)` of a value that is not empty. -/
def extended : Json → Option (List Json)
  | .arr elems => some elems
  | .obj fields => some (fields.map fun f => .str f.1)
  | .str s => some (s.map fun c => .str [c])
  | _ => none

/-- `(data or {}).get("Data", {}).get("LSJZList") or []`. -/
def pageRows (data : Option Json) : Option (List Json) := do
  let data := (data.filter Json.truthy).getD (.obj [])
  let inner ← getKey data "Data"
  let rows ← getKey (inner.getD (.obj [])) "LSJZList"
  match rows.filter Json.truthy with
  | none => some []
  | some rows => extended rows

/-- The rows of a page; a status other than 200 ends the loop as an empty page does. -/
def requestPage (get : ℕ → Response) (page : ℕ) : Option (List Json) :=
  match get page with
  | .failed => none
  | .answered status text => if status = 200 then pageRows (parseJsonp host text) else some []

/-! ### Rows -/

/-- What `float(x)` does: a number, a `TypeError` or `ValueError`, or another exception. -/
inductive Conversion (V : Type := ℚ)
  | number (value : V)
  | refused
  | raised
  deriving DecidableEq

variable [Floats V]

/-- `float(x)`; an integer may be too large. -/
def floatOf : Json → Conversion V
  | .bool b => .number (Floats.ofRat (if b then 1 else 0))
  | .int n => if n.natAbs < 2 ^ 1024 then .number (Floats.ofRat n) else .raised
  | .float x => ((Floats.ofFloat64 x).map Conversion.number).getD .refused
  | .str s => ((host.number s).map Conversion.number).getD .refused
  | _ => .refused

/-- `float(x) if x not in (None, "") else None`. -/
def optionalFloat (x : Json) : Option (Option V) :=
  match x with
  | .null => some none
  | .str [] => some none
  | x =>
    match floatOf host x with
    | .number value => some (some value)
    | _ => none

/-- The loop over the rows, with the dates that were seen and the points so far. -/
def readRows : List Json → List Str → List (NavPoint V) → Option (List (NavPoint V))
  | [], _, points => some points
  | .obj row :: rows, seen, points =>
    match floatOf host (Fields.get row "DWJZ") with
    | .refused => readRows rows seen points
    | .raised => none
    | .number nav =>
      match Fields.get row "FSRQ" with
      | .str date =>
        if date ∈ seen then readRows rows seen points
        else do
          let accNav ← optionalFloat host (Fields.get row "LJJZ")
          let changePct ← optionalFloat host (Fields.get row "JZZZL")
          readRows rows (date :: seen) (points ++
            [{ date := host.date date, nav := nav, accNav := accNav, changePct := changePct }])
      | _ => none
  | _ :: _, _, _ => none

/-- `fetch_nav_real(code, days)`, with the provider's answers to the requests for the pages. -/
def fetchNavReal (get : ℕ → Response) (days : ℤ) : Option (List (NavPoint V)) := do
  let rows ← Paging.collect 20 days (requestPage host get) 20 1 []
  if rows.isEmpty then none
  else do
    let points ← readRows host rows [] []
    if points.length < 5 then none
    else some (lastOf points.reverse days)

/-! ### Reading a history -/

/-- The row is read as the point. -/
structure Reads (row : Fields) (p : NavPoint V) : Prop where
  nav : floatOf host (Fields.get row "DWJZ") = .number p.nav
  date : Fields.get row "FSRQ" = .text p.date
  accNav : optionalFloat host (Fields.get row "LJJZ") = some p.accNav
  changePct : optionalFloat host (Fields.get row "JZZZL") = some p.changePct

omit [Floats V] in
/-- The response is a page of these rows. -/
def Answers (r : Response) (page : List Json) : Prop :=
  ∃ text data inner, r = .answered 200 text ∧ parseJsonp host text = some (.obj data) ∧
    Fields.find data "Data" = some (.obj inner) ∧
    Fields.find inner "LSJZList" = some (.arr page)

section Reading

variable {host} {get : ℕ → Response} {rows : List Fields} {points : List (NavPoint V)}

theorem pageRows_served {data inner : Fields} {page : List Json}
    (hdata : Fields.find data "Data" = some (.obj inner))
    (hrows : Fields.find inner "LSJZList" = some (.arr page)) :
    pageRows (some (.obj data)) = some page := by
  have htruthy : (some (Json.obj data)).filter Json.truthy = some (.obj data) := by
    cases data with
    | nil => cases hdata
    | cons f data => rfl
  simp only [pageRows, htruthy, Option.getD_some, getKey, hdata, hrows, Option.bind_eq_bind,
    Option.bind_some]
  cases page with
  | nil => rfl
  | cons row page => rfl

omit [Floats V] in
theorem Answers.requestPage {n : ℕ} {page : List Json} (h : Answers host (get n) page) :
    requestPage host get n = some page := by
  obtain ⟨text, data, inner, hget, hparse, hdata, hrows⟩ := h
  rw [QuantFlow.requestPage, hget]
  simp only [if_true, hparse]
  exact pageRows_served hdata hrows

/-- Rows that are read as points give the first point of each date. -/
theorem readRows_keepFirst (h : List.Forall₂ (Reads host) rows points) {seen : List Str}
    {before : List (NavPoint V)}
    (hseen : ∀ d, Str.ofString d ∈ seen ↔ d ∈ before.map NavPoint.date) :
    readRows host (rows.map Json.obj) seen before =
      some (Paging.keepFirst NavPoint.date before points) := by
  induction h generalizing seen before with
  | nil => rfl
  | @cons row p rows points hrow hrows ih =>
    rw [List.map_cons, readRows, hrow.nav, hrow.date, Paging.keepFirst]
    simp only [Json.text, host.date_text, Option.bind_some, Option.bind_eq_bind,
      hrow.accNav, hrow.changePct]
    by_cases hold : Str.ofString p.date ∈ seen
    · rw [if_pos hold, if_pos ((hseen p.date).1 hold)]
      exact ih hseen
    · rw [if_neg hold, if_neg fun hmem => hold ((hseen p.date).2 hmem)]
      refine ih fun d => ?_
      rw [List.mem_cons, hseen, List.map_append, List.mem_append, List.map_singleton,
        List.mem_singleton, Str.ofString_injective.eq_iff, or_comm]

end Reading

/-! ### Windows of a history -/

/-- The most recent points of a history that is given newest first, in ascending order; no more than
twenty pages are read. -/
def recent (points : List (NavPoint V)) (days : ℕ) : List (NavPoint V) :=
  (points.take (min days 400)).reverse

omit [Floats V] in
theorem length_recent (points : List (NavPoint V)) (days : ℕ) :
    (recent points days).length = min (min days 400) points.length := by
  rw [recent, List.length_reverse, List.length_take]

theorem lastOf_reverse {α : Type} (xs : List α) {days : ℤ} (h : 0 < days) :
    lastOf xs.reverse days = (xs.take days.toNat).reverse := by
  rw [lastOf, if_pos h, List.length_reverse, List.reverse_take]

omit [Floats V] in
/-- The window of a longer window is that of the history. -/
theorem slice_recent (points : List (NavPoint V)) {days wide : ℤ} (hdays : 0 < days)
    (hwide : days ≤ wide) : slice (recent points wide.toNat) days = recent points days.toNat := by
  have hcut : (points.take (min wide.toNat 400)).take days.toNat =
      points.take (min days.toNat 400) := by
    rw [List.take_take]
    congr 1
    omega
  -- the window cuts the history, or all of it is in the window
  unfold slice
  split
  · rw [recent, lastOf_reverse _ hdays, hcut]
    rfl
  · rename_i hall
    have hlong : (points.take (min wide.toNat 400)).length ≤ days.toNat := by
      have hlen := length_recent points wide.toNat
      rw [recent, List.length_reverse] at hlen
      rw [length_recent] at hall
      omega
    rw [recent, recent, ← hcut, List.take_of_length_le hlong]

/-- The provider serves a history of at least five rows, newest first, each of which is read as a
point. -/
structure History (get : ℕ → Response) (rows : List Fields) (points : List (NavPoint V)) : Prop where
  serves : ∀ n, Answers host (get (n + 1)) (((rows.map Json.obj).drop (20 * n)).take 20)
  reads : List.Forall₂ (Reads host) rows points
  descending : points.Pairwise fun p q => q.date < p.date
  enough : 5 ≤ points.length

section Fetching

variable {host} {get : ℕ → Response} {rows : List Fields} {points : List (NavPoint V)}

omit [Floats V] in
theorem dates_nodup (h : points.Pairwise fun p q => q.date < p.date) :
    (points.map NavPoint.date).Nodup := by
  rw [List.Nodup, List.pairwise_map]
  refine h.imp ?_
  intro p q hlt heq
  rw [heq] at hlt
  exact String.lt_irrefl q.date hlt

/-- What is fetched, when at least five points are read of the rows. -/
theorem fetchNavReal_of_read {days : ℤ} {read : List Json}
    (hcollect : Paging.collect 20 days (requestPage host get) 20 1 [] = some read)
    (hrows : read ≠ []) (hread : readRows host read [] [] = some points) (henough : 5 ≤ points.length) :
    fetchNavReal host get days = some (lastOf points.reverse days) := by
  have hnonempty : ¬ read.isEmpty = true := by simpa using hrows
  rw [fetchNavReal, hcollect]
  simp only [Option.bind_eq_bind, Option.bind_some, if_neg hnonempty, hread,
    if_neg (Nat.not_lt.2 henough)]

theorem fetchNavReal_recent (h : History host get rows points) {days : ℤ} (hdays : 5 ≤ days) :
    fetchNavReal host get days = some (recent points days.toNat) := by
  have hserves : Paging.Serves 20 (requestPage host get) (rows.map Json.obj) :=
    fun n => (h.serves n).requestPage
  obtain ⟨k, hcollect, hbound, hstop⟩ := Paging.collect_eq_take hserves days 20
  have hsame : rows.length = points.length := h.reads.length_eq
  have henough := h.enough
  rw [List.length_map] at hstop
  -- the loop stopped after `k` rows: enough for the window, or all there are
  have hk : 5 ≤ (points.take k).length := by
    rw [List.length_take]
    omega
  have hread : readRows host ((rows.map Json.obj).take k) [] [] = some (points.take k) := by
    rw [← List.map_take, readRows_keepFirst (List.forall₂_take k h.reads) (by simp),
      Paging.keepFirst_of_nodup, List.nil_append]
    rw [List.nil_append, List.map_take]
    exact (dates_nodup h.descending).sublist (List.take_sublist k _)
  have hrows : (rows.map Json.obj).take k ≠ [] := by
    rw [← List.length_pos_iff, List.length_take, List.length_map, hsame]
    rw [List.length_take] at hk
    omega
  have hcut : ((points.take k).take days.toNat) = points.take (min days.toNat 400) := by
    refine Paging.take_of_stopped hbound ?_
    omega
  rw [fetchNavReal_of_read hcollect hrows hread hk, lastOf_reverse _ (by omega), hcut]
  rfl

/-! ### Windows of the cache -/

/-- A lookup in the cache. -/
structure Lookup (V : Type := ℚ) where
  moment : Moment V
  code : String
  days : ℤ

/-- The cache after a sequence of lookups. -/
def lookups (sim : Bool) (funds : FundCache V) (rs : List (Lookup V)) : FundCache V :=
  rs.foldl (fun funds r => (ensureFund sim r.moment funds r.code r.days).2) funds

/-- At this moment the provider's rows for the code are those it serves in pages. -/
def Fetches (host : TextHost V) (get : ℕ → Response) (code : String) (m : Moment V) : Prop :=
  ∀ days, (m.provider code days).real = fetchNavReal host get days

/-- An entry of the code holds the most recent points of its window. -/
def Current (code : String) (points : List (NavPoint V)) (key : String) (e : Entry V) :
    Prop :=
  key = code → e.points = recent points e.days.toNat

/-- A load gives the most recent points: it asks for at least the default window. -/
theorem current_loadEntry (h : History host get rows points) (sim : Bool) {m : Moment V}
    {code : String} (hm : Fetches host get code m) (key : String) (days : ℤ) (old : Option (Entry V)) :
    Current code points key (loadEntry sim m key days old) := by
  rintro rfl
  have hwide : 60 ≤ wanted days old := le_trans (le_max_right days historyDays) (le_max_left _ _)
  have henough := h.enough
  have hfetch : (m.provider key (wanted days old)).real =
      some (recent points (wanted days old).toNat) := by
    rw [hm (wanted days old), fetchNavReal_recent h (by omega)]
  have haccepted : (m.provider key (wanted days old)).accepted =
      some (recent points (wanted days old).toNat) := by
    rw [Fetch.accepted, hfetch, Option.filter_eq_some_iff]
    refine ⟨rfl, decide_eq_true ?_⟩
    rw [length_recent]
    omega
  show (getNav sim (m.provider key (wanted days old))).1 = _
  rw [getNav_of_accepted haccepted]
  rfl

/-- Whatever was looked up before, the entries of the code are current. -/
theorem current_lookups (h : History host get rows points) (sim : Bool) {code : String}
    {funds : FundCache V} (hfunds : KeyedCache.Holds (Current code points) funds) (rs : List (Lookup V))
    (hrs : ∀ r ∈ rs, Fetches host get code r.moment) :
    KeyedCache.Holds (Current code points) (lookups sim funds rs) := by
  induction rs generalizing funds with
  | nil => exact hfunds
  | cons r rs ih =>
    have hload := current_loadEntry h sim (hrs r List.mem_cons_self) r.code r.days (funds r.code)
    exact ih (hfunds.lookup hload).2 fun r' hr' => hrs r' (List.mem_cons_of_mem r hr')

/-- **The window cut from the cache is that of the most recent rows**, whatever was looked up before
and whether the entry was loaded or found. -/
theorem slice_eq_recent (h : History host get rows points) (sim : Bool) (code : String)
    (earlier : List (Lookup V)) (hearlier : ∀ r ∈ earlier, Fetches host get code r.moment) (m : Moment V)
    (hm : Fetches host get code m) (days : ℤ) (hdays : 0 < days) :
    slice (ensureFund sim m (lookups sim (fun _ => none) earlier) code days).1.points days =
      (points.take (min days (min points.length 400)).toNat).reverse := by
  have hcurrent := current_lookups h sim (KeyedCache.holds_empty) earlier hearlier
  have hload := current_loadEntry h sim hm code days (lookups sim (fun _ => none) earlier code)
  have hentry : Current code points code
      (ensureFund sim m (lookups sim (fun _ => none) earlier) code days).1 :=
    (hcurrent.lookup hload).1
  have hwide := le_days_ensureFund sim m (lookups sim (fun _ => none) earlier) code days
  rw [hentry rfl, slice_recent points hdays hwide, recent, List.take_eq_take_iff.2]
  omega

end Fetching

/-! A history of five days on one page. -/

def sampleRow (date : String) : Fields :=
  [(Str.ofString "FSRQ", .text date), (Str.ofString "DWJZ", .text "1")]

def sampleRows : List Fields := ["5", "4", "3", "2", "1"].map sampleRow

def samplePoints : List NavPoint := ["5", "4", "3", "2", "1"].map fun d => { date := d, nav := 1 }

/-- The JSON of a page. -/
def pageData (rows : List Fields) : Fields :=
  [(Str.ofString "Data", .obj [(Str.ofString "LSJZList", .arr (rows.map Json.obj))])]

/-- `json.loads` on the texts of the two pages, and `float` on the text of the NAVs. -/
def sampleHost : TextHost where
  loads := fun s => [Json.obj (pageData sampleRows), .obj (pageData [])].find? fun x => x.dumpsRaw = s
  number := fun s => if s = Str.ofString "1" then some 1 else none
  date := Str.shown
  date_text := Str.shown_ofString

def pageText (rows : List Fields) : Str :=
  Str.ofString "x(" ++ (Json.obj (pageData rows)).dumpsRaw ++ Str.ofString ")"

omit [Floats V] in
theorem parseJsonp_pageText (host : TextHost V) (rows : List Fields) :
    parseJsonp host (pageText rows) = host.loads (Json.obj (pageData rows)).dumpsRaw := by
  obtain ⟨body, hbody⟩ : ∃ body, (Json.obj (pageData rows)).dumpsRaw =
      .char '{' :: (body ++ [.char '}']) := ⟨_, rfl⟩
  have hbefore : Cp.char '{' ∉ Str.ofString "x(" := by decide
  have hafter : Cp.char '}' ∉ Str.ofString ")" := by decide
  obtain ⟨hstart, hback, hslice⟩ := find_brackets hbefore hafter body
  rw [pageText, hbody, parseJsonp, hstart, hback]
  exact congrArg host.loads hslice

def samplePages : ℕ → Response
  | 1 => .answered 200 (pageText sampleRows)
  | _ => .answered 200 (pageText [])

set_option maxRecDepth 2000 in
theorem history_sample : History sampleHost samplePages sampleRows samplePoints where
  serves := by
    intro n
    cases n with
    | zero => exact ⟨pageText sampleRows, pageData sampleRows, _, rfl, rfl, rfl, rfl⟩
    | succ n =>
      refine ⟨pageText [], pageData [], _, rfl, rfl, rfl, ?_⟩
      have hnone : (sampleRows.map Json.obj).drop (20 * (n + 1)) = [] := by
        rw [List.drop_eq_nil_iff, List.length_map]
        show 5 ≤ 20 * (n + 1)
        omega
      rw [hnone]
      rfl
  reads := by
    rw [sampleRows, samplePoints, List.forall₂_map_left_iff, List.forall₂_map_right_iff,
      List.forall₂_same]
    intro d _
    exact ⟨rfl, rfl, rfl, rfl⟩
  descending := by decide
  enough := by decide

/-- The provider serves this history at any time. -/
def sampleMoment (now : ℚ) : Moment :=
  { now := now,
    provider := fun _ days =>
      { real := fetchNavReal sampleHost samplePages days, simulated := [], fetchedAt := "" } }

/-- A small window, and ten seconds later the largest one. -/
def sampleLookups : List Lookup :=
  [(0, 20), (10, 600)].map fun t => { moment := sampleMoment t.1, code := "000001", days := t.2 }

theorem slice_eq_recent_sample :
    slice (ensureFund true (sampleMoment 900) (lookups true (fun _ => none) sampleLookups)
        "000001" 20).1.points 20 =
      (samplePoints.take (min 20 (min (samplePoints.length : ℤ) 400)).toNat).reverse := by
  refine slice_eq_recent history_sample true "000001" sampleLookups ?_ (sampleMoment 900) ?_ 20
    (by decide)
  · intro r hr days
    obtain ⟨t, -, rfl⟩ := List.mem_map.1 hr
    rfl
  · intro days
    rfl

end QuantFlow
