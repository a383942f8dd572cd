/-
**The fund universe.**

`backend/app/fund_universe.py` searches in a list of all funds.  `load_universe` takes it from the
memory for an hour, from a file for seven days, and downloads it otherwise; if the download brings
nothing it takes the file however old it is, and without a file a short built-in list.  Each of these
goes into the memory again.  The requests run in threads that share the memory and the file.

The provider serves a script with a list of rows in it.  What stands around the list does not matter,
nor how it is laid out; rows with fewer than four columns are left out.

Main definitions:

* `parse`, `download` — the funds in an answer of the provider;
* `loadUniverse` — the lookup, step by step;
* `overlapping` — lookups in threads.

Main results:

* `parse_script` — **a script is read as the funds of its rows**;
* `universe_accounted` — **however the lookups overlap, none raises, and each
  answers with the built-in list, the list the file held at first, or a list that was downloaded**.
-/

import QuantFlow.JsonFiles
import QuantFlow.NavPages
import QuantFlow.ThreadPools

namespace QuantFlow.Universe

open Py (Cp Decoder Fields Json Str)
open Scripts
open Scripts.Script (run_bind_ok run_read)
open Store (Files WriteOutcome shelfOf)

variable (D : Decoder)

/-! ### The provider's script -/

/-- The fund of a row. -/
def fundOf : Json → Option Json
  | .arr (code :: abbr :: name :: type :: rest) =>
    some (.obj [(Str.ofString "code", code), (Str.ofString "abbr", abbr),
      (Str.ofString "name", name), (Str.ofString "type", type),
      (Str.ofString "pinyin", rest.headD (.str []))])
  | _ => none

/-- `_parse(text)`; `none` if the text between the brackets is no value.  A text that opens with a
bracket is decoded to a list. -/
def parse (text : Str) : Option (List Json) :=
  match text.findIdx? (· = .char '['), text.reverse.findIdx? (· = .char ']') with
  | some start, some back =>
    match D.loads ((text.take (text.length - back)).drop start) with
    | .ok (.arr rows) => some (rows.filterMap fundOf)
    | _ => none
  | _, _ => some []

/-- `_download()`. -/
def download : Response → List Json
  | .failed => []
  | .answered status text => if status = 200 then (parse D text).getD [] else []

theorem brackets_spelled (L : Py.Layout) (level : ℕ) (rows : List Json) :
    ∃ body, (Json.arr rows).spelled L level = .char '[' :: (body ++ [.char ']']) := by
  simp only [Json.spelled, Py.Layout.wrap]
  split_ifs
  · exact ⟨[], rfl⟩
  · exact ⟨_, rfl⟩

/-- **A script is read as the funds of its rows**, whatever stands before the first bracket and after
the last, and however the rows are laid out. -/
theorem parse_script (L : Py.Layout) (rows : List Json) (hrows : (Json.arr rows).Storable D D.depth)
    (before after : Str) (hbefore : Cp.char '[' ∉ before) (hafter : Cp.char ']' ∉ after) :
    parse D (before ++ (Json.arr rows).spelled L 0 ++ after) = some (rows.filterMap fundOf) := by
  obtain ⟨body, hbody⟩ := brackets_spelled L 0 rows
  have hloads : D.loads (.char '[' :: (body ++ [.char ']'])) = .ok (.arr rows) := by
    rw [← hbody]
    simpa using Py.loads_spelled D L 0 hrows (Py.blank_spaces 0)
  obtain ⟨hstart, hback, hslice⟩ := find_brackets hbefore hafter body
  rw [hbody, parse, hstart, hback]
  simp only [hslice, hloads]

def twoRows : List Json :=
  [.arr [.text "000001", .text "HXCZHH", .text "华夏成长混合", .text "混合型"], .arr [.text "r"]]

/-- The fund of the first row. -/
def rowFund : Json :=
  .obj [(Str.ofString "code", .text "000001"), (Str.ofString "abbr", .text "HXCZHH"),
    (Str.ofString "name", .text "华夏成长混合"), (Str.ofString "type", .text "混合型"),
    (Str.ofString "pinyin", .str [])]

/-- The second row is too short. -/
theorem parse_script_twoRows :
    parse Store.wholeNumbers (Str.ofString "var r = " ++ (Json.arr twoRows).spelled Py.oneLine 0 ++
        Str.ofString ";") =
      some [rowFund] := by
  have hrows : (Json.arr twoRows).Storable Store.wholeNumbers 3 := by
    simp [twoRows, Json.Storable, Py.storableAll, Json.text]
  exact parse_script Store.wholeNumbers Py.oneLine twoRows hrows (Str.ofString "var r = ")
    (Str.ofString ";") (by decide) (by decide)

/-! ### The lookup -/

/-- A reading of the clock: a float whose text is its own. -/
structure Instant where
  value : ℚ
  text : String
  reads : D.Reads 0 (.float (.finite value text)) (Str.ofString text)

variable {D}

def Instant.json (t : Instant D) : Json := .float (.finite t.value t.text)

/-- What is saved: when the list was asked for, and the list. -/
def record (t : Instant D) (items : List Json) : Json :=
  .obj [(Str.ofString "updated_at", t.json), (Str.ofString "items", .arr items)]

def cacheFile : String := "fund_universe.json"

/-- Seven days. -/
def cacheTtl : ℚ := 7 * 86400

def listed (code name type pinyin : String) : Json :=
  .obj [(Str.ofString "code", .text code), (Str.ofString "name", .text name),
    (Str.ofString "type", .text type), (Str.ofString "pinyin", .text pinyin)]

/-- `_FALLBACK`. -/
def fallback : List Json :=
  [listed "005844" "东方人工智能主题混合A" "混合型-偏股" "DFRGZNZTHHA",
    listed "006265" "红土创新新科技股票A" "股票型" "HTCXXKJGPA",
    listed "008086" "华夏中证5G通信主题ETF联接A" "指数型" "HXZZ5GTXZTETFLJA",
    listed "320007" "诺安成长混合" "混合型-偏股" "NACZHH",
    listed "519674" "银河创新成长混合A" "混合型-偏股" "YHCXCZHHA",
    listed "001513" "易方达信息产业混合" "混合型-偏股" "YFDXXCYHH",
    listed "001856" "前海开源国家比较优势混合A" "混合型-偏股" "QHKYGJBJYSHHA",
    listed "011609" "国泰中证动漫游戏ETF联接A" "指数型" "GTZZDMYXETFLJA"]

variable (D)

/-- The clock, the files, and the two variables of the module; `_mem` is `null` at first. -/
structure World where
  clock : Instant D
  files : Files
  mem : Json
  memAt : ℚ

variable {D}

/-- `_mem` and `_mem_at` of a process that has just started. -/
def World.restarted (w : World D) : World D := { w with mem := .null, memAt := 0 }

/-- An exception of a value of the file that has another form. -/
inductive Fault
  | attribute
  | type

abbrev Step (D : Decoder) := Script (World D) Fault

/-- `cached.get(key, default)`. -/
def getOr (cached : Json) (key : String) (default : Json) : Except Fault Json :=
  match cached with
  | .obj d => .ok ((Fields.find d key).getD default)
  | _ => .error .attribute

/-- `(now - ts) < CACHE_TTL`. -/
def younger (now : ℚ) (ts : Json) : Except Fault Bool :=
  match ts with
  | .int n => .ok (now - n < cacheTtl)
  | .bool b => .ok (now - (if b then 1 else 0) < cacheTtl)
  | .float (.finite value _) => .ok (now - value < cacheTtl)
  | .float (.inf negative) => .ok (!negative)
  | .float .nan => .ok false
  | _ => .error .type

/-- What one lookup meets: whether its read of the file fails, the answer of the provider, and how its
write of the file ends. -/
structure Query where
  fails : Bool
  response : Response
  outcome : WriteOutcome

/-- `_mem, _mem_at = items, now`, one after the other. -/
def remember (items : Json) (now : Instant D) : Step D Unit := do
  Script.modify fun w => { w with mem := items }
  Script.modify fun w => { w with memAt := now.value }

/-- The end of `load_universe`: the download, or what there is instead. -/
def refresh (now : Instant D) (cached : Json) (q : Query) : Step D Json :=
  if download D q.response = [] then do
    let old ← Script.lift (if cached.truthy then getOr cached "items" .null else .ok .null)
    if old.truthy then do
      remember old now
      Script.read World.mem
    else do
      remember (.arr fallback) now
      pure (.arr fallback)
  else do
    let items := download D q.response
    Script.modify fun w => { w with files := Store.save cacheFile (record now items) q.outcome w.files }
    remember (.arr items) now
    pure (.arr items)

/-- The middle of `load_universe`: the file. -/
def fromFile (now : Instant D) (force : Bool) (q : Query) : Step D Json := do
  let cached ← Script.read fun w => Store.load D cacheFile .null q.fails w.files
  if cached.truthy && !force then do
    let ts ← Script.lift (getOr cached "updated_at" (.int 0))
    let items ← Script.lift (getOr cached "items" (.arr []))
    if items.truthy then do
      let young ← Script.lift (younger now.value ts)
      if young then do
        remember items now
        pure items
      else refresh now cached q
    else refresh now cached q
  else refresh now cached q

/-- `load_universe(force)`. -/
def loadUniverse (force : Bool) (q : Query) : Step D Json := do
  let now ← Script.read World.clock
  let mem ← Script.read World.mem
  if mem.truthy && !force then do
    let memAt ← Script.read World.memAt
    if now.value - memAt < 3600 then Script.read World.mem else fromFile now force q
  else fromFile now force q

/-! ### What the memory and the file hold -/

/-- The record can be stored and read back. -/
def Query.Storable (D : Decoder) (q : Query) : Prop :=
  0 < D.depth ∧ (Json.arr (download D q.response)).Storable D (D.depth - 1)

theorem storable_record {q : Query} (h : q.Storable D) (now : Instant D) :
    (record now (download D q.response)).Storable D D.depth := by
  refine ⟨h.1, by simp [Str.ofString], ?_⟩
  exact ⟨now.reads, h.2, trivial⟩

/-- The file after the record of a download was saved: as it was, with the record, or with none. -/
theorem shelfOf_saved {q : Query} (h : q.Storable D) (now : Instant D) (files : Files) :
    let files' := Store.save cacheFile (record now (download D q.response)) q.outcome files
    shelfOf D files' cacheFile = shelfOf D files cacheFile ∨ shelfOf D files' cacheFile = none ∨
      shelfOf D files' cacheFile = some (record now (download D q.response)) := by
  intro files'
  have hproper : (Store.Operation.save cacheFile (record now (download D q.response))
      q.outcome).Proper D := ⟨rfl, storable_record h now⟩
  have hshelf : shelfOf D files' = _ := Store.shelfOf_save D hproper files
  rw [hshelf]
  cases q.outcome with
  | refused => exact .inl rfl
  | written | cut count broken =>
    simp only [Store.Shelf.after, Function.update_self]
    split_ifs
    · exact .inr (.inr rfl)
    · exact .inr (.inl rfl)

/-- A list that a lookup may answer with. -/
def IsList (known : List Json → Prop) (x : Json) : Prop :=
  ∃ items, items ≠ [] ∧ known items ∧ x = .arr items

structure Sound (known : List Json → Prop) (w : World D) : Prop where
  mem : w.mem = .null ∨ IsList known w.mem
  file : shelfOf D w.files cacheFile = none ∨
    ∃ (t : Instant D) (items : List Json), items ≠ [] ∧ known items ∧
      shelfOf D w.files cacheFile = some (record t items)

/-- The lists in the memory and the file are known ones, and the memory is never emptied. -/
def pact (D : Decoder) (known : List Json → Prop) : Pact (World D) where
  inv := Sound known
  rely _ w w' := w.mem ≠ .null → w'.mem ≠ .null
  refl _ _ := id
  trans h₁ h₂ := h₂ ∘ h₁

/-- A lookup answers with a known list. -/
def Answers (known : List Json → Prop) (r : Except Fault Json) (_ : World D) : Prop :=
  ∃ x, r = .ok x ∧ IsList known x

section Threads

variable {known : List Json → Prop} {i : ℕ} {w : World D}

theorem truthy_arr {items : List Json} (hne : items ≠ []) : (Json.arr items).truthy = true := by
  simp [Json.truthy, hne]

@[simp] theorem truthy_record (t : Instant D) (items : List Json) :
    (record t items).truthy = true := by
  simp [record, Json.truthy]

theorem safe_remember {items : Json} (h : IsList known items) (now : Instant D) :
    (remember items now).Safe (pact D known) i (fun r w => r = .ok () ∧ w.mem ≠ .null) w := by
  have hne : items ≠ .null := by
    rintro rfl
    obtain ⟨xs, -, -, hxs⟩ := h
    cases hxs
  refine Script.Safe.modify (fun t _ ht => ⟨.inr h, ht.file⟩) (fun t _ _ j _ _ => hne) ?_
  intro t _ _
  -- between the two writes others may run, but they do not empty the memory
  exact fun u hu hinv => ⟨⟨hinv.mem, hinv.file⟩, fun j _ => id, rfl, hu hne⟩

/-- The end of a lookup: a list is remembered, and returned from the memory or as it is. -/
theorem safe_remembered {items : Json} (h : IsList known items) (now : Instant D)
    {g : Unit → Step D Json} (hg : ∀ t : World D, t.mem ≠ .null →
      (g ()).Safe (pact D known) i (Answers known) t) :
    (remember items now >>= g).Safe (pact D known) i (Answers known) w :=
  (safe_remember h now).bind (fun _ t ht => hg t ht.2) fun e t ht => by cases ht.1

theorem safe_read (hw : w.mem ≠ .null) :
    (Script.read World.mem : Step D Json).Safe (pact D known) i (Answers known) w := by
  intro t ht hinv
  have hlist : IsList known t.mem := hinv.mem.resolve_left (ht hw)
  exact ⟨hinv, fun j _ => id, t.mem, rfl, hlist⟩

theorem safe_return {x : Json} (h : IsList known x) :
    (pure x : Step D Json).Safe (pact D known) i (Answers known) w :=
  ⟨x, rfl, h⟩

/-- What a lookup reads from the file: nothing, or a record. -/
def Cached (D : Decoder) (known : List Json → Prop) (cached : Json) : Prop :=
  cached = .null ∨ ∃ (t : Instant D) (items : List Json), items ≠ [] ∧ known items ∧
    cached = record t items

theorem load_cacheFile (fails : Bool) (files : Files) :
    Store.load D cacheFile .null fails files = .null ∨
      shelfOf D files cacheFile = some (Store.load D cacheFile .null fails files) := by
  cases fails with
  | true =>
    left
    unfold Store.load
    cases files cacheFile <;> rfl
  | false =>
    rw [Store.load_eq]
    cases shelfOf D files cacheFile with
    | none => exact .inl rfl
    | some x => exact .inr rfl

theorem cached_load (h : Sound known w) (fails : Bool) :
    Cached D known (Store.load D cacheFile .null fails w.files) := by
  obtain hnull | hsome := load_cacheFile (D := D) fails w.files
  · exact .inl hnull
  · obtain hnone | ⟨t, items, hne, hknown, hrecord⟩ := h.file
    · rw [hnone] at hsome
      cases hsome
    · rw [hrecord] at hsome
      exact .inr ⟨t, items, hne, hknown, (Option.some.inj hsome).symm⟩

theorem getOr_record (t : Instant D) (items : List Json) (default : Json) :
    getOr (record t items) "updated_at" default = .ok t.json ∧
      getOr (record t items) "items" default = .ok (.arr items) := by
  constructor <;> simp [getOr, record, Fields.find, Str.ofString]

variable {q : Query}

theorem safe_refresh (hq : q.Storable D) (hdownload : download D q.response ≠ [] →
      known (download D q.response)) (hfallback : known fallback) (now : Instant D) {cached : Json}
    (hcached : Cached D known cached) :
    (refresh now cached q).Safe (pact D known) i (Answers known) w := by
  unfold refresh
  by_cases hd : download D q.response = []
  · rw [if_pos hd]
    have hbuiltIn : IsList known (.arr fallback) := ⟨fallback, by simp [fallback], hfallback, rfl⟩
    obtain rfl | ⟨t, items, hne, hknown, rfl⟩ := hcached
    · exact safe_remembered hbuiltIn now fun _ _ => safe_return hbuiltIn
    · have hlist : IsList known (.arr items) := ⟨items, hne, hknown, rfl⟩
      rw [if_pos (truthy_record t items), (getOr_record t items _).2]
      show (if (Json.arr items).truthy = true then _ else _ : Step D Json).Safe _ _ _ _
      rw [if_pos (truthy_arr hne)]
      exact safe_remembered hlist now fun _ ht => safe_read ht
  · rw [if_neg hd]
    have hlist : IsList known (.arr (download D q.response)) := ⟨_, hd, hdownload hd, rfl⟩
    refine Script.Safe.modify (fun t _ ht => ⟨ht.mem, ?_⟩) (fun t _ _ j _ => id) ?_
    · obtain hsame | hnone | hsome := shelfOf_saved hq now t.files
      · rw [hsame]
        exact ht.file
      · exact .inl hnone
      · exact .inr ⟨now, _, hd, hdownload hd, hsome⟩
    · exact fun t _ _ => safe_remembered hlist now fun _ _ => safe_return hlist

theorem safe_fromFile (hq : q.Storable D) (hdownload : download D q.response ≠ [] →
      known (download D q.response)) (hfallback : known fallback) (now : Instant D) (force : Bool) :
    (fromFile now force q).Safe (pact D known) i (Answers known) w := by
  refine Script.Safe.read fun t _ ht => ?_
  have hcached := cached_load ht q.fails
  generalize Store.load D cacheFile .null q.fails t.files = cached at hcached
  have hrefresh : ∀ u : World D, (refresh now cached q).Safe (pact D known) i (Answers known) u :=
    fun u => safe_refresh hq hdownload hfallback now hcached
  by_cases hforce : (cached.truthy && !force) = true
  · rw [if_pos hforce]
    obtain rfl | ⟨τ, items, hne, hknown, rfl⟩ := hcached
    · simp [Json.truthy] at hforce
    · have hlist : IsList known (.arr items) := ⟨items, hne, hknown, rfl⟩
      rw [(getOr_record τ items _).1, (getOr_record τ items _).2]
      show (if (Json.arr items).truthy = true then _ else _ : Step D Json).Safe _ _ _ _
      rw [if_pos (truthy_arr hne)]
      show (if (decide (now.value - τ.value < cacheTtl)) = true then _ else _ :
        Step D Json).Safe _ _ _ _
      split_ifs
      · exact safe_remembered hlist now fun _ _ => safe_return hlist
      · exact hrefresh t
  · rw [if_neg hforce]
    exact hrefresh t

theorem safe_loadUniverse (hq : q.Storable D) (hdownload : download D q.response ≠ [] →
      known (download D q.response)) (hfallback : known fallback) (force : Bool) :
    (loadUniverse force q).Safe (pact D known) i (Answers known) w := by
  refine Script.Safe.read fun t _ _ => Script.Safe.read fun u _ hu => ?_
  by_cases hmem : (u.mem.truthy && !force) = true
  · rw [if_pos hmem]
    have hne : u.mem ≠ .null := by
      intro hnull
      rw [hnull] at hmem
      simp [Json.truthy] at hmem
    refine Script.Safe.read fun v hv _ => ?_
    split_ifs
    · exact safe_read (hv hne)
    · exact safe_fromFile hq hdownload hfallback t.clock force
  · rw [if_neg hmem]
    exact safe_fromFile hq hdownload hfallback t.clock force

end Threads

/-! ### Lookups that overlap -/

structure Request where
  force : Bool
  query : Query

def program (r : Request) (_ : ℕ) : Step D Json := loadUniverse r.force r.query

/-- The clock shows another time. -/
def setClock (t : Instant D) (w : World D) : World D := { w with clock := t }

/-- The threads after a list of events, for a process that starts with the files of `w`. -/
def overlapping (events : List (Scripts.Event Request (Instant D))) (w : World D) :
    Pool Request (World D) Fault Json :=
  Pool.run program setClock events w.restarted

/-- The file holds no universe, or one that was saved. -/
def FileOk (w : World D) : Prop :=
  shelfOf D w.files cacheFile = none ∨ ∃ (t : Instant D) (items : List Json), items ≠ [] ∧
    shelfOf D w.files cacheFile = some (record t items)

/-- **However the lookups overlap, none raises, and each answers with the built-in list, the list that
the file held at first, or a list that a lookup of the run has downloaded**, never with an empty one:
whatever the provider answers, whichever reads fail and wherever writes of the file are interrupted. -/
theorem universe_accounted (w : World D) (hfile : FileOk w)
    (events : List (Scripts.Event Request (Instant D)))
    (hevents : ∀ r, Scripts.Event.start r ∈ events → r.query.Storable D) (i : ℕ)
    (t : Thread Request (World D) Fault Json) (r : Except Fault Json)
    (ht : (overlapping events w).threads[i]? = some t) (hr : t.script = .done r) :
    ∃ items, r = .ok (.arr items) ∧ items ≠ [] ∧
      (items = fallback ∨ (∃ τ : Instant D, shelfOf D w.files cacheFile = some (record τ items)) ∨
        ∃ request, Scripts.Event.start request ∈ events ∧ items = download D request.query.response) := by
  let known : List Json → Prop := fun items => items = fallback ∨
    (∃ τ : Instant D, shelfOf D w.files cacheFile = some (record τ items)) ∨
      ∃ request, Scripts.Event.start request ∈ events ∧ items = download D request.query.response
  have hsound : Sound known w.restarted := by
    refine ⟨.inl rfl, hfile.imp id ?_⟩
    rintro ⟨τ, items, hne, hrecord⟩
    exact ⟨τ, items, hne, .inr (.inl ⟨τ, hrecord⟩), hrecord⟩
  have hkeeps : Keeps (pact D known) (program (D := D)) setClock
      (fun request => Scripts.Event.start request ∈ events) (fun _ _ => True)
      (fun _ _ _ => Answers known) := by
    refine ⟨fun _ _ _ _ h => h, fun _ _ _ _ _ _ _ h => h, fun τ s h => ⟨h.mem, h.file⟩,
      fun _ _ _ _ => id, fun request j s hrequest _ _ => ?_⟩
    exact safe_loadUniverse (hevents request hrequest)
      (fun _ => .inr (.inr ⟨request, hrequest, rfl⟩)) (.inl rfl) request.force
  have hproper := Pool.run_proper hkeeps hsound (fun _ => trivial) events fun _ h => h
  obtain ⟨x, rfl, items, hne, hknown, rfl⟩ := hproper.ended ht hr
  exact ⟨items, rfl, hne, hknown⟩

/-- A decoder that knows one float. -/
def oneFloat : Decoder := { float := fun _ => .finite 0 "0.0", depth := 6, digits := 4300 }

def zero : Instant oneFloat where
  value := 0
  text := "0.0"
  reads := rfl

def unanswered : Query := { fails := false, response := .failed, outcome := .refused }

def kept : List Json := [listed "320007" "诺安成长混合" "混合型-偏股" "NACZHH"]

/-- A file that was saved at the time zero. -/
def stored : Files := Store.save cacheFile (record zero kept) .written fun _ => .missing

theorem shelfOf_stored : shelfOf oneFloat stored cacheFile = some (record zero kept) := by
  have hproper : (Store.Operation.save cacheFile (record zero kept) .written).Proper oneFloat := by
    refine ⟨rfl, by decide, by simp [Str.ofString], rfl, ?_⟩
    simp [kept, listed, Json.Storable, Py.storableAll, Py.storableFields, Json.text, Str.ofString,
      oneFloat]
  have hencodable : (record zero kept).encodable = true := rfl
  rw [stored, Store.shelfOf_save oneFloat hproper]
  simp [Store.Shelf.after, hencodable, WriteOutcome.whole]

/-- A lookup for which the script of two rows is served. -/
def answered : Query :=
  { fails := false
    response := .answered 200 (Str.ofString "var r = " ++ (Json.arr twoRows).spelled Py.oneLine 0 ++
      Str.ofString ";")
    outcome := .written }

theorem download_answered : download oneFloat answered.response = [rowFund] := by rfl

theorem storable_unanswered : unanswered.Storable oneFloat := ⟨by decide, by decide, trivial⟩

theorem storable_answered : answered.Storable oneFloat := by
  rw [Query.Storable, download_answered]
  refine ⟨by decide, ?_⟩
  simp [rowFund, Json.Storable, Py.storableAll, Py.storableFields, Json.text, Str.ofString, oneFloat]

/-- A lookup of a new process takes the list of the file, which is young enough. -/
theorem ahead_stored {files : Files} (memAt : ℚ)
    (h : Store.load oneFloat cacheFile .null false files = record zero kept) :
    (loadUniverse false unanswered).ahead 5 ⟨zero, files, .null, memAt⟩ =
      (.done (.ok (.arr kept)), ⟨zero, files, .arr kept, 0⟩) := by
  have hyoung : younger zero.value zero.json = .ok true := by
    simp [younger, Instant.json, zero, cacheTtl]
  have hkept : (Json.arr kept).truthy = true := truthy_arr (by simp [kept])
  have hnull : Json.null.truthy = false := rfl
  simp only [loadUniverse, fromFile, Script.read, Script.transaction, Script.lift, bind, Script.bind,
    Script.ahead, Script.committed, Except.map, unanswered, h, hnull, truthy_record,
    (getOr_record zero kept _).1, (getOr_record zero kept _).2, hkept, hyoung, Bool.false_and,
    Bool.true_and, Bool.not_false, Bool.false_eq_true, if_true, if_false]
  rfl

/-- A forced lookup takes the list that is served to it. -/
theorem ahead_answered {w : World oneFloat} (hclock : w.clock = zero) (w' : World oneFloat) :
    ((loadUniverse true answered).ahead 1 w).1.ahead 5 w' =
      (.done (.ok (.arr [rowFund])),
        { w' with
          files := Store.save cacheFile (record zero [rowFund]) .written w'.files
          mem := .arr [rowFund]
          memAt := 0 }) := by
  simp only [loadUniverse, fromFile, refresh, Script.read, Script.transaction, bind, Script.bind,
    Script.ahead, Script.committed, Except.map, hclock, download_answered, Bool.not_true,
    Bool.and_false]
  rfl

/-- One lookup that finds a file and one that asks for a new list, at once. -/
theorem universe_accounted_forced :
    let w : World oneFloat := { clock := zero, files := stored, mem := .null, memAt := 0 }
    let found : Request := { force := false, query := unanswered }
    let forced : Request := { force := true, query := answered }
    let events := [.start found, .start forced, .move 1] ++ List.replicate 5 (.move 0) ++
      List.replicate 5 (.move 1)
    let scripts := (overlapping events w).threads.map Thread.script
    scripts = [.done (.ok (.arr kept)), .done (.ok (.arr [rowFund]))] ∧
      ∀ items, (.done (.ok (.arr items))) ∈ scripts → items = fallback ∨
        (∃ τ : Instant oneFloat, shelfOf oneFloat stored cacheFile = some (record τ items)) ∨
        ∃ request, Scripts.Event.start request ∈ events ∧
          items = download oneFloat request.query.response := by
  intro w found forced events scripts
  have hload : Store.load oneFloat cacheFile .null false stored = record zero kept := by
    rw [Store.load_eq, shelfOf_stored]
    rfl
  have hstart : [.start found, .start forced, .move 1].foldl (Pool.after program setClock)
      { threads := [], state := w.restarted } =
        { threads := [⟨found, w.restarted, loadUniverse false unanswered⟩,
            ⟨forced, w.restarted, ((loadUniverse true answered).ahead 1 w.restarted).1⟩]
          state := w.restarted } := rfl
  have hscripts : scripts = [.done (.ok (.arr kept)), .done (.ok (.arr [rowFund]))] := by
    have hfirst : (loadUniverse false unanswered).ahead 5 w.restarted = _ :=
      ahead_stored 0 hload
    simp only [scripts, events, overlapping, Pool.run]
    rw [List.foldl_append, List.foldl_append, hstart, Pool.foldl_move _ _ 5 0 rfl, hfirst,
      Pool.foldl_move _ _ 5 1 rfl]
    simp only [ahead_answered (w := w.restarted) rfl]
    rfl
  have hevents : ∀ r, Scripts.Event.start r ∈ events → r.query.Storable oneFloat := by
    intro r hr
    obtain rfl | rfl : r = found ∨ r = forced := by simpa [events] using hr
    · exact storable_unanswered
    · exact storable_answered
  refine ⟨hscripts, fun items hitems => ?_⟩
  obtain ⟨t, ht, hdone⟩ := List.mem_map.1 hitems
  obtain ⟨i, hi⟩ := List.mem_iff_getElem?.1 ht
  obtain ⟨items', heq, -, hknown⟩ := universe_accounted w
    (.inr ⟨zero, kept, by simp [kept], shelfOf_stored⟩) events hevents i t _ hi hdone
  cases heq
  exact hknown

end QuantFlow.Universe
