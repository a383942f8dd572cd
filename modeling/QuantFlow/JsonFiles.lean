/-
**The JSON files.**

`backend/app/store.py` keeps values in files: `save` writes the indented text of a value, `load`
decodes it and answers with a default if the file is missing, cannot be read or holds no value.  Both
hold one lock, and neither raises.  A write empties the file first; if it is interrupted, the file
holds a part of the text, which may end in the middle of a character, and a value with a string that
has no UTF-8 form leaves the file empty.

The files stand for a shelf of values, one for each name.  Every run of the file operations is a run
on the shelf: a file is read back as the value that was written last, and one whose write was
interrupted as missing, wherever it was interrupted.

Main definitions:

* `load`, `save` — the file operations, on texts;
* `shelfOf` — the shelf that the files stand for;
* `Shelf.after` — the operations on a shelf.

Main results:

* `shelfOf_save` — a write, seen on the shelf;
* `load_after_run` — **what is loaded after a run is what the shelf holds**.
-/

import QuantFlow.JsonText

namespace QuantFlow.Store

open Py (Cp Decoder Json Str)

/-! ### The files -/

inductive Content
  | missing
  | undecodable
  | text (s : Str)

/-- The files of the data directory, by name. -/
abbrev Files := String → Content

/-- How a write ends: with the whole text, before the file was opened, or after a number of code
points, `broken` if in the middle of the next one. -/
inductive WriteOutcome
  | written
  | refused
  | cut (count : ℕ) (broken : Bool)

/-- What a write that opened the file leaves in it. -/
def WriteOutcome.content (outcome : WriteOutcome) (text : Str) : Content :=
  match outcome with
  | .cut count broken => if broken then .undecodable else .text (text.take count)
  | _ => .text text

/-- `save(name, data)`.  The text is encoded after the file was opened. -/
def save (name : String) (data : Json) (outcome : WriteOutcome) (files : Files) : Files :=
  match outcome with
  | .refused => files
  | outcome =>
    let text := data.dumpsIndent 2
    Function.update files name (if text.encodable then outcome.content text else .text [])

variable (D : Decoder)

/-- The value that a file holds, if any. -/
def Content.value? : Content → Option Json
  | .text s => (D.loads s).toOption
  | _ => none

/-- `load(name, default)`; `fails` if the file cannot be read. -/
def load (name : String) (default : Json) (fails : Bool) (files : Files) : Json :=
  match files name with
  | .missing => default
  | content => if fails then default else (content.value? D).getD default

inductive Operation
  | save (name : String) (data : Json) (outcome : WriteOutcome)
  | load (name : String) (default : Json) (fails : Bool)

def Operation.run (op : Operation) (files : Files) : Files :=
  match op with
  | .save name data outcome => Store.save name data outcome files
  | .load _ _ _ => files

/-! ### The shelf -/

abbrev Shelf := String → Option Json

def shelfOf (files : Files) : Shelf := fun name => (files name).value? D

/-- The whole text is in the file. -/
def WriteOutcome.whole (outcome : WriteOutcome) (text : Str) : Bool :=
  match outcome with
  | .written => true
  | .refused => false
  | .cut count broken => !broken && text.length ≤ count

/-- A write puts the value on the shelf, or leaves its place empty. -/
def Shelf.after (shelf : Shelf) : Operation → Shelf
  | .save _ _ .refused => shelf
  | .save name data outcome =>
    Function.update shelf name
      (if data.encodable && outcome.whole (data.dumpsIndent 2) then some data else none)
  | .load _ _ _ => shelf

/-- A list or a dictionary. -/
def isContainer : Json → Bool
  | .arr _ => true
  | .obj _ => true
  | _ => false

/-- Values that are stored: lists and dictionaries whose text is read back. -/
def Operation.Proper : Operation → Prop
  | .save _ data _ => isContainer data = true ∧ data.Storable D D.depth
  | .load _ _ _ => True

/-! ### A run of operations -/

theorem loads_nil : (D.loads []).toOption = none := by
  cases hd : D.depth <;> simp [Decoder.loads, hd, Py.skip, Decoder.value, Except.toOption]

theorem open_spelled {x : Json} (h : isContainer x = true) (L : Py.Layout) (level : ℕ) :
    ∃ u, x.spelled L level = .char '[' :: u ∨ x.spelled L level = .char '{' :: u := by
  cases x with
  | arr elems =>
    simp only [Json.spelled, Py.Layout.wrap]
    split_ifs
    · exact ⟨_, .inl rfl⟩
    · exact ⟨_, .inl rfl⟩
  | obj fields =>
    simp only [Json.spelled, Py.Layout.wrap]
    split_ifs
    · exact ⟨_, .inr rfl⟩
    · exact ⟨_, .inr rfl⟩
  | null => cases h
  | bool b => cases h
  | int n => cases h
  | float f => cases h
  | str s => cases h

/-- What a write leaves in the file is the value, if the whole text is there, and otherwise none. -/
theorem value?_content {data : Json} (hcontainer : isContainer data = true)
    (hdata : data.Storable D D.depth) {outcome : WriteOutcome} (hopened : outcome ≠ .refused) :
    (outcome.content (data.dumpsIndent 2)).value? D =
      if outcome.whole (data.dumpsIndent 2) then some data else none := by
  have hreads : D.Reads D.depth data (data.dumpsIndent 2) :=
    Py.reads_spelled D (Py.indented 2) 0 D.depth data hdata
  have hloads : D.loads (data.dumpsIndent 2) = .ok data := by
    simpa using Py.loads_of_reads D hreads (Py.blank_spaces 0)
  cases outcome with
  | refused => exact absurd rfl hopened
  | written => simp [WriteOutcome.content, WriteOutcome.whole, Content.value?, hloads, Except.toOption]
  | cut count broken =>
    cases broken with
    | true => simp [WriteOutcome.content, WriteOutcome.whole, Content.value?]
    | false =>
      simp only [WriteOutcome.content, WriteOutcome.whole, Content.value?, Bool.false_eq_true,
        if_false, Bool.not_false, Bool.true_and, decide_eq_true_eq]
      by_cases hcount : (data.dumpsIndent 2).length ≤ count
      · rw [List.take_of_length_le hcount, hloads, if_pos hcount]
        rfl
      · rw [if_neg hcount]
        have hrest : (data.dumpsIndent 2).drop count ≠ [] := by
          rw [ne_eq, List.drop_eq_nil_iff]
          exact hcount
        have hcut := Py.loads_cut D hreads (open_spelled hcontainer (Py.indented 2) 0)
          (List.take_append_drop count _).symm hrest
        cases hs : D.loads ((data.dumpsIndent 2).take count) with
        | error e => rfl
        | ok y => exact absurd hs (hcut y)

/-- **A write, seen on the shelf.** -/
theorem shelfOf_save {name : String} {data : Json} {outcome : WriteOutcome}
    (h : (Operation.save name data outcome).Proper D) (files : Files) :
    shelfOf D (save name data outcome files) =
      (shelfOf D files).after (.save name data outcome) := by
  have hopened : outcome ≠ .refused → shelfOf D (save name data outcome files) =
      Function.update (shelfOf D files) name
        (if data.encodable && outcome.whole (data.dumpsIndent 2) then some data else none) := by
    intro hopened
    have hsave : save name data outcome files = Function.update files name
        (if Str.encodable (data.dumpsIndent 2) then outcome.content (data.dumpsIndent 2)
          else .text []) := by
      cases outcome with
      | refused => exact absurd rfl hopened
      | written => rfl
      | cut count broken => rfl
    have hencodable : Str.encodable (data.dumpsIndent 2) = data.encodable :=
      Json.encodable_spelled (Py.indented 2) 0 data
    rw [hsave, hencodable]
    funext n
    by_cases hn : n = name
    · subst hn
      simp only [shelfOf, Function.update_self]
      cases data.encodable with
      | true => simpa using value?_content D h.1 h.2 hopened
      | false => simpa [Content.value?] using loads_nil D
    · simp [shelfOf, Function.update_of_ne hn]
  cases outcome with
  | refused => rfl
  | written => exact hopened (by simp)
  | cut count broken => exact hopened (by simp)

theorem load_eq (name : String) (default : Json) (files : Files) :
    load D name default false files = (shelfOf D files name).getD default := by
  unfold load shelfOf
  cases files name <;> rfl

/-- **What is loaded after a run is what the shelf holds.**  From any files, after any sequence of
operations with any failures, a file is read back as the value that was written to it last, the same
to the last entry and in the same order, and as missing if that write was interrupted or its text has
no UTF-8 form. -/
theorem load_after_run (files : Files) (ops : List Operation) (hops : ∀ op ∈ ops, op.Proper D)
    (name : String) (default : Json) :
    load D name default false (ops.foldl (fun files op => op.run files) files) =
      (ops.foldl Shelf.after (shelfOf D files) name).getD default := by
  have hrun : shelfOf D (ops.foldl (fun files op => op.run files) files) =
      ops.foldl Shelf.after (shelfOf D files) := by
    induction ops generalizing files with
    | nil => rfl
    | cons op ops ih =>
      have hop : shelfOf D (op.run files) = (shelfOf D files).after op := by
        cases op with
        | save name data outcome => exact shelfOf_save D (hops _ (by simp)) files
        | load name default fails => rfl
      rw [List.foldl_cons, List.foldl_cons, ← hop]
      exact ih (op.run files) fun op' hop' => hops op' (by simp [hop'])
  rw [load_eq, hrun]

/-- A decoder that is not asked for a float. -/
def wholeNumbers : Decoder := { float := fun _ => .nan, depth := 3, digits := 4300 }

def oneSource : Json :=
  .arr [.obj [(Str.ofString "url", .text "a.xml"), (Str.ofString "type", .text "rss")]]

/-- The list is written, and a second write is interrupted after its bracket. -/
theorem load_after_run_interrupted :
    let ops := [Operation.save "sources" oneSource .written,
      .save "copy" oneSource (.cut 1 false), .load "sources" .null true]
    let files := ops.foldl (fun files op => op.run files) fun _ => .missing
    load wholeNumbers "sources" (.arr []) false files = oneSource ∧
      load wholeNumbers "copy" (.arr []) false files = .arr [] := by
  intro ops files
  have hproper : oneSource.Storable wholeNumbers 3 := by
    simp [oneSource, Json.Storable, Py.storableAll, Py.storableFields, Json.text, Str.ofString]
  have hops : ∀ op ∈ ops, op.Proper wholeNumbers := by
    simp [ops, Operation.Proper, isContainer, oneSource] at hproper ⊢
    exact hproper
  have hsource : load wholeNumbers "sources" (.arr []) false files = _ :=
    load_after_run wholeNumbers (fun _ => .missing) ops hops "sources" (.arr [])
  have hcopy : load wholeNumbers "copy" (.arr []) false files = _ :=
    load_after_run wholeNumbers (fun _ => .missing) ops hops "copy" (.arr [])
  rw [hsource, hcopy]
  have hencodable : oneSource.encodable = true := rfl
  have hlength : ¬(oneSource.dumpsIndent 2).length ≤ 1 := by
    simp [oneSource, Json.dumpsIndent, Json.spelled, Py.spelledAll, Py.Layout.wrap, Py.joined]
  refine ⟨?_, ?_⟩
  · simp [ops, Shelf.after, hencodable, WriteOutcome.whole]
  · simp [ops, Shelf.after, hencodable, WriteOutcome.whole, hlength]

end QuantFlow.Store
