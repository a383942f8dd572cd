/-
**Decoding JSON text.**

`json.loads` of a text, as the C scanner of the `json` module does it: values are read from the left,
numbers and literals as far as they go, blanks are skipped between the parts of a list or a dictionary,
and nothing but blanks may follow.  A dictionary keeps the place of the first of equal keys and the
value of the last.  The decoder refuses text that is nested too deeply and integers with too many
digits; the float of a decimal text is a parameter.

A reader that has read a value from a text reads the same value if the text goes on with what may
follow a value.  So the text of a list or a dictionary can be read part by part, and a text that was
cut short is not taken for a shorter one.

Main definitions:

* `Decoder`, `Decoder.value`, `Decoder.loads` — the decoder;
* `Follows`, `ReadsOn` — what may follow a value, and a reader that reads on.

Main results:

* `Decoder.readsOn_value` — **what was read from a text is read when the text goes on**.
-/

import Mathlib.Data.List.Nodup
import QuantFlow.PyValues

namespace Py

/-! ### Blanks -/

inductive DecodeError
  | malformed
  | tooDeep
  | tooLong
  deriving DecidableEq

abbrev Parsed (α : Type) := Except DecodeError (α × Str)

def isBlank : Cp → Bool
  | .char c => c = ' ' || c = '\t' || c = '\n' || c = '\r'
  | .lone _ => false

def skip (s : Str) : Str := s.dropWhile isBlank

/-! ### Strings -/

def hexValue : Cp → Option ℕ
  | .lone _ => none
  | .char c =>
    if '0' ≤ c ∧ c ≤ '9' then some (c.toNat - 48)
    else if 'a' ≤ c ∧ c ≤ 'f' then some (c.toNat - 87)
    else if 'A' ≤ c ∧ c ≤ 'F' then some (c.toNat - 55)
    else none

/-- Four hexadecimal digits. -/
def codeUnit : Str → Option (ℕ × Str)
  | a :: b :: c :: d :: s => do
    let a ← hexValue a
    let b ← hexValue b
    let c ← hexValue c
    let d ← hexValue d
    some (((a * 16 + b) * 16 + c) * 16 + d, s)
  | _ => none

theorem surrogate_lt {n : ℕ} (h : 0xD800 ≤ n ∧ n < 0xE000) : n - 0xD800 < 2048 := by
  omega

/-- The code point of a number below `0x10000`. -/
def codePoint (n : ℕ) : Cp :=
  if h : 0xD800 ≤ n ∧ n < 0xE000 then .lone ⟨n - 0xD800, surrogate_lt h⟩ else .char (Char.ofNat n)

/-- The code point of a `\u` escape with the number `n`; a high surrogate takes a low one that follows
as a second escape. -/
def codePointFrom (n : ℕ) (s : Str) : Option (Cp × Str) :=
  if 0xD800 ≤ n ∧ n < 0xDC00 ∧ s.take 2 = [.char '\\', .char 'u'] then do
    let (m, t) ← codeUnit (s.drop 2)
    if 0xDC00 ≤ m ∧ m < 0xE000 then
      some (.char (Char.ofNat (0x10000 + (n - 0xD800) * 0x400 + (m - 0xDC00))), t)
    else some (codePoint n, s)
  else some (codePoint n, s)

def unitEscape (s : Str) : Option (Cp × Str) := do
  let (n, s) ← codeUnit s
  codePointFrom n s

/-- What stands for itself or for a control character after a backslash. -/
def plainEscape (c : Char) : Option Char :=
  if c = '"' ∨ c = '\\' ∨ c = '/' then some c
  else if c = 'b' then some (Char.ofNat 8)
  else if c = 'f' then some (Char.ofNat 12)
  else if c = 'n' then some '\n'
  else if c = 'r' then some '\r'
  else if c = 't' then some '\t'
  else none

/-- An escape, after its backslash. -/
def escape : Str → Option (Cp × Str)
  | .char c :: s => if c = 'u' then unitEscape s else (plainEscape c).map fun c => (.char c, s)
  | _ => none

def isControl : Cp → Bool
  | .char c => c.toNat < 32
  | .lone _ => false

/-- `scanstring`, after the opening quote.  The number bounds the code points read. -/
def scanString : ℕ → Str → Option (Str × Str)
  | n + 1, c :: s =>
    if c = .char '"' then some ([], s)
    else if c = .char '\\' then do
      let (c, s) ← escape s
      let (t, s) ← scanString n s
      some (c :: t, s)
    else if isControl c then none
    else do
      let (t, s) ← scanString n s
      some (c :: t, s)
  | _, _ => none

def stringFrom (s : Str) : Option (Str × Str) := scanString s.length s

/-! ### Numbers and literals -/

def isDigit : Cp → Bool
  | .char c => c.isDigit
  | .lone _ => false

def Cp.toChar : Cp → Char
  | .char c => c
  | .lone _ => '0'

/-- `0`, or digits that do not begin with it. -/
def natural (s : Str) : Option (Str × Str) :=
  if s.head? = some (.char '0') then some ([.char '0'], s.tail)
  else if s.takeWhile isDigit = [] then none
  else some (s.takeWhile isDigit, s.dropWhile isDigit)

/-- `(\.\d+)?`. -/
def fraction (s : Str) : Str × Str :=
  if s.head? = some (.char '.') ∧ s.tail.takeWhile isDigit ≠ [] then
    (.char '.' :: s.tail.takeWhile isDigit, s.tail.dropWhile isDigit)
  else ([], s)

/-- `[-+]?`. -/
def signLength : Str → ℕ
  | .char c :: _ => if c = '-' ∨ c = '+' then 1 else 0
  | _ => 0

/-- `([eE][-+]?\d+)?`. -/
def exponent (s : Str) : Str × Str :=
  let digits := s.drop (1 + signLength s.tail)
  if (s.head? = some (.char 'e') ∨ s.head? = some (.char 'E')) ∧ digits.takeWhile isDigit ≠ [] then
    (s.take (1 + signLength s.tail) ++ digits.takeWhile isDigit, digits.dropWhile isDigit)
  else ([], s)

/-- What the decoder is given: `float` of a decimal text, how deep lists and dictionaries may be
nested, and how many digits an integer may have. -/
structure Decoder where
  float : Str → Float64
  depth : ℕ
  digits : ℕ

variable (D : Decoder)

/-- The number of the parts of a decimal text. -/
def Decoder.numeral (negative : Bool) (digits f e : Str) : Except DecodeError Json :=
  if f ++ e = [] then
    let n := Nat.ofDigitChars 10 (digits.map Cp.toChar) 0
    if D.digits < digits.length then .error .tooLong
    else .ok (.int (if negative then -n else n))
  else .ok (.float (D.float ((if negative then [.char '-'] else []) ++ digits ++ f ++ e)))

/-- A number after its sign. -/
def Decoder.number (negative : Bool) (s : Str) : Parsed Json :=
  match natural s with
  | none => .error .malformed
  | some (digits, s) =>
    let (f, s) := fraction s
    let (e, s) := exponent s
    (D.numeral negative digits f e).map fun x => (x, s)

def literals : List (Str × Json) :=
  [(Str.ofString "null", .null), (Str.ofString "true", .bool true),
    (Str.ofString "false", .bool false), (Str.ofString "NaN", .float .nan),
    (Str.ofString "Infinity", .float (.inf false)), (Str.ofString "-Infinity", .float (.inf true))]

/-- A literal or a number. -/
def Decoder.atom (s : Str) : Parsed Json :=
  match literals.find? fun l => l.1.isPrefixOf s with
  | some (text, x) => .ok (x, s.drop text.length)
  | none =>
    if s.head? = some (.char '-') then D.number true s.tail else D.number false s

/-! ### Lists, dictionaries and values -/

/-- `d[key] = value`. -/
def Fields.put (d : Fields) (key : Str) (value : Json) : Fields :=
  if d.any fun f => f.1 = key then d.map fun f => if f.1 = key then (key, value) else f
  else d ++ [(key, value)]

/-- The parts of a list or a dictionary up to the closing bracket, from the first on, with what has
been put together.  The number bounds the parts read. -/
def parts {α β : Type} (part : Str → Parsed α) (add : β → α → β) (close : Char) :
    ℕ → β → Str → Parsed β
  | 0, _, _ => .error .malformed
  | n + 1, b, s =>
    match part s with
    | .error e => .error e
    | .ok (a, s) =>
      match skip s with
      | [] => .error .malformed
      | c :: s =>
        if c = .char close then .ok (add b a, s)
        else if c = .char ',' then parts part add close n (add b a) (skip s)
        else .error .malformed

/-- A list or a dictionary after its opening bracket. -/
def container {α β : Type} (part : Str → Parsed α) (add : β → α → β) (close : Char) (empty : β)
    (s : Str) : Parsed β :=
  match skip s with
  | [] => .error .malformed
  | c :: s =>
    if c = .char close then .ok (empty, s)
    else parts part add close (c :: s).length empty (c :: s)

section Containers

variable (value : Str → Parsed Json)

/-- A key with its value. -/
def entry (s : Str) : Parsed (Str × Json) :=
  if s.head? = some (.char '"') then
    match stringFrom s.tail with
    | none => .error .malformed
    | some (key, s) =>
      match skip s with
      | [] => .error .malformed
      | c :: s =>
        if c = .char ':' then (value (skip s)).map fun r => ((key, r.1), r.2)
        else .error .malformed
  else .error .malformed

def list (s : Str) : Parsed Json :=
  (container value (fun xs x => xs ++ [x]) ']' [] s).map fun r => (.arr r.1, r.2)

def dict (s : Str) : Parsed Json :=
  (container (entry value) (fun d (kv : Str × Json) => Fields.put d kv.1 kv.2) '}' [] s).map
    fun r => (.obj r.1, r.2)

end Containers

/-- `scan_once`; the number is the nesting that is left. -/
def Decoder.value : ℕ → Str → Parsed Json
  | _, [] => .error .malformed
  | depth, c :: s =>
    if c = .char '"' then
      match stringFrom s with
      | none => .error .malformed
      | some (t, s) => .ok (.str t, s)
    else if c = .char '[' then
      match depth with
      | 0 => .error .tooDeep
      | depth + 1 => list (Decoder.value depth) s
    else if c = .char '{' then
      match depth with
      | 0 => .error .tooDeep
      | depth + 1 => dict (Decoder.value depth) s
    else D.atom (c :: s)

/-- `json.loads(s)`. -/
def Decoder.loads (s : Str) : Except DecodeError Json :=
  if s.head? = some (.char (Char.ofNat 0xFEFF)) then .error .malformed
  else
    match D.value D.depth (skip s) with
    | .error e => .error e
    | .ok (x, rest) => if skip rest = [] then .ok x else .error .malformed

/-! ### Text that goes on

What was read from a text is also read when the text goes on, if the number or literal at its end
does not. -/

/-- What may follow a value. -/
def Follows (s : Str) : Prop :=
  ∀ c ∈ s.head?, isBlank c = true ∨ c = .char ',' ∨ c = .char ']' ∨ c = .char '}'

theorem skip_append {s t : Str} (h : skip s ≠ []) : skip (s ++ t) = skip s ++ t := by
  induction s with
  | nil => exact absurd rfl h
  | cons c s ih =>
    cases hc : isBlank c with
    | true =>
      have hskip : ∀ u : Str, skip (c :: u) = skip u := fun u => List.dropWhile_cons_of_pos hc
      rw [List.cons_append, hskip, hskip]
      rw [hskip] at h
      exact ih h
    | false =>
      have hskip : ∀ u : Str, skip (c :: u) = c :: u := by
        intro u
        exact List.dropWhile_cons_of_neg (by simp [hc])
      rw [List.cons_append, hskip, hskip, List.cons_append]

theorem follows_of_skip {s u : Str} {c : Cp} (h : skip s = c :: u)
    (hc : c = .char ',' ∨ c = .char ']' ∨ c = .char '}') (t : Str) : Follows (s ++ t) := by
  cases s with
  | nil => cases h
  | cons b s =>
    intro b' hb'
    obtain rfl : b = b' := by simpa using hb'
    cases hb : isBlank b with
    | true => exact .inl rfl
    | false =>
      have hskip : skip (b :: s) = b :: s := List.dropWhile_cons_of_neg (by simp [hb])
      rw [hskip] at h
      cases h
      exact .inr hc

theorem codeUnit_append {s r : Str} {n : ℕ} (h : codeUnit s = some (n, r)) (t : Str) :
    codeUnit (s ++ t) = some (n, r ++ t) := by
  rcases s with _ | ⟨a, _ | ⟨b, _ | ⟨c, _ | ⟨d, s⟩⟩⟩⟩
  · cases h
  · cases h
  · cases h
  · cases h
  · simp only [codeUnit, List.cons_append] at h ⊢
    cases ha : hexValue a <;> cases hb : hexValue b <;> cases hc : hexValue c <;>
      cases hd : hexValue d <;> simp_all

/-- A text of one code point is read as the rest of a string only if it is the closing quote. -/
theorem scanString_singleton {n : ℕ} {b : Cp} {p : Str × Str} (h : scanString n [b] = some p) :
    b = .char '"' := by
  cases n with
  | zero => cases h
  | succ n =>
    by_contra hb
    have hnil : scanString n [] = none := by cases n <;> rfl
    simp only [scanString, if_neg hb, escape, hnil] at h
    split_ifs at h <;> cases h

theorem codePointFrom_append {k n : ℕ} {s r : Str} {c : Cp} {p : Str × Str}
    (h : codePointFrom n s = some (c, r)) (hr : scanString k r = some p) (t : Str) :
    codePointFrom n (s ++ t) = some (c, r ++ t) := by
  unfold codePointFrom at h ⊢
  by_cases hpair : 0xD800 ≤ n ∧ n < 0xDC00 ∧ s.take 2 = [.char '\\', .char 'u']
  · obtain ⟨s', rfl⟩ : ∃ s', s = .char '\\' :: .char 'u' :: s' :=
      ⟨s.drop 2, by simpa [hpair.2.2] using (List.take_append_drop 2 s).symm⟩
    rw [if_pos hpair] at h
    rw [if_pos ⟨hpair.1, hpair.2.1, rfl⟩]
    simp only [List.cons_append, List.drop_succ_cons, List.drop_zero] at h ⊢
    cases hunit : codeUnit s' with
    | none =>
      rw [hunit] at h
      cases h
    | some q =>
      rw [hunit] at h
      rw [codeUnit_append hunit]
      simp only [Option.bind_eq_bind, Option.bind_some] at h ⊢
      split_ifs at h ⊢ <;> cases h <;> rfl
  · rw [if_neg hpair] at h
    cases h
    have hpair' : ¬(0xD800 ≤ n ∧ n < 0xDC00 ∧ (s ++ t).take 2 = [.char '\\', .char 'u']) := by
      -- the rest holds at least the closing quote, and only an escape begins with a backslash
      rcases s with _ | ⟨a, _ | ⟨b, s⟩⟩
      · cases k <;> cases hr
      · obtain rfl := scanString_singleton hr
        simp
      · exact hpair
    rw [if_neg hpair']

theorem escape_append {k : ℕ} {s r : Str} {c : Cp} {p : Str × Str} (h : escape s = some (c, r))
    (hr : scanString k r = some p) (t : Str) : escape (s ++ t) = some (c, r ++ t) := by
  rcases s with _ | ⟨b | i, s⟩
  · cases h
  · simp only [escape, List.cons_append] at h ⊢
    by_cases hb : b = 'u'
    · rw [if_pos hb] at h ⊢
      unfold unitEscape at h ⊢
      cases hunit : codeUnit s with
      | none =>
        rw [hunit] at h
        cases h
      | some q =>
        rw [hunit] at h
        rw [codeUnit_append hunit]
        exact codePointFrom_append h hr t
    · rw [if_neg hb] at h ⊢
      cases hp : plainEscape b with
      | none =>
        rw [hp] at h
        cases h
      | some b' =>
        rw [hp] at h
        cases h
        rfl
  · cases h

/-- What a string goes on with after its first code point. -/
theorem scanString_cases {n : ℕ} {c : Cp} {s u r : Str} (h : scanString (n + 1) (c :: s) = some (u, r)) :
    (c = .char '"' ∧ u = [] ∧ r = s) ∨
      ∃ b s' u', u = b :: u' ∧ scanString n s' = some (u', r) ∧ c ≠ .char '"' ∧
        ((c = .char '\\' ∧ escape s = some (b, s')) ∨
          (c ≠ .char '\\' ∧ isControl c = false ∧ b = c ∧ s' = s)) := by
  simp only [scanString] at h
  split_ifs at h with hquote hback hcontrol
  · cases h
    exact .inl ⟨hquote, rfl, rfl⟩
  · obtain ⟨⟨b, s'⟩, hescape, h⟩ := Option.bind_eq_some_iff.1 h
    obtain ⟨⟨u', r'⟩, hrest, h⟩ := Option.bind_eq_some_iff.1 h
    cases h
    exact .inr ⟨b, s', u', rfl, hrest, hquote, .inl ⟨hback, hescape⟩⟩
  · obtain ⟨⟨u', r'⟩, hrest, h⟩ := Option.bind_eq_some_iff.1 h
    cases h
    exact .inr ⟨c, s, u', rfl, hrest, hquote, .inr ⟨hback, by simpa using hcontrol, rfl, rfl⟩⟩

theorem scanString_escape {n : ℕ} {s s' u r : Str} {b : Cp} (hescape : escape s = some (b, s'))
    (hrest : scanString n s' = some (u, r)) :
    scanString (n + 1) (.char '\\' :: s) = some (b :: u, r) := by
  simp [scanString, hescape, hrest]

theorem scanString_plain {n : ℕ} {s u r : Str} {c : Cp} (hquote : c ≠ .char '"')
    (hback : c ≠ .char '\\') (hcontrol : isControl c = false) (hrest : scanString n s = some (u, r)) :
    scanString (n + 1) (c :: s) = some (c :: u, r) := by
  simp [scanString, hquote, hback, hcontrol, hrest]

theorem scanString_append {n m : ℕ} {s u r : Str} (h : scanString n s = some (u, r)) (hnm : n ≤ m)
    (t : Str) : scanString m (s ++ t) = some (u, r ++ t) := by
  induction n generalizing m s u with
  | zero => cases h
  | succ n ih =>
    cases m with
    | zero => omega
    | succ m =>
      cases s with
      | nil => cases h
      | cons c s =>
        rw [List.cons_append]
        obtain ⟨rfl, rfl, rfl⟩ | ⟨b, s', u', rfl, hrest, hquote, hc⟩ := scanString_cases h
        · rfl
        · have hrest' : scanString m (s' ++ t) = some (u', r ++ t) := ih hrest (by omega)
          obtain ⟨rfl, hescape⟩ | ⟨hback, hcontrol, rfl, rfl⟩ := hc
          · exact scanString_escape (escape_append hescape hrest t) hrest'
          · exact scanString_plain hquote hback hcontrol hrest'

theorem stringFrom_append {s u r : Str} (h : stringFrom s = some (u, r)) (t : Str) :
    stringFrom (s ++ t) = some (u, r ++ t) :=
  scanString_append h (by simp) t

/-- The text does not begin with a code point of the given kind. -/
def Clear (p : Cp → Bool) (s : Str) : Prop := ∀ c ∈ s.head?, p c = false

theorem clear_cons {p : Cp → Bool} {c : Cp} {s : Str} : Clear p (c :: s) ↔ p c = false := by
  simp [Clear]

theorem Clear.mono {p q : Cp → Bool} {s : Str} (h : Clear q s) (hpq : ∀ c, q c = false → p c = false) :
    Clear p s :=
  fun c hc => hpq c (h c hc)

theorem takeWhile_of_clear {p : Cp → Bool} {s : Str} (h : Clear p s) :
    s.takeWhile p = [] ∧ s.dropWhile p = s := by
  cases s with
  | nil => exact ⟨rfl, rfl⟩
  | cons c s =>
    rw [clear_cons] at h
    simp [h]

theorem takeWhile_append_of_clear {p : Cp → Bool} {s t : Str} (h : Clear p (s.dropWhile p ++ t)) :
    (s ++ t).takeWhile p = s.takeWhile p ∧ (s ++ t).dropWhile p = s.dropWhile p ++ t := by
  induction s with
  | nil => exact takeWhile_of_clear h
  | cons c s ih =>
    cases hc : p c with
    | true =>
      rw [List.dropWhile_cons_of_pos hc] at h
      obtain ⟨htake, hdrop⟩ := ih h
      rw [List.cons_append, List.takeWhile_cons_of_pos hc, List.takeWhile_cons_of_pos hc,
        List.dropWhile_cons_of_pos hc, List.dropWhile_cons_of_pos hc, htake, hdrop]
      exact ⟨rfl, rfl⟩
    | false => simp [hc]

/-- The code points a number may go on with after its digits. -/
def isExponentMark (c : Cp) : Bool := c = .char 'e' || c = .char 'E'

def isPoint (c : Cp) : Bool := c = .char '.'

theorem clear_of_follows {s : Str} (h : Follows s) :
    Clear (fun c => isDigit c || isPoint c || isExponentMark c) s := by
  intro c hc
  cases c with
  | lone k => simp [isDigit, isPoint, isExponentMark]
  | char c =>
    obtain hblank | hcomma | hbracket | hbrace := h _ hc
    · simp only [isBlank, Bool.or_eq_true, decide_eq_true_eq] at hblank
      rcases hblank with ((rfl | rfl) | rfl) | rfl <;> rfl
    · cases hcomma
      rfl
    · cases hbracket
      rfl
    · cases hbrace
      rfl

theorem exponent_of_clear {s : Str} (h : Clear isExponentMark s) : exponent s = ([], s) := by
  unfold exponent
  have hhead : ¬(s.head? = some (.char 'e') ∨ s.head? = some (.char 'E')) := by
    rintro (he | he) <;> exact absurd (h _ he) (by decide)
  simp only [hhead, false_and, if_false]

theorem exponent_append {s t : Str}
    (h : Clear (fun c => isDigit c || isPoint c || isExponentMark c) ((exponent s).2 ++ t)) :
    exponent (s ++ t) = ((exponent s).1, (exponent s).2 ++ t) ∧
      Clear (fun c => isDigit c || isPoint c) (s ++ t) := by
  by_cases hs : (s.head? = some (.char 'e') ∨ s.head? = some (.char 'E')) ∧
      (s.drop (1 + signLength s.tail)).takeWhile isDigit ≠ []
  · obtain ⟨hmark, hdigits⟩ := hs
    rcases s with _ | ⟨c, _ | ⟨b, s⟩⟩
    · simp at hmark
    · simp [signLength] at hdigits
    · -- the sign and the first digit are there, so both texts have the same mark and sign
      have hsign : signLength (b :: (s ++ t)) = signLength (b :: s) := by cases b <;> rfl
      have hle : 1 + signLength (b :: s) ≤ (c :: b :: s).length := by
        cases b <;> simp [signLength]
        split_ifs <;> omega
      have hexponent : ∀ u : Str, (u.head? = some (.char 'e') ∨ u.head? = some (.char 'E')) →
          (u.drop (1 + signLength u.tail)).takeWhile isDigit ≠ [] →
          exponent u = (u.take (1 + signLength u.tail) ++
            (u.drop (1 + signLength u.tail)).takeWhile isDigit,
              (u.drop (1 + signLength u.tail)).dropWhile isDigit) := by
        intro u h₁ h₂
        exact if_pos ⟨h₁, h₂⟩
      have hs := hexponent _ hmark hdigits
      rw [hs] at h ⊢
      obtain ⟨htake, hdrop⟩ := takeWhile_append_of_clear (h.mono (by simp +contextual))
      have happend : (c :: b :: s).drop (1 + signLength (b :: s)) ++ t =
          (c :: b :: (s ++ t)).drop (1 + signLength (b :: s)) :=
        (List.drop_append_of_le_length hle).symm
      have htail : (c :: b :: s).take (1 + signLength (b :: s)) =
          (c :: b :: (s ++ t)).take (1 + signLength (b :: s)) :=
        (List.take_append_of_le_length hle).symm
      simp only [List.tail_cons, happend] at htake hdrop hdigits
      simp only [List.tail_cons, List.cons_append]
      rw [hexponent (c :: b :: (s ++ t)) hmark (by simpa only [List.tail_cons, hsign, htake])]
      simp only [List.tail_cons, hsign, htake, hdrop, htail, true_and]
      rw [clear_cons]
      rcases hmark with hc | hc <;> cases hc <;> rfl
  · have hs' : exponent s = ([], s) := if_neg hs
    rw [hs'] at h ⊢
    exact ⟨exponent_of_clear (h.mono (by simp +contextual)), h.mono (by simp +contextual)⟩

theorem fraction_append {s t : Str}
    (h : Clear (fun c => isDigit c || isPoint c) ((fraction s).2 ++ t)) :
    fraction (s ++ t) = ((fraction s).1, (fraction s).2 ++ t) ∧ Clear isDigit (s ++ t) := by
  by_cases hs : s.head? = some (.char '.') ∧ s.tail.takeWhile isDigit ≠ []
  · obtain ⟨hpoint, hdigits⟩ := hs
    cases s with
    | nil => cases hpoint
    | cons c s =>
      cases hpoint
      have hfraction : ∀ u : Str, u.takeWhile isDigit ≠ [] →
          fraction (.char '.' :: u) =
            (.char '.' :: u.takeWhile isDigit, u.dropWhile isDigit) := by
        intro u hu
        exact if_pos ⟨rfl, hu⟩
      rw [hfraction s hdigits] at h ⊢
      obtain ⟨htake, hdrop⟩ := takeWhile_append_of_clear (h.mono (by simp +contextual))
      rw [List.cons_append, hfraction _ (by rwa [htake]), htake, hdrop]
      exact ⟨rfl, clear_cons.2 rfl⟩
  · have hs' : fraction s = ([], s) := if_neg hs
    rw [hs'] at h ⊢
    refine ⟨if_neg ?_, h.mono (by simp +contextual)⟩
    rintro ⟨hpoint, -⟩
    exact absurd (h _ hpoint) (by decide)

theorem natural_append {s digits r t : Str} (h : natural s = some (digits, r))
    (hclear : Clear isDigit (r ++ t)) : natural (s ++ t) = some (digits, r ++ t) := by
  cases s with
  | nil => cases h
  | cons c s =>
    by_cases hzero : c = .char '0'
    · subst hzero
      cases h
      rfl
    · have hnatural : ∀ u : Str, natural (c :: u) =
          if (c :: u).takeWhile isDigit = [] then none
          else some ((c :: u).takeWhile isDigit, (c :: u).dropWhile isDigit) := by
        intro u
        simp [natural, hzero]
      rw [hnatural] at h
      rw [List.cons_append, hnatural, ← List.cons_append]
      by_cases hnone : (c :: s).takeWhile isDigit = []
      · rw [if_pos hnone] at h
        cases h
      · rw [if_neg hnone] at h
        cases h
        obtain ⟨htake, hdrop⟩ := takeWhile_append_of_clear hclear
        rw [htake, hdrop, if_neg hnone]

theorem Decoder.number_append {negative : Bool} {s r t : Str} {x : Json}
    (h : D.number negative s = .ok (x, r)) (hfollows : Follows (r ++ t)) :
    D.number negative (s ++ t) = .ok (x, r ++ t) := by
  unfold Decoder.number at h ⊢
  cases hnatural : natural s with
  | none =>
    rw [hnatural] at h
    cases h
  | some p =>
    obtain ⟨digits, s⟩ := p
    rw [hnatural] at h
    simp only at h
    cases hnumeral : D.numeral negative digits (fraction s).1 (exponent (fraction s).2).1 with
    | error e =>
      rw [hnumeral] at h
      cases h
    | ok y =>
      rw [hnumeral] at h
      cases h
      obtain ⟨hexponent, hclear⟩ := exponent_append (clear_of_follows hfollows)
      obtain ⟨hfraction, hclear⟩ := fraction_append hclear
      rw [natural_append hnatural hclear]
      simp only [hfraction, hexponent, hnumeral]
      rfl

theorem Decoder.digit_of_number {negative : Bool} {s : Str} {p : Json × Str}
    (h : D.number negative s = .ok p) : ∃ c u, s = c :: u ∧ isDigit c = true := by
  unfold Decoder.number natural at h
  cases s with
  | nil => cases h
  | cons c s =>
    refine ⟨c, s, rfl, ?_⟩
    by_contra hc
    have hzero : c ≠ .char '0' := by
      rintro rfl
      exact hc rfl
    simp [hzero, hc] at h

/-- A text that begins as a number does is none of the literals. -/
theorem find?_literals_of_digit {c : Cp} (hc : isDigit c = true) (s : Str) :
    literals.find? (fun l => l.1.isPrefixOf (c :: s)) = none ∧
      literals.find? (fun l => l.1.isPrefixOf (.char '-' :: c :: s)) = none := by
  have hne : ∀ b : Char, b.isDigit = false → (Cp.char b == c) = false := by
    intro b hb
    rw [beq_eq_false_iff_ne]
    rintro rfl
    rw [isDigit, hb] at hc
    cases hc
  constructor <;>
    simp [literals, Str.ofString, List.isPrefixOf, hne 'n' (by decide), hne 't' (by decide),
      hne 'f' (by decide), hne 'N' (by decide), hne 'I' (by decide), hne '-' (by decide)]

theorem find?_literals {l : Str × Json} (hl : l ∈ literals) (s : Str) :
    literals.find? (fun l' => l'.1.isPrefixOf (l.1 ++ s)) = some l := by
  simp only [literals, List.mem_cons, List.not_mem_nil, or_false] at hl
  rcases hl with rfl | rfl | rfl | rfl | rfl | rfl <;>
    simp [literals, Str.ofString, List.isPrefixOf]

theorem Decoder.atom_literal {l : Str × Json} (hl : l ∈ literals) (s : Str) :
    D.atom (l.1 ++ s) = .ok (l.2, s) := by
  simp [Decoder.atom, find?_literals hl]

theorem Decoder.atom_number {c : Cp} (hc : isDigit c = true) (s : Str) :
    D.atom (c :: s) = D.number false (c :: s) ∧
      D.atom (.char '-' :: c :: s) = D.number true (c :: s) := by
  obtain ⟨hplain, hminus⟩ := find?_literals_of_digit hc s
  have hne : c ≠ .char '-' := by
    rintro rfl
    cases hc
  simp [Decoder.atom, hplain, hminus, hne]

theorem Decoder.atom_cases {s : Str} {p : Json × Str} (h : D.atom s = .ok p) :
    (∃ l ∈ literals, s = l.1 ++ p.2 ∧ p.1 = l.2) ∨
      ∃ c u, isDigit c = true ∧ ((s = c :: u ∧ D.number false (c :: u) = .ok p) ∨
        (s = .char '-' :: c :: u ∧ D.number true (c :: u) = .ok p)) := by
  unfold Decoder.atom at h
  cases hfind : literals.find? fun l => l.1.isPrefixOf s with
  | some l =>
    have hprefix := List.find?_some hfind
    obtain ⟨u, rfl⟩ := List.isPrefixOf_iff_prefix.1 hprefix
    simp only [hfind, List.drop_left] at h
    cases h
    exact .inl ⟨l, List.mem_of_find?_eq_some hfind, rfl, rfl⟩
  | none =>
    simp only [hfind] at h
    split_ifs at h with hminus
    · cases s with
      | nil => cases hminus
      | cons b s =>
        cases hminus
        obtain ⟨c, u, hs, hc⟩ := D.digit_of_number h
        rw [List.tail_cons] at hs h
        subst hs
        exact .inr ⟨c, u, hc, .inr ⟨rfl, h⟩⟩
    · obtain ⟨c, u, rfl, hc⟩ := D.digit_of_number h
      exact .inr ⟨c, u, hc, .inl ⟨rfl, h⟩⟩

theorem Decoder.atom_append {s r t : Str} {x : Json} (h : D.atom s = .ok (x, r))
    (hfollows : Follows (r ++ t)) : D.atom (s ++ t) = .ok (x, r ++ t) := by
  obtain ⟨l, hl, rfl, rfl⟩ | ⟨c, u, hc, ⟨rfl, hnumber⟩ | ⟨rfl, hnumber⟩⟩ := D.atom_cases h
  · rw [List.append_assoc, D.atom_literal hl]
  · rw [List.cons_append, (D.atom_number hc _).1]
    exact D.number_append hnumber hfollows
  · rw [List.cons_append, List.cons_append, (D.atom_number hc _).2]
    exact D.number_append hnumber hfollows

/-- A reader that reads on: what it read from a text it also reads when the text goes on. -/
structure ReadsOn {α : Type} (part : Str → Parsed α) : Prop where
  nil : ∀ p, part [] ≠ .ok p
  append : ∀ {s r t : Str} {a : α}, part s = .ok (a, r) → Follows (r ++ t) →
    part (s ++ t) = .ok (a, r ++ t)

theorem map_eq_ok {α β : Type} {f : α → β} {p : Parsed α} {b : β} {r : Str}
    (h : (p.map fun q => (f q.1, q.2)) = .ok (b, r)) : ∃ a, p = .ok (a, r) ∧ b = f a := by
  cases p with
  | error e => cases h
  | ok q =>
    cases h
    exact ⟨q.1, rfl, rfl⟩

section Containers

variable {α β : Type} {part : Str → Parsed α} {add : β → α → β} {close : Char}

theorem parts_close {n : ℕ} {b : β} {a : α} {s s' r : Str} (hpart : part s = .ok (a, s'))
    (hskip : skip s' = .char close :: r) :
    parts part add close (n + 1) b s = .ok (add b a, r) := by
  simp [parts, hpart, hskip]

theorem parts_comma {n : ℕ} {b : β} {a : α} {s s' r : Str} (hclose : close ≠ ',')
    (hpart : part s = .ok (a, s')) (hskip : skip s' = .char ',' :: r) :
    parts part add close (n + 1) b s = parts part add close n (add b a) (skip r) := by
  simp [parts, hpart, hskip, Ne.symm hclose]

theorem parts_cases {n : ℕ} {b b' : β} {s r : Str}
    (h : parts part add close (n + 1) b s = .ok (b', r)) :
    ∃ a s', part s = .ok (a, s') ∧ ((skip s' = .char close :: r ∧ b' = add b a) ∨
      ∃ u, skip s' = .char ',' :: u ∧ parts part add close n (add b a) (skip u) = .ok (b', r)) := by
  unfold parts at h
  split at h
  · cases h
  · next a s' hpart =>
      refine ⟨a, s', hpart, ?_⟩
      split at h
      · cases h
      · next c u hskip =>
          split_ifs at h with hc hcomma
          · cases h
            exact .inl ⟨hc ▸ hskip, rfl⟩
          · exact .inr ⟨u, hcomma ▸ hskip, h⟩

theorem parts_append (hpart : ReadsOn part) (hclose : close = ']' ∨ close = '}') {n m : ℕ} {b b' : β}
    {s r : Str} (h : parts part add close n b s = .ok (b', r)) (hnm : n ≤ m) (t : Str) :
    parts part add close m b (s ++ t) = .ok (b', r ++ t) := by
  induction n generalizing m b s with
  | zero => cases h
  | succ n ih =>
    cases m with
    | zero => omega
    | succ m =>
      obtain ⟨a, s', ha, ⟨hskip, rfl⟩ | ⟨u, hskip, hrest⟩⟩ := parts_cases h
      · have ha' := hpart.append ha
          (follows_of_skip hskip (.inr (hclose.imp (congrArg _) (congrArg _))) t)
        have hskip' : skip (s' ++ t) = .char close :: (r ++ t) := by
          rw [skip_append (by simp [hskip]), hskip, List.cons_append]
        exact parts_close ha' hskip'
      · have ha' := hpart.append ha (follows_of_skip hskip (.inl rfl) t)
        have hskip' : skip (s' ++ t) = .char ',' :: (u ++ t) := by
          rw [skip_append (by simp [hskip]), hskip, List.cons_append]
        have hu : skip u ≠ [] := by
          intro hu
          rw [hu] at hrest
          cases n with
          | zero => cases hrest
          | succ n =>
            obtain ⟨a', v, ha', -⟩ := parts_cases hrest
            exact hpart.nil _ ha'
        have hne : close ≠ ',' := by rcases hclose with rfl | rfl <;> decide
        rw [parts_comma hne ha' hskip', skip_append hu]
        exact ih hrest (by omega)

theorem container_append (hpart : ReadsOn part) (hclose : close = ']' ∨ close = '}') {empty b : β}
    {s r : Str} (h : container part add close empty s = .ok (b, r)) (t : Str) :
    container part add close empty (s ++ t) = .ok (b, r ++ t) := by
  unfold container at h ⊢
  cases hs : skip s with
  | nil =>
    rw [hs] at h
    cases h
  | cons c u =>
    rw [skip_append (by simp [hs]), hs]
    simp only [hs, List.cons_append] at h ⊢
    by_cases hc : c = .char close
    · rw [if_pos hc] at h ⊢
      cases h
      rfl
    · rw [if_neg hc] at h ⊢
      exact parts_append hpart hclose h (by simp) t

end Containers

section Values

variable {value : Str → Parsed Json}

theorem entry_cases {s r key : Str} {x : Json} (h : entry value s = .ok ((key, x), r)) :
    ∃ s₁ s₂ s₃, s = .char '"' :: s₁ ∧ stringFrom s₁ = some (key, s₂) ∧ skip s₂ = .char ':' :: s₃ ∧
      value (skip s₃) = .ok (x, r) := by
  unfold entry at h
  split_ifs at h with hquote
  · cases s with
    | nil => cases hquote
    | cons c s₁ =>
      cases hquote
      split at h
      · cases h
      · next key' s₂ hstring =>
          split at h
          · cases h
          · next c s₃ hskip =>
              split_ifs at h with hc
              · obtain ⟨x', hx, heq⟩ := map_eq_ok h
                cases heq
                exact ⟨s₁, s₂, s₃, rfl, hstring, hc ▸ hskip, hx⟩

theorem entry_eq {s₁ s₂ s₃ r key : Str} {x : Json} (hstring : stringFrom s₁ = some (key, s₂))
    (hskip : skip s₂ = .char ':' :: s₃) (hx : value (skip s₃) = .ok (x, r)) :
    entry value (.char '"' :: s₁) = .ok ((key, x), r) := by
  simp [entry, hstring, hskip, hx, Except.map]

theorem readsOn_entry (hvalue : ReadsOn value) : ReadsOn (entry value) := by
  refine ⟨fun p hp => (by cases hp), ?_⟩
  rintro s r t ⟨key, x⟩ h hfollows
  obtain ⟨s₁, s₂, s₃, rfl, hstring, hskip, hx⟩ := entry_cases h
  have hskip' : skip (s₂ ++ t) = .char ':' :: (s₃ ++ t) := by
    rw [skip_append (by simp [hskip]), hskip, List.cons_append]
  have hs₃ : skip s₃ ≠ [] := by
    intro hs₃
    rw [hs₃] at hx
    exact hvalue.nil _ hx
  refine entry_eq (stringFrom_append hstring t) hskip' ?_
  rw [skip_append hs₃]
  exact hvalue.append hx hfollows

theorem list_append (hvalue : ReadsOn value) {s r : Str} {x : Json} (h : list value s = .ok (x, r))
    (t : Str) : list value (s ++ t) = .ok (x, r ++ t) := by
  obtain ⟨xs, hcontainer, rfl⟩ := map_eq_ok h
  unfold list
  rw [container_append hvalue (.inl rfl) hcontainer]
  rfl

theorem dict_append (hvalue : ReadsOn value) {s r : Str} {x : Json} (h : dict value s = .ok (x, r))
    (t : Str) : dict value (s ++ t) = .ok (x, r ++ t) := by
  obtain ⟨d, hcontainer, rfl⟩ := map_eq_ok h
  unfold dict
  rw [container_append (readsOn_entry hvalue) (.inr rfl) hcontainer]
  rfl

end Values

theorem Decoder.value_cases {depth : ℕ} {s r : Str} {x : Json} (h : D.value depth s = .ok (x, r)) :
    (∃ u t, s = .char '"' :: u ∧ stringFrom u = some (t, r) ∧ x = .str t) ∨
      (∃ n u, depth = n + 1 ∧ s = .char '[' :: u ∧ list (D.value n) u = .ok (x, r)) ∨
      (∃ n u, depth = n + 1 ∧ s = .char '{' :: u ∧ dict (D.value n) u = .ok (x, r)) ∨
      ∃ c u, s = c :: u ∧ c ≠ .char '"' ∧ c ≠ .char '[' ∧ c ≠ .char '{' ∧
        D.atom (c :: u) = .ok (x, r) := by
  cases s with
  | nil =>
    cases depth <;> cases h
  | cons c u =>
    by_cases hquote : c = .char '"'
    · subst hquote
      cases hstring : stringFrom u with
      | none => cases depth <;> simp [Decoder.value, hstring] at h
      | some p =>
        obtain ⟨rfl, rfl⟩ : Json.str p.1 = x ∧ p.2 = r := by
          cases depth <;> simpa [Decoder.value, hstring] using h
        exact .inl ⟨u, p.1, rfl, hstring, rfl⟩
    · by_cases hbracket : c = .char '['
      · subst hbracket
        cases depth with
        | zero => simp [Decoder.value] at h
        | succ n => exact .inr (.inl ⟨n, u, rfl, rfl, by simpa [Decoder.value] using h⟩)
      · by_cases hbrace : c = .char '{'
        · subst hbrace
          cases depth with
          | zero => simp [Decoder.value] at h
          | succ n => exact .inr (.inr (.inl ⟨n, u, rfl, rfl, by simpa [Decoder.value] using h⟩))
        · refine .inr (.inr (.inr ⟨c, u, rfl, hquote, hbracket, hbrace, ?_⟩))
          cases depth <;> simpa [Decoder.value, hquote, hbracket, hbrace] using h

theorem Decoder.value_string {u t r : Str} (h : stringFrom u = some (t, r)) (depth : ℕ) :
    D.value depth (.char '"' :: u) = .ok (.str t, r) := by
  cases depth <;> simp [Decoder.value, h]

theorem Decoder.value_list (depth : ℕ) (u : Str) :
    D.value (depth + 1) (.char '[' :: u) = list (D.value depth) u := by
  simp [Decoder.value]

theorem Decoder.value_dict (depth : ℕ) (u : Str) :
    D.value (depth + 1) (.char '{' :: u) = dict (D.value depth) u := by
  simp [Decoder.value]

theorem Decoder.value_atom {c : Cp} (hquote : c ≠ .char '"') (hbracket : c ≠ .char '[')
    (hbrace : c ≠ .char '{') (depth : ℕ) (u : Str) :
    D.value depth (c :: u) = D.atom (c :: u) := by
  cases depth <;> simp [Decoder.value, hquote, hbracket, hbrace]

/-- A list or a dictionary is read whatever follows it, and so is a string; a number or a literal
must be complete. -/
theorem Decoder.value_append {depth : ℕ} (hinner : ∀ n, depth = n + 1 → ReadsOn (D.value n))
    {s r : Str} {x : Json} (h : D.value depth s = .ok (x, r)) (t : Str)
    (hfollows : (∃ u, s = .char '"' :: u ∨ s = .char '[' :: u ∨ s = .char '{' :: u) ∨ Follows (r ++ t)) :
    D.value depth (s ++ t) = .ok (x, r ++ t) := by
  obtain ⟨u, v, rfl, hstring, rfl⟩ | ⟨n, u, rfl, rfl, hlist⟩ | ⟨n, u, rfl, rfl, hdict⟩ |
    ⟨c, u, rfl, hquote, hbracket, hbrace, hatom⟩ := D.value_cases h
  · exact D.value_string (stringFrom_append hstring t) depth
  · rw [List.cons_append, D.value_list]
    exact list_append (hinner n rfl) hlist t
  · rw [List.cons_append, D.value_dict]
    exact dict_append (hinner n rfl) hdict t
  · have hfollows : Follows (r ++ t) := by
      obtain ⟨u', hu⟩ | hfollows := hfollows
      · simp [hquote, hbracket, hbrace] at hu
      · exact hfollows
    have hatom' := D.atom_append hatom hfollows
    rw [List.cons_append] at hatom' ⊢
    rw [D.value_atom hquote hbracket hbrace, hatom']

/-- **What was read from a text is read when the text goes on.** -/
theorem Decoder.readsOn_value (depth : ℕ) : ReadsOn (D.value depth) := by
  have hnil : ∀ p, D.value depth [] ≠ .ok p := by
    intro p hp
    cases depth <;> cases hp
  induction depth with
  | zero => exact ⟨hnil, fun h hfollows => D.value_append (by simp) h _ (.inr hfollows)⟩
  | succ depth ih =>
    have ih : ReadsOn (D.value depth) := ih fun p hp => by cases depth <;> cases hp
    refine ⟨hnil, fun h hfollows => D.value_append ?_ h _ (.inr hfollows)⟩
    rintro n ⟨⟩
    exact ih

end Py
