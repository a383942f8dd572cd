/-
**Values read from JSON text by Python.**

A JSON document becomes a Python value: `None`, a boolean, an integer, a float, a string, a list or
a dictionary with string keys in the order of the text.  Three facts about these values matter to
programs that pass them on.  A string may contain a surrogate that stands alone (from an escape
such as `\ud800`), which no UTF-8 text can hold.  A list or a dictionary cannot be hashed, so it
cannot be looked up in a set or as a key; numbers of equal value are the same key.  The decoder
returns one object for every NaN it reads, and a container finds an object that is identical to
one of its own, so the NaN is a key like any other.  And a value is false when it is empty or zero.

Main definitions:

* `Str` — strings, as lists of code points with surrogates;
* `Json` — the values;
* `Json.truthy`, `Json.hash`, `Json.encodable` — truth value, key and UTF-8 form;
* `Json.dumps` — the text `json.dumps` writes with its default options;
* `Json.dumpsRaw` — the text it writes with `ensure_ascii=False`.

Main results:

* `Str.ofString_injective` — proper text is faithfully represented;
* `Str.encodable_ofString` — proper text has a UTF-8 form;
* `Json.truthy_of_hash` — values of one key have one truth value;
* `Json.encodable_dumpsRaw` — the text of a value has a UTF-8 form exactly if its strings do.
-/

import Mathlib.Data.Rat.Defs
import Mathlib.Data.List.Lex

namespace Py

/-! ### Strings -/

/-- A code point: a character, or the surrogate `0xD800 + k` standing alone. -/
inductive Cp
  | char (c : Char)
  | lone (k : Fin 2048)
  deriving DecidableEq

def Cp.isChar : Cp → Bool
  | .char _ => true
  | .lone _ => false

abbrev Str := List Cp

instance : LawfulBEq Str := inferInstance

/-- Proper text. -/
def Str.ofString (s : String) : Str := s.toList.map Cp.char

def Cp.code : Cp → ℕ
  | .char c => c.toNat
  | .lone k => 0xD800 + k

/-- `s <= t` on strings, by code points. -/
def Str.le (s t : Str) : Bool := s.map Cp.code ≤ t.map Cp.code

/-- The string has a UTF-8 form. -/
def Str.encodable (s : Str) : Bool := s.all Cp.isChar

/-- The characters of a string. -/
def Str.shown (s : Str) : String :=
  String.ofList (s.filterMap fun c => match c with | .char c => some c | .lone _ => none)

@[simp] theorem Str.shown_ofString (s : String) : (Str.ofString s).shown = s := by
  rw [Str.shown, Str.ofString, List.filterMap_map]
  simp

theorem Str.ofString_injective : Function.Injective Str.ofString := by
  intro s t h
  have hchar : Function.Injective Cp.char := by
    intro c d hcd
    exact Cp.char.inj hcd
  have hlist : s.toList = t.toList := List.map_injective_iff.2 hchar h
  exact String.toList_injective hlist

@[simp] theorem Str.encodable_ofString (s : String) : (Str.ofString s).encodable = true := by
  rw [Str.encodable, List.all_eq_true]
  intro c hc
  obtain ⟨c', -, rfl⟩ := List.mem_map.1 hc
  rfl

@[simp] theorem Str.length_ofString (s : String) : (Str.ofString s).length = s.length := by
  rw [Str.ofString, List.length_map, String.length_toList]

@[simp] theorem Str.encodable_append (s t : Str) :
    Str.encodable (s ++ t) = (Str.encodable s && Str.encodable t) := by
  simp [Str.encodable]

/-! ### Values -/

/-- A float: its exact value and the text of its shortest form, or one of the special values. -/
inductive Float64
  | finite (value : ℚ) (repr : String)
  | inf (negative : Bool)
  | nan
  deriving DecidableEq

inductive Json
  | null
  | bool (b : Bool)
  | int (n : ℤ)
  | float (x : Float64)
  | str (s : Str)
  | arr (elems : List Json)
  | obj (fields : List (Str × Json))

/-- A dictionary. -/
abbrev Fields := List (Str × Json)

/-- Proper text as a value. -/
def Json.text (s : String) : Json := .str (Str.ofString s)

/-- `d.get(key)`, `None` when the key is missing. -/
def Fields.find (d : Fields) (key : String) : Option Json :=
  (d.find? fun f => f.1 = Str.ofString key).map Prod.snd

def Fields.get (d : Fields) (key : String) : Json := (Fields.find d key).getD .null

/-- `bool(x)`. -/
def Json.truthy : Json → Bool
  | .null => false
  | .bool b => b
  | .int n => n ≠ 0
  | .float (.finite value _) => value ≠ 0
  | .float _ => true
  | .str s => s ≠ []
  | .arr elems => elems.isEmpty = false
  | .obj fields => fields.isEmpty = false

/-! ### Keys -/

/-- What two hashable values have in common when they are the same key. -/
inductive Key
  | none
  | num (value : ℚ)
  | inf (negative : Bool)
  | nan
  | str (s : Str)
  deriving DecidableEq

/-- The key of a value; `none` is a `TypeError`. -/
def Json.hash : Json → Option Key
  | .null => some .none
  | .bool b => some (.num (if b then 1 else 0))
  | .int n => some (.num n)
  | .float (.finite value _) => some (.num value)
  | .float (.inf negative) => some (.inf negative)
  | .float .nan => some .nan
  | .str s => some (.str s)
  | .arr _ => none
  | .obj _ => none

/-- The truth value of the values of a key. -/
def Key.truthy : Key → Bool
  | .none => false
  | .num value => value ≠ 0
  | .inf _ => true
  | .nan => true
  | .str s => s ≠ []

theorem Json.truthy_of_hash {x : Json} {k : Key} (h : x.hash = some k) : x.truthy = k.truthy := by
  cases x with
  | bool b =>
    cases h
    cases b <;> simp [Json.truthy, Key.truthy]
  | int n =>
    cases h
    simp [Json.truthy, Key.truthy]
  | float f =>
    cases f with
    | finite value text =>
      cases h
      rfl
    | inf negative =>
      cases h
      rfl
    | nan =>
      cases h
      rfl
  | arr elems => cases h
  | obj fields => cases h
  | _ =>
    cases h
    rfl

/-! ### Text -/

mutual

/-- No string in the value contains a lone surrogate, so `json.dumps(…, ensure_ascii=False)` has a
UTF-8 form. -/
def Json.encodable : Json → Bool
  | .str s => Str.encodable s
  | .arr elems => encodableAll elems
  | .obj fields => encodableFields fields
  | _ => true

def encodableAll : List Json → Bool
  | [] => true
  | x :: xs => x.encodable && encodableAll xs

def encodableFields : List (Str × Json) → Bool
  | [] => true
  | (k, v) :: fields => Str.encodable k && v.encodable && encodableFields fields

end

/-- Four lower-case hexadecimal digits. -/
def hex4 (n : ℕ) : String :=
  let digits := Nat.toDigits 16 n
  String.ofList (List.replicate (4 - digits.length) '0' ++ digits)

/-- The escape of a code point in ASCII text. -/
def escapeCp : Cp → String
  | .lone k => "\\u" ++ hex4 (0xD800 + k)
  | .char c =>
    if c = '"' then "\\\""
    else if c = '\\' then "\\\\"
    else if c = '\n' then "\\n"
    else if c = '\r' then "\\r"
    else if c = '\t' then "\\t"
    else if c.toNat = 12 then "\\f"
    else if c.toNat = 8 then "\\b"
    else if 32 ≤ c.toNat ∧ c.toNat ≤ 126 then String.singleton c
    else if c.toNat < 0x10000 then "\\u" ++ hex4 c.toNat
    else "\\u" ++ hex4 (0xD800 + (c.toNat - 0x10000) / 0x400) ++
      "\\u" ++ hex4 (0xDC00 + (c.toNat - 0x10000) % 0x400)

def quote (s : Str) : String := "\"" ++ String.join (s.map escapeCp) ++ "\""

mutual

/-- `json.dumps(x)`. -/
def Json.dumps : Json → String
  | .null => "null"
  | .bool b => if b then "true" else "false"
  | .int n => toString n
  | .float (.finite _ repr) => repr
  | .float (.inf negative) => if negative then "-Infinity" else "Infinity"
  | .float .nan => "NaN"
  | .str s => quote s
  | .arr elems => "[" ++ ", ".intercalate (dumpsAll elems) ++ "]"
  | .obj fields => "\x7b" ++ ", ".intercalate (dumpsFields fields) ++ "\x7d"

def dumpsAll : List Json → List String
  | [] => []
  | x :: xs => x.dumps :: dumpsAll xs

def dumpsFields : List (Str × Json) → List String
  | [] => []
  | (k, v) :: fields => (quote k ++ ": " ++ v.dumps) :: dumpsFields fields

end

/-- The escape of a code point in text that need not be ASCII. -/
def escapeRaw : Cp → Str
  | .lone k => [.lone k]
  | .char c =>
    if c = '"' then Str.ofString "\\\""
    else if c = '\\' then Str.ofString "\\\\"
    else if c = '\n' then Str.ofString "\\n"
    else if c = '\r' then Str.ofString "\\r"
    else if c = '\t' then Str.ofString "\\t"
    else if c.toNat = 12 then Str.ofString "\\f"
    else if c.toNat = 8 then Str.ofString "\\b"
    else if c.toNat < 32 then Str.ofString ("\\u" ++ hex4 c.toNat)
    else [.char c]

def quoteRaw (s : Str) : Str := Str.ofString "\"" ++ s.flatMap escapeRaw ++ Str.ofString "\""

mutual

/-- `json.dumps(x, ensure_ascii=False)`. -/
def Json.dumpsRaw : Json → Str
  | .str s => quoteRaw s
  | .arr elems =>
    Str.ofString "[" ++ (Str.ofString ", ").intercalate (dumpsRawAll elems) ++ Str.ofString "]"
  | .obj fields =>
    Str.ofString "\x7b" ++ (Str.ofString ", ").intercalate (dumpsRawFields fields) ++
      Str.ofString "\x7d"
  | x => Str.ofString x.dumps

def dumpsRawAll : List Json → List Str
  | [] => []
  | x :: xs => x.dumpsRaw :: dumpsRawAll xs

def dumpsRawFields : List (Str × Json) → List Str
  | [] => []
  | (k, v) :: fields => (quoteRaw k ++ Str.ofString ": " ++ v.dumpsRaw) :: dumpsRawFields fields

end

theorem encodable_escapeRaw (c : Cp) : Str.encodable (escapeRaw c) = c.isChar := by
  cases c with
  | lone k => rfl
  | char c =>
    simp only [escapeRaw, Cp.isChar]
    split_ifs <;> first | exact Str.encodable_ofString _ | rfl

theorem encodable_quoteRaw (s : Str) : Str.encodable (quoteRaw s) = Str.encodable s := by
  have hbody : Str.encodable (s.flatMap escapeRaw) = Str.encodable s := by
    induction s with
    | nil => rfl
    | cons c s ih =>
      rw [List.flatMap_cons, Str.encodable_append, ih, encodable_escapeRaw]
      rfl
  simp [quoteRaw, hbody]

theorem encodable_intercalate (xs : List Str) :
    Str.encodable ((Str.ofString ", ").intercalate xs) = xs.all Str.encodable := by
  induction xs with
  | nil => rfl
  | cons x xs ih =>
    cases xs with
    | nil => simp [List.intercalate]
    | cons y ys =>
      rw [List.intercalate_cons_cons, Str.encodable_append, Str.encodable_append, ih]
      simp

mutual

/-- **The text of a value has a UTF-8 form exactly if its strings do.** -/
theorem Json.encodable_dumpsRaw : (x : Json) → Str.encodable x.dumpsRaw = x.encodable
  | .str s => by
    rw [Json.dumpsRaw, encodable_quoteRaw, Json.encodable]
  | .arr elems => by
    simp [Json.dumpsRaw, Json.encodable, encodable_intercalate, encodable_dumpsRawAll elems]
  | .obj fields => by
    simp [Json.dumpsRaw, Json.encodable, encodable_intercalate, encodable_dumpsRawFields fields]
  | .null => by simp [Json.dumpsRaw, Json.encodable]
  | .bool b => by simp [Json.dumpsRaw, Json.encodable]
  | .int n => by simp [Json.dumpsRaw, Json.encodable]
  | .float x => by simp [Json.dumpsRaw, Json.encodable]

theorem encodable_dumpsRawAll :
    (xs : List Json) → (dumpsRawAll xs).all Str.encodable = encodableAll xs
  | [] => rfl
  | x :: xs => by
    rw [dumpsRawAll, List.all_cons, x.encodable_dumpsRaw, encodable_dumpsRawAll xs, encodableAll]

theorem encodable_dumpsRawFields :
    (fields : List (Str × Json)) →
      (dumpsRawFields fields).all Str.encodable = encodableFields fields
  | [] => rfl
  | (k, v) :: fields => by
    rw [dumpsRawFields, List.all_cons, Str.encodable_append, Str.encodable_append,
      encodable_quoteRaw, v.encodable_dumpsRaw, encodable_dumpsRawFields fields, encodableFields]
    simp

end

/-- `str(x)` in a format string; `repr` is the text of a list or a dictionary, in which a lone
surrogate is escaped. -/
def Json.format (repr : Json → String) : Json → Str
  | .null => Str.ofString "None"
  | .bool b => Str.ofString (if b then "True" else "False")
  | .int n => Str.ofString (toString n)
  | .float (.finite _ text) => Str.ofString text
  | .float (.inf negative) => Str.ofString (if negative then "-inf" else "inf")
  | .float .nan => Str.ofString "nan"
  | .str s => s
  | .arr elems => Str.ofString (repr (.arr elems))
  | .obj fields => Str.ofString (repr (.obj fields))

/-- Only a string with a lone surrogate formats to one. -/
theorem Json.encodable_format (repr : Json → String) (x : Json) :
    Str.encodable (x.format repr) = false ↔ ∃ s, x = .str s ∧ Str.encodable s = false := by
  constructor
  · intro h
    cases x with
    | str s => exact ⟨s, rfl, h⟩
    | float f => cases f <;> simp [Json.format] at h
    | _ => simp [Json.format] at h
  · rintro ⟨s, rfl, hs⟩
    exact hs

end Py
