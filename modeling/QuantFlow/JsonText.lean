/-
**JSON text and its values.**

`json.dumps(…, ensure_ascii=False)` writes the text of a value, on one line or, with an indentation,
with each part of a list or a dictionary on a line of its own.  Both are layouts of one text: they
differ in the blanks between the parts.  A text in any layout is decoded to the value it was written
from; a dictionary comes back in its order, and a string with the surrogates that stand alone in it.

Nothing is decoded from a text of a list or a dictionary that was cut short, and the text on one line
has no line break, whatever the strings in it.

Main definitions:

* `Layout`, `Json.spelled` — a layout, and the text of a value in it;
* `Json.dumpsIndent` — the indented text;
* `Json.Storable` — the values whose texts are read back: no key twice, not nested too deeply, no
  integer too long, and floats whose text is their own.

Main results:

* `loads_spelled` — **the text of a value is decoded to the value**;
* `loads_cut` — **a text that was cut short is no value**;
* `newline_notMem_dumpsRaw` — **the text of a value is one line**.
-/

import Mathlib.Data.List.TakeWhile
import Mathlib.Tactic.IntervalCases
import QuantFlow.JsonDecoding

namespace Py

variable (D : Decoder)

/-! ### Texts that are read as values -/

/-- The text is read as the value. -/
def Decoder.Reads (depth : ℕ) (x : Json) (t : Str) : Prop := D.value depth t = .ok (x, [])

def Blank (s : Str) : Prop := ∀ c ∈ s, isBlank c = true

theorem skip_cons {c : Cp} (h : isBlank c = false) (s : Str) : skip (c :: s) = c :: s :=
  List.dropWhile_cons_of_neg (by simp [h])

theorem skip_blank {w : Str} (h : Blank w) (s : Str) : skip (w ++ s) = skip s := by
  induction w with
  | nil => rfl
  | cons c w ih =>
    have hc : isBlank c = true := h c (by simp)
    have hskip : skip (c :: (w ++ s)) = skip (w ++ s) := List.dropWhile_cons_of_pos hc
    rw [List.cons_append, hskip]
    exact ih fun b hb => h b (by simp [hb])

/-- The text begins with neither a blank nor a closing bracket. -/
def Starts (t : Str) : Prop :=
  ∃ c u, t = c :: u ∧ isBlank c = false ∧ c ≠ .char ']' ∧ c ≠ .char '}'

theorem starts_of_value {depth : ℕ} {s : Str} {p : Json × Str} (h : D.value depth s = .ok p) :
    Starts s := by
  obtain ⟨u, v, rfl, -⟩ | ⟨n, u, -, rfl, -⟩ | ⟨n, u, -, rfl, -⟩ | ⟨c, u, rfl, -, -, -, hatom⟩ :=
    D.value_cases h
  · exact ⟨_, _, rfl, rfl, by decide, by decide⟩
  · exact ⟨_, _, rfl, rfl, by decide, by decide⟩
  · exact ⟨_, _, rfl, rfl, by decide, by decide⟩
  · refine ⟨c, u, rfl, ?_⟩
    obtain ⟨l, hl, hs, -⟩ | ⟨b, v, hb, ⟨hs, -⟩ | ⟨hs, -⟩⟩ := D.atom_cases hatom
    · simp only [literals, List.mem_cons, List.not_mem_nil, or_false] at hl
      rcases hl with rfl | rfl | rfl | rfl | rfl | rfl <;> cases hs <;>
        exact ⟨rfl, by decide, by decide⟩
    · cases hs
      refine ⟨?_, ?_, ?_⟩
      · cases c with
        | lone k => rfl
        | char c =>
          rw [← Bool.not_eq_true]
          intro hblank
          simp only [isBlank, Bool.or_eq_true, decide_eq_true_eq] at hblank
          rcases hblank with ((rfl | rfl) | rfl) | rfl <;> cases hb
      · rintro rfl
        cases hb
      · rintro rfl
        cases hb
    · cases hs
      exact ⟨rfl, by decide, by decide⟩

/-- Parts with blanks before, between and after them, up to the closing bracket. -/
def joined (opening sep closing : Str) (close : Char) (texts : List Str) : Str :=
  opening ++ (.char ',' :: sep : Str).intercalate texts ++ closing ++ [.char close]

section Joined

variable {opening sep closing : Str} {close : Char}

theorem joined_singleton (t : Str) :
    joined [] sep closing close [t] = t ++ (closing ++ [.char close]) := by
  simp [joined]

theorem joined_cons_cons (t t' : Str) (ts : List Str) :
    joined [] sep closing close (t :: t' :: ts) =
      t ++ (.char ',' :: (sep ++ joined [] sep closing close (t' :: ts))) := by
  simp [joined, List.intercalate_cons_cons]

theorem starts_joined {t : Str} (h : Starts t) (ts : List Str) :
    Starts (joined [] sep closing close (t :: ts)) := by
  obtain ⟨c, u, rfl, hc⟩ := h
  cases ts with
  | nil => exact ⟨c, _, joined_singleton _, hc⟩
  | cons t' ts => exact ⟨c, _, joined_cons_cons _ _ _, hc⟩

theorem skip_of_starts {t : Str} (h : Starts t) : skip t = t := by
  obtain ⟨c, u, rfl, hc, -⟩ := h
  exact skip_cons hc u

theorem skip_closing (hclose : close = ']' ∨ close = '}') (hclosing : Blank closing) :
    skip (closing ++ [.char close]) = [.char close] := by
  rw [skip_blank hclosing]
  rcases hclose with rfl | rfl <;> rfl

theorem length_le_joined (ts : List Str) :
    ts.length ≤ (joined [] sep closing close ts).length := by
  induction ts with
  | nil => simp
  | cons t ts ih =>
    cases ts with
    | nil =>
      simp only [joined_singleton, List.length_append, List.length_singleton]
      omega
    | cons t' ts =>
      rw [joined_cons_cons]
      simp only [List.length_cons, List.length_append] at ih ⊢
      omega

variable {α β : Type} {part : Str → Parsed α} {add : β → α → β}

theorem ReadsOn.follow (hpart : ReadsOn part) {a : α} {t rest : Str} (h : part t = .ok (a, []))
    (hrest : Follows rest) : part (t ++ rest) = .ok (a, rest) :=
  hpart.append h hrest

theorem parts_joined (hpart : ReadsOn part) (hclose : close = ']' ∨ close = '}') (hsep : Blank sep)
    (hclosing : Blank closing) (i : α × Str) (items : List (α × Str))
    (hitems : ∀ j ∈ i :: items, part j.2 = .ok (j.1, []) ∧ Starts j.2) {n : ℕ}
    (hn : items.length < n) (b : β) :
    parts part add close n b (joined [] sep closing close (i.2 :: items.map Prod.snd)) =
      .ok ((items.map Prod.fst).foldl add (add b i.1), []) := by
  obtain ⟨m, rfl⟩ : ∃ m, n = m + 1 := ⟨n - 1, by omega⟩
  have hi : part i.2 = .ok (i.1, []) := (hitems i (by simp)).1
  induction items generalizing m b i with
  | nil =>
    have hskip := skip_closing hclose hclosing
    have hfollows : Follows (closing ++ [.char close]) := by
      simpa using follows_of_skip hskip (.inr (hclose.imp (congrArg _) (congrArg _))) []
    rw [List.map_nil, joined_singleton]
    exact parts_close (hpart.follow hi hfollows) hskip
  | cons j items ih =>
    have hj : part j.2 = .ok (j.1, []) ∧ Starts j.2 := hitems j (by simp)
    have hfollows : ∀ s : Str, Follows (.char ',' :: s) := by
      intro s c hc
      cases hc
      exact .inr (.inl rfl)
    have hne : close ≠ ',' := by rcases hclose with rfl | rfl <;> decide
    obtain ⟨m, rfl⟩ : ∃ k, m = k + 1 := ⟨m - 1, by simp at hn; omega⟩
    rw [List.map_cons, joined_cons_cons,
      parts_comma hne (hpart.follow hi (hfollows _)) (skip_cons rfl _), skip_blank hsep,
      skip_of_starts (starts_joined hj.2 _)]
    exact ih j (fun k hk => hitems k (List.mem_cons_of_mem _ hk)) (add b i.1) m
      (by simpa using hn) hj.1

/-- **A list or a dictionary of texts that are read**, with any blanks between them. -/
theorem container_joined (hpart : ReadsOn part) (hclose : close = ']' ∨ close = '}')
    (hopening : Blank opening) (hsep : Blank sep) (hclosing : Blank closing) (items : List (α × Str))
    (hitems : ∀ i ∈ items, part i.2 = .ok (i.1, []) ∧ Starts i.2) (empty : β) :
    container part add close empty (joined opening sep closing close (items.map Prod.snd)) =
      .ok ((items.map Prod.fst).foldl add empty, []) := by
  have hjoined : joined opening sep closing close (items.map Prod.snd) =
      opening ++ joined [] sep closing close (items.map Prod.snd) := by
    simp [joined]
  unfold container
  rw [hjoined, skip_blank hopening]
  cases items with
  | nil =>
    have hnil : joined [] sep closing close [] = closing ++ [.char close] := by simp [joined]
    rw [List.map_nil, hnil, skip_closing hclose hclosing]
    simp
  | cons i items =>
    have hstarts : Starts (joined [] sep closing close (i.2 :: items.map Prod.snd)) :=
      starts_joined (hitems i (by simp)).2 _
    have hlength : items.length <
        (joined [] sep closing close (i.2 :: items.map Prod.snd)).length := by
      have hle : (i.2 :: items.map Prod.snd).length ≤
        (joined [] sep closing close (i.2 :: items.map Prod.snd)).length := length_le_joined _
      rw [List.length_cons, List.length_map] at hle
      exact hle
    have hparts : parts part add close _ empty _ = _ :=
      parts_joined hpart hclose hsep hclosing i items hitems hlength empty
    rw [List.map_cons, skip_of_starts hstarts]
    obtain ⟨c, u, hcu, -, hbracket, hbrace⟩ := hstarts
    have hc : c ≠ .char close := by rcases hclose with rfl | rfl <;> assumption
    rw [hcu] at hparts ⊢
    simp only [if_neg hc]
    exact hparts

end Joined

/-- **A list of texts that are read.** -/
theorem reads_arr {depth : ℕ} {opening sep closing : Str} (hopening : Blank opening)
    (hsep : Blank sep) (hclosing : Blank closing) (items : List (Json × Str))
    (hitems : ∀ i ∈ items, D.Reads depth i.1 i.2) :
    D.Reads (depth + 1) (.arr (items.map Prod.fst))
      (.char '[' :: joined opening sep closing ']' (items.map Prod.snd)) := by
  have hfold : ∀ (ys xs : List Json), xs.foldl (fun xs x => xs ++ [x]) ys = ys ++ xs := by
    intro ys xs
    induction xs generalizing ys with
    | nil => simp
    | cons x xs ih => rw [List.foldl_cons, ih, List.append_assoc, List.singleton_append]
  have hcontainer : container (D.value depth) (fun xs x => xs ++ [x]) ']' [] _ = _ :=
    container_joined (D.readsOn_value depth) (.inl rfl) hopening hsep hclosing items
      (fun i hi => ⟨hitems i hi, starts_of_value D (hitems i hi)⟩) []
  rw [Decoder.Reads, D.value_list, list, hcontainer, hfold]
  rfl

/-- Keys that are all different are put one after the other. -/
theorem foldl_put {fields : Fields} (h : (fields.map Prod.fst).Nodup) :
    fields.foldl (fun d kv => Fields.put d kv.1 kv.2) [] = fields := by
  have hput : ∀ (d : Fields), ((d ++ fields).map Prod.fst).Nodup →
      fields.foldl (fun d kv => Fields.put d kv.1 kv.2) d = d ++ fields := by
    clear h
    induction fields with
    | nil => simp
    | cons kv fields ih =>
      intro d hd
      have hnew : (d.any fun f => f.1 = kv.1) = false := by
        rw [List.any_eq_false]
        intro f hf
        simp only [List.map_append, List.map_cons, List.nodup_append] at hd
        simpa using hd.2.2 f.1 (List.mem_map_of_mem hf) kv.1 (by simp)
      rw [List.foldl_cons, Fields.put, if_neg (by simp [hnew]), ih, List.append_assoc]
      · rfl
      · simpa using hd
  simpa using hput [] (by simpa using h)

/-- **A dictionary of texts that are read**, with no key twice. -/
theorem reads_obj {depth : ℕ} {opening sep closing : Str} (hopening : Blank opening)
    (hsep : Blank sep) (hclosing : Blank closing) (items : List ((Str × Json) × Str))
    (hitems : ∀ i ∈ items, entry (D.value depth) i.2 = .ok (i.1, []))
    (hkeys : ((items.map Prod.fst).map Prod.fst).Nodup) :
    D.Reads (depth + 1) (.obj (items.map Prod.fst))
      (.char '{' :: joined opening sep closing '}' (items.map Prod.snd)) := by
  have hstarts : ∀ i ∈ items, Starts i.2 := by
    intro i hi
    obtain ⟨u, -, -, hu, -⟩ := entry_cases (hitems i hi)
    exact ⟨_, u, hu, rfl, by decide, by decide⟩
  have hcontainer : container (entry (D.value depth))
      (fun d (kv : Str × Json) => Fields.put d kv.1 kv.2) '}' [] _ = _ :=
    container_joined (readsOn_entry (D.readsOn_value depth)) (.inr rfl) hopening hsep hclosing items
      (fun i hi => ⟨hitems i hi, hstarts i hi⟩) []
  rw [Decoder.Reads, D.value_dict, dict, hcontainer, foldl_put hkeys]
  rfl

/-! ### Strings and numbers -/

theorem hexValue_digitChar {n : ℕ} (h : n < 16) : hexValue (.char (Nat.digitChar n)) = some n := by
  have hall : ∀ n < 16, hexValue (.char (Nat.digitChar n)) = some n := by decide
  exact hall n h

theorem hex4_control {n : ℕ} (h : n < 32) :
    Str.ofString (hex4 n) =
      [.char '0', .char '0', .char (Nat.digitChar (n / 16)), .char (Nat.digitChar (n % 16))] := by
  by_cases hn : n < 16
  · have hdiv : n / 16 = 0 := by omega
    have hmod : n % 16 = n := by omega
    rw [hdiv, hmod]
    simp [hex4, Str.ofString, Nat.toDigits_of_lt_base hn, List.replicate]
  · have hlt : n / 16 < 16 := by omega
    simp [hex4, Str.ofString, Nat.toDigits_of_base_le (by omega : 1 < 16) (Nat.le_of_not_lt hn),
      Nat.toDigits_of_lt_base hlt, List.replicate]

theorem escape_control {c : Char} (h : c.toNat < 32) (s : Str) :
    escape (.char 'u' :: (Str.ofString (hex4 c.toNat) ++ s)) = some (.char c, s) := by
  have hunit : codeUnit (Str.ofString (hex4 c.toNat) ++ s) = some (c.toNat, s) := by
    rw [hex4_control h]
    have hhigh := hexValue_digitChar (show c.toNat / 16 < 16 by omega)
    have hlow := hexValue_digitChar (show c.toNat % 16 < 16 by omega)
    have hzero : hexValue (.char '0') = some 0 := rfl
    simp only [List.cons_append, List.nil_append, codeUnit, hhigh, hlow, hzero]
    simp
    omega
  have hpoint : codePointFrom c.toNat s = some (.char c, s) := by
    have hlow : ¬(0xD800 ≤ c.toNat) := by omega
    simp [codePointFrom, codePoint, hlow]
  simp [escape, unitEscape, hunit, hpoint]

theorem scanString_mark {b c : Char} (hescape : plainEscape b = some c) {n : ℕ} {t u r : Str}
    (h : scanString n t = some (u, r)) :
    scanString (n + 1) (.char '\\' :: .char b :: t) = some (.char c :: u, r) := by
  refine scanString_escape ?_ h
  have hu : b ≠ 'u' := by
    rintro rfl
    cases hescape
  simp [escape, hu, hescape]

/-- **The escape of a code point is read as the code point.** -/
theorem scanString_escapeRaw (c : Cp) {n : ℕ} {t u r : Str} (h : scanString n t = some (u, r)) :
    scanString (n + 1) (escapeRaw c ++ t) = some (c :: u, r) := by
  cases c with
  | lone k => exact scanString_plain (by simp) (by simp) rfl h
  | char c =>
    have hnat : ∀ k, c.toNat = k → c = Char.ofNat k := by
      rintro k rfl
      exact (Char.ofNat_toNat c).symm
    simp only [escapeRaw]
    split_ifs with hquote hback hnewline hreturn htab hfeed hbackspace hcontrol
    · subst hquote
      exact scanString_mark rfl h
    · subst hback
      exact scanString_mark rfl h
    · subst hnewline
      exact scanString_mark rfl h
    · subst hreturn
      exact scanString_mark rfl h
    · subst htab
      exact scanString_mark rfl h
    · rw [hnat 12 hfeed]
      exact scanString_mark rfl h
    · rw [hnat 8 hbackspace]
      exact scanString_mark rfl h
    · have happend : Str.ofString ("\\u" ++ hex4 c.toNat) ++ t =
          .char '\\' :: .char 'u' :: (Str.ofString (hex4 c.toNat) ++ t) := by
        simp [Str.ofString]
      rw [happend]
      exact scanString_escape (escape_control hcontrol t) h
    · exact scanString_plain (by simpa using hquote) (by simpa using hback)
        (by simpa [isControl] using hcontrol) h

theorem escapeRaw_ne_nil (c : Cp) : escapeRaw c ≠ [] := by
  cases c with
  | lone k => simp [escapeRaw]
  | char c =>
    simp only [escapeRaw]
    split_ifs <;> simp [Str.ofString]

theorem length_le_flatMap_escapeRaw (s : Str) : s.length ≤ (s.flatMap escapeRaw).length := by
  induction s with
  | nil => simp
  | cons c s ih =>
    have hc := List.length_pos_of_ne_nil (escapeRaw_ne_nil c)
    rw [List.flatMap_cons, List.length_append, List.length_cons]
    omega

/-- **A quoted string is read as the string.** -/
theorem stringFrom_quoteRaw (s r : Str) :
    stringFrom (s.flatMap escapeRaw ++ (.char '"' :: r)) = some (s, r) := by
  have hscan : ∀ n, s.length < n →
      scanString n (s.flatMap escapeRaw ++ (.char '"' :: r)) = some (s, r) := by
    induction s with
    | nil =>
      intro n hn
      obtain ⟨m, rfl⟩ : ∃ m, n = m + 1 := ⟨n - 1, by simp at hn; omega⟩
      rfl
    | cons c s ih =>
      intro n hn
      obtain ⟨m, rfl⟩ : ∃ m, n = m + 1 := ⟨n - 1, by simp at hn; omega⟩
      rw [List.flatMap_cons, List.append_assoc]
      exact scanString_escapeRaw c (ih m (by simpa using hn))
  refine hscan _ ?_
  have hle := length_le_flatMap_escapeRaw s
  rw [List.length_append, List.length_cons]
  omega

theorem quoteRaw_eq (s : Str) : quoteRaw s = .char '"' :: (s.flatMap escapeRaw ++ [.char '"']) := by
  simp [quoteRaw, Str.ofString]

theorem reads_str (depth : ℕ) (s : Str) : D.Reads depth (.str s) (quoteRaw s) := by
  rw [quoteRaw_eq]
  exact D.value_string (stringFrom_quoteRaw s []) depth

theorem head_toDigits {n : ℕ} (h : 0 < n) : (Nat.toDigits 10 n).head? ≠ some '0' := by
  induction n using Nat.strong_induction_on with
  | _ n ih =>
    by_cases hn : n < 10
    · rw [Nat.toDigits_of_lt_base hn]
      interval_cases n <;> decide
    · have hle : 10 ≤ n := Nat.le_of_not_lt hn
      rw [Nat.toDigits_of_base_le (by omega) hle]
      have ih := ih (n / 10) (by omega) (by omega)
      have hne : Nat.toDigits 10 (n / 10) ≠ [] := Nat.toDigits_ne_nil
      rwa [List.head?_append_of_ne_nil _ hne]

theorem natural_toDigits (n : ℕ) :
    natural ((Nat.toDigits 10 n).map Cp.char) = some ((Nat.toDigits 10 n).map Cp.char, []) := by
  rcases Nat.eq_zero_or_pos n with rfl | hn
  · rw [Nat.toDigits_zero]
    rfl
  · have hall : ∀ c ∈ (Nat.toDigits 10 n).map Cp.char, isDigit c = true := by
      intro c hc
      obtain ⟨d, hd, rfl⟩ := List.mem_map.1 hc
      exact Nat.isDigit_of_mem_toDigits (by omega) (by omega) hd
    have htake := List.takeWhile_eq_self_iff.2 hall
    have hdrop := List.dropWhile_eq_nil_iff.2 hall
    have hhead : ((Nat.toDigits 10 n).map Cp.char).head? ≠ some (.char '0') := by
      rw [List.head?_map]
      intro h
      obtain ⟨d, hd, hd'⟩ := Option.map_eq_some_iff.1 h
      cases hd'
      exact head_toDigits hn hd
    have hne : (Nat.toDigits 10 n).map Cp.char ≠ [] := by simp [Nat.toDigits_ne_nil]
    rw [natural, if_neg hhead, htake, hdrop, if_neg hne]

theorem number_toDigits {negative : Bool} {n : ℕ} (h : (Nat.toDigits 10 n).length ≤ D.digits) :
    D.number negative ((Nat.toDigits 10 n).map Cp.char) =
      .ok (.int (if negative then -n else n), []) := by
  have hlength : ¬D.digits < ((Nat.toDigits 10 n).map Cp.char).length := by
    rwa [List.length_map, Nat.not_lt]
  have hvalue : Nat.ofDigitChars 10 (((Nat.toDigits 10 n).map Cp.char).map Cp.toChar) 0 = n := by
    rw [List.map_map]
    have hid : Cp.toChar ∘ Cp.char = id := rfl
    rw [hid, List.map_id, Nat.ofDigitChars_ten_toDigits]
  have hfraction : fraction [] = ([], []) := rfl
  have hexponent : exponent [] = ([], []) := rfl
  simp only [Decoder.number, natural_toDigits, hfraction, hexponent, Decoder.numeral,
    List.append_nil, if_true, if_neg hlength, hvalue]
  rfl

theorem ofString_toString (n : ℤ) :
    Str.ofString (toString n) =
      (if n < 0 then [.char '-'] else []) ++ (Nat.toDigits 10 n.natAbs).map Cp.char := by
  cases n with
  | ofNat n =>
    have htext : toString (Int.ofNat n) = String.ofList (Nat.toDigits 10 n) := by
      rw [← Nat.repr_eq_ofList_toDigits]
      rfl
    have hneg : ¬Int.ofNat n < 0 := Int.not_lt.2 (Int.natCast_nonneg n)
    rw [htext, if_neg hneg]
    simp [Str.ofString]
  | negSucc n =>
    have htext : toString (Int.negSucc n) = "-" ++ String.ofList (Nat.toDigits 10 (n + 1)) := by
      rw [← Nat.repr_eq_ofList_toDigits]
      rfl
    rw [htext, if_pos (Int.negSucc_lt_zero n)]
    simp [Str.ofString]

theorem reads_int (depth : ℕ) {n : ℤ} (h : (Nat.toDigits 10 n.natAbs).length ≤ D.digits) :
    D.Reads depth (.int n) (Str.ofString (toString n)) := by
  obtain ⟨c, u, hcu⟩ : ∃ c u, Nat.toDigits 10 n.natAbs = c :: u :=
    List.exists_cons_of_ne_nil Nat.toDigits_ne_nil
  have hdigit : isDigit (.char c) = true :=
    Nat.isDigit_of_mem_toDigits (b := 10) (n := n.natAbs) (by omega) (by omega) (by simp [hcu])
  have hnumber : ∀ negative, D.number negative (.char c :: u.map Cp.char) =
      .ok (.int (if negative then -n.natAbs else n.natAbs), []) := by
    intro negative
    have hdigits : D.number negative ((Nat.toDigits 10 n.natAbs).map Cp.char) = _ :=
      number_toDigits D h
    rwa [hcu] at hdigits
  have hne : ∀ b : Char, b.isDigit = false → Cp.char c ≠ .char b := by
    intro b hb hcb
    rw [hcb, isDigit, hb] at hdigit
    cases hdigit
  rw [Decoder.Reads, ofString_toString, hcu, List.map_cons]
  by_cases hneg : n < 0
  · rw [if_pos hneg, List.singleton_append, D.value_atom (by simp) (by simp) (by simp),
      (D.atom_number hdigit _).2, hnumber]
    have habs : -(n.natAbs : ℤ) = n := by omega
    simp only [if_true, habs]
  · rw [if_neg hneg, List.nil_append, D.value_atom (hne _ rfl) (hne _ rfl) (hne _ rfl),
      (D.atom_number hdigit _).1, hnumber]
    have habs : (n.natAbs : ℤ) = n := by omega
    simp only [Bool.false_eq_true, if_false, habs]

/-! ### Layouts -/

/-- The blanks after an opening bracket, after a comma and before a closing bracket, at each level. -/
structure Layout where
  opening : ℕ → Str
  sep : ℕ → Str
  closing : ℕ → Str
  blank_opening : ∀ level, Blank (opening level)
  blank_sep : ∀ level, Blank (sep level)
  blank_closing : ∀ level, Blank (closing level)

/-- The text of a list or a dictionary; an empty one has no blanks. -/
def Layout.wrap (L : Layout) (level : ℕ) (opening close : Char) (texts : List Str) : Str :=
  if texts = [] then [.char opening, .char close]
  else .char opening :: joined (L.opening level) (L.sep level) (L.closing level) close texts

mutual

/-- The text of a value in a layout. -/
def Json.spelled (L : Layout) : ℕ → Json → Str
  | _, .str s => quoteRaw s
  | level, .arr elems => L.wrap level '[' ']' (spelledAll L (level + 1) elems)
  | level, .obj fields => L.wrap level '{' '}' (spelledFields L (level + 1) fields)
  | _, x => Str.ofString x.dumps

def spelledAll (L : Layout) : ℕ → List Json → List Str
  | _, [] => []
  | level, x :: xs => x.spelled L level :: spelledAll L level xs

def spelledFields (L : Layout) : ℕ → List (Str × Json) → List Str
  | _, [] => []
  | level, (k, v) :: fields =>
    (quoteRaw k ++ Str.ofString ": " ++ v.spelled L level) :: spelledFields L level fields

end

mutual

/-- The values whose text is read back, by the nesting that is left. -/
def Json.Storable (D : Decoder) : ℕ → Json → Prop
  | depth, .arr elems => 0 < depth ∧ storableAll D (depth - 1) elems
  | depth, .obj fields =>
    0 < depth ∧ (fields.map Prod.fst).Nodup ∧ storableFields D (depth - 1) fields
  | _, .int n => (Nat.toDigits 10 n.natAbs).length ≤ D.digits
  | _, .float (.finite value text) =>
    D.Reads 0 (.float (.finite value text)) (Str.ofString text)
  | _, _ => True

def storableAll (D : Decoder) : ℕ → List Json → Prop
  | _, [] => True
  | depth, x :: xs => x.Storable D depth ∧ storableAll D depth xs

def storableFields (D : Decoder) : ℕ → List (Str × Json) → Prop
  | _, [] => True
  | depth, (_, v) :: fields => v.Storable D depth ∧ storableFields D depth fields

end

theorem reads_literal {l : Str × Json} (hl : l ∈ literals) (depth : ℕ) :
    D.Reads depth l.2 l.1 := by
  have hatom := D.atom_literal hl []
  rw [List.append_nil] at hatom
  simp only [literals, List.mem_cons, List.not_mem_nil, or_false] at hl
  rcases hl with rfl | rfl | rfl | rfl | rfl | rfl <;>
    exact (D.value_atom (by decide) (by decide) (by decide) depth _).trans hatom

theorem reads_float {f : Float64} {t : Str} (h : D.Reads 0 (.float f) t) (depth : ℕ) :
    D.Reads depth (.float f) t := by
  obtain ⟨u, v, -, -, hx⟩ | ⟨n, u, hn, -⟩ | ⟨n, u, hn, -⟩ |
    ⟨c, u, rfl, hquote, hbracket, hbrace, hatom⟩ := D.value_cases h
  · cases hx
  · cases hn
  · cases hn
  · rw [Decoder.Reads, D.value_atom hquote hbracket hbrace]
    exact hatom

theorem reads_wrap_arr (L : Layout) (level : ℕ) {depth : ℕ} (items : List (Json × Str))
    (hitems : ∀ i ∈ items, D.Reads depth i.1 i.2) :
    D.Reads (depth + 1) (.arr (items.map Prod.fst)) (L.wrap level '[' ']' (items.map Prod.snd)) := by
  unfold Layout.wrap
  split_ifs with hempty
  · obtain rfl := List.map_eq_nil_iff.1 hempty
    have hblank : Blank [] := by simp [Blank]
    exact reads_arr D hblank hblank hblank [] (by simp)
  · exact reads_arr D (L.blank_opening level) (L.blank_sep level) (L.blank_closing level) items hitems

theorem reads_wrap_obj (L : Layout) (level : ℕ) {depth : ℕ} (items : List ((Str × Json) × Str))
    (hitems : ∀ i ∈ items, entry (D.value depth) i.2 = .ok (i.1, []))
    (hkeys : ((items.map Prod.fst).map Prod.fst).Nodup) :
    D.Reads (depth + 1) (.obj (items.map Prod.fst)) (L.wrap level '{' '}' (items.map Prod.snd)) := by
  unfold Layout.wrap
  split_ifs with hempty
  · obtain rfl := List.map_eq_nil_iff.1 hempty
    have hblank : Blank [] := by simp [Blank]
    exact reads_obj D hblank hblank hblank [] (by simp) hkeys
  · exact reads_obj D (L.blank_opening level) (L.blank_sep level) (L.blank_closing level) items hitems
      hkeys

/-- A key and its value, with the colon and the blank between them. -/
theorem entry_quoteRaw {depth : ℕ} (key : Str) {x : Json} {t : Str} (h : D.Reads depth x t) :
    entry (D.value depth) (quoteRaw key ++ Str.ofString ": " ++ t) = .ok ((key, x), []) := by
  have htext : quoteRaw key ++ Str.ofString ": " ++ t =
      .char '"' :: (key.flatMap escapeRaw ++ (.char '"' :: (.char ':' :: .char ' ' :: t))) := by
    rw [quoteRaw_eq]
    simp [Str.ofString]
  have hskip : skip (.char ' ' :: t) = t := by
    have hblank : skip (.char ' ' :: t) = skip t := rfl
    rw [hblank, skip_of_starts (starts_of_value D h)]
  rw [htext]
  exact entry_eq (stringFrom_quoteRaw key _) (skip_cons rfl _) (by rw [hskip]; exact h)

mutual

/-- **The text of a value is read as the value**, in any layout. -/
theorem reads_spelled (L : Layout) : (level depth : ℕ) → (x : Json) → x.Storable D depth →
    D.Reads depth x (x.spelled L level)
  | _, depth, .str s, _ => reads_str D depth s
  | _, 0, .arr elems, h => by cases h.1
  | level, depth + 1, .arr elems, h => by
    obtain ⟨items, hfst, hsnd, hitems⟩ := reads_spelledAll L (level + 1) depth elems h.2
    have hread := reads_wrap_arr D L level items hitems
    rwa [hfst, hsnd] at hread
  | _, 0, .obj fields, h => by cases h.1
  | level, depth + 1, .obj fields, h => by
    obtain ⟨items, hfst, hsnd, hitems⟩ := reads_spelledFields L (level + 1) depth fields h.2.2
    have hread := reads_wrap_obj D L level items hitems (by rw [hfst]; exact h.2.1)
    rwa [hfst, hsnd] at hread
  | _, depth, .null, _ => reads_literal D (l := (Str.ofString "null", .null)) (by simp [literals]) depth
  | _, depth, .bool true, _ =>
    reads_literal D (l := (Str.ofString "true", .bool true)) (by simp [literals]) depth
  | _, depth, .bool false, _ =>
    reads_literal D (l := (Str.ofString "false", .bool false)) (by simp [literals]) depth
  | _, depth, .int n, h => reads_int D depth h
  | _, depth, .float (.finite value text), h => reads_float D h depth
  | _, depth, .float .nan, _ =>
    reads_literal D (l := (Str.ofString "NaN", .float .nan)) (by simp [literals]) depth
  | _, depth, .float (.inf true), _ =>
    reads_literal D (l := (Str.ofString "-Infinity", .float (.inf true))) (by simp [literals]) depth
  | _, depth, .float (.inf false), _ =>
    reads_literal D (l := (Str.ofString "Infinity", .float (.inf false))) (by simp [literals]) depth

theorem reads_spelledAll (L : Layout) : (level depth : ℕ) → (xs : List Json) →
    storableAll D depth xs → ∃ items : List (Json × Str), items.map Prod.fst = xs ∧
      items.map Prod.snd = spelledAll L level xs ∧ ∀ i ∈ items, D.Reads depth i.1 i.2
  | _, _, [], _ => ⟨[], rfl, rfl, by simp⟩
  | level, depth, x :: xs, h => by
    obtain ⟨items, hfst, hsnd, hitems⟩ := reads_spelledAll L level depth xs h.2
    have hx := reads_spelled L level depth x h.1
    exact ⟨(x, x.spelled L level) :: items, by simp [hfst], by simp [hsnd, spelledAll],
      by simpa [hx] using hitems⟩

theorem reads_spelledFields (L : Layout) : (level depth : ℕ) → (fields : List (Str × Json)) →
    storableFields D depth fields → ∃ items : List ((Str × Json) × Str),
      items.map Prod.fst = fields ∧ items.map Prod.snd = spelledFields L level fields ∧
      ∀ i ∈ items, entry (D.value depth) i.2 = .ok (i.1, [])
  | _, _, [], _ => ⟨[], rfl, rfl, by simp⟩
  | level, depth, (k, v) :: fields, h => by
    obtain ⟨items, hfst, hsnd, hitems⟩ := reads_spelledFields L level depth fields h.2
    have hv := entry_quoteRaw D k (reads_spelled L level depth v h.1)
    refine ⟨((k, v), quoteRaw k ++ Str.ofString ": " ++ v.spelled L level) :: items,
      by simp [hfst], by simp [hsnd, spelledFields], ?_⟩
    intro i hi
    obtain rfl | hi := List.mem_cons.1 hi
    · exact hv
    · exact hitems i hi

end

/-! ### UTF-8 -/

theorem encodable_blank {w : Str} (h : Blank w) : Str.encodable w = true := by
  rw [Str.encodable, List.all_eq_true]
  intro c hc
  cases c with
  | char c => rfl
  | lone k => cases h _ hc

theorem encodable_joined {opening sep closing : Str} (hopening : Blank opening) (hsep : Blank sep)
    (hclosing : Blank closing) (close : Char) (texts : List Str) :
    Str.encodable (joined opening sep closing close texts) = texts.all Str.encodable := by
  have hcomma : Str.encodable (.char ',' :: sep) = true := by
    simpa [Str.encodable, Cp.isChar] using encodable_blank hsep
  have hparts : Str.encodable ((.char ',' :: sep : Str).intercalate texts) =
      texts.all Str.encodable := by
    induction texts with
    | nil => rfl
    | cons t ts ih =>
      cases ts with
      | nil => simp [List.intercalate]
      | cons t' ts =>
        rw [List.intercalate_cons_cons, Str.encodable_append, Str.encodable_append, ih, hcomma]
        simp
  have hclose : Str.encodable [Cp.char close] = true := rfl
  simp [joined, encodable_blank hopening, encodable_blank hclosing, hparts, hclose]

theorem Layout.encodable_wrap (L : Layout) (level : ℕ) (opening close : Char) (texts : List Str) :
    Str.encodable (L.wrap level opening close texts) = texts.all Str.encodable := by
  unfold Layout.wrap
  split_ifs with hempty
  · subst hempty
    rfl
  · exact encodable_joined (L.blank_opening level) (L.blank_sep level) (L.blank_closing level) close
      texts

mutual

theorem Json.encodable_spelled (L : Layout) : (level : ℕ) → (x : Json) →
    Str.encodable (x.spelled L level) = x.encodable
  | _, .str s => by rw [Json.spelled, encodable_quoteRaw, Json.encodable]
  | level, .arr elems => by
    rw [Json.spelled, L.encodable_wrap, encodable_spelledAll L (level + 1) elems, Json.encodable]
  | level, .obj fields => by
    rw [Json.spelled, L.encodable_wrap, encodable_spelledFields L (level + 1) fields,
      Json.encodable]
  | _, .null => by simp [Json.spelled, Json.encodable]
  | _, .bool b => by simp [Json.spelled, Json.encodable]
  | _, .int n => by simp [Json.spelled, Json.encodable]
  | _, .float x => by simp [Json.spelled, Json.encodable]

theorem encodable_spelledAll (L : Layout) : (level : ℕ) → (xs : List Json) →
    (spelledAll L level xs).all Str.encodable = encodableAll xs
  | _, [] => rfl
  | level, x :: xs => by
    rw [spelledAll, List.all_cons, Json.encodable_spelled L level x, encodable_spelledAll L level xs,
      encodableAll]

theorem encodable_spelledFields (L : Layout) : (level : ℕ) → (fields : List (Str × Json)) →
    (spelledFields L level fields).all Str.encodable = encodableFields fields
  | _, [] => rfl
  | level, (k, v) :: fields => by
    rw [spelledFields, List.all_cons, Str.encodable_append, Str.encodable_append,
      encodable_quoteRaw, Json.encodable_spelled L level v, encodable_spelledFields L level fields,
      encodableFields]
    simp

end

/-! ### Decoding -/

theorem head_ne_mark {depth : ℕ} {s : Str} {p : Json × Str} (h : D.value depth s = .ok p) :
    s.head? ≠ some (.char (Char.ofNat 0xFEFF)) := by
  obtain ⟨u, v, rfl, -⟩ | ⟨n, u, -, rfl, -⟩ | ⟨n, u, -, rfl, -⟩ | ⟨c, u, rfl, -, -, -, hatom⟩ :=
    D.value_cases h
  · simp
  · simp
  · simp
  · rintro ⟨⟩
    obtain ⟨l, hl, hs, -⟩ | ⟨b, v, hb, ⟨hs, -⟩ | ⟨hs, -⟩⟩ := D.atom_cases hatom
    · simp only [literals, List.mem_cons, List.not_mem_nil, or_false] at hl
      rcases hl with rfl | rfl | rfl | rfl | rfl | rfl <;> cases hs
    · cases hs
      cases hb
    · cases hs

/-- A text is decoded to the value it is read as, with any blanks after it. -/
theorem loads_of_reads {x : Json} {t w : Str} (h : D.Reads D.depth x t) (hw : Blank w) :
    D.loads (t ++ w) = .ok x := by
  have hfollows : Follows w := by
    intro c hc
    exact .inl (hw c (List.mem_of_mem_head? hc))
  have hvalue : D.value D.depth (t ++ w) = .ok (x, w) := (D.readsOn_value D.depth).follow h hfollows
  have hskip : skip w = [] := by
    have hnil := skip_blank hw []
    rwa [List.append_nil] at hnil
  rw [Decoder.loads, if_neg (head_ne_mark D hvalue), skip_of_starts (starts_of_value D hvalue), hvalue]
  simp [hskip]

/-- **The text of a value is decoded to the value.** -/
theorem loads_spelled (L : Layout) (level : ℕ) {x : Json} (h : x.Storable D D.depth) {w : Str}
    (hw : Blank w) : D.loads (x.spelled L level ++ w) = .ok x :=
  loads_of_reads D (reads_spelled D L level D.depth x h) hw

/-- **A text of a list or a dictionary that was cut short is no value.** -/
theorem loads_cut {x : Json} {t s r : Str} (h : D.Reads D.depth x t)
    (hopen : ∃ u, t = .char '[' :: u ∨ t = .char '{' :: u) (ht : t = s ++ r) (hr : r ≠ []) (y : Json) :
    D.loads s ≠ .ok y := by
  intro hy
  cases s with
  | nil => cases hd : D.depth <;> simp [Decoder.loads, hd, skip, Decoder.value] at hy
  | cons c s =>
    have hc : c = .char '[' ∨ c = .char '{' := by
      obtain ⟨u, hu | hu⟩ := hopen
      · rw [ht] at hu
        cases hu
        exact .inl rfl
      · rw [ht] at hu
        cases hu
        exact .inr rfl
    have hskip : skip (c :: s) = c :: s := skip_cons (by rcases hc with rfl | rfl <;> rfl) s
    unfold Decoder.loads at hy
    rw [hskip] at hy
    split_ifs at hy
    cases hvalue : D.value D.depth (c :: s) with
    | error e =>
      rw [hvalue] at hy
      cases hy
    | ok p =>
      obtain ⟨z, rest⟩ := p
      have hwhole := D.value_append (fun n _ => D.readsOn_value n) hvalue r
        (.inl ⟨s, hc.elim (fun h => .inr (.inl (by rw [h]))) (fun h => .inr (.inr (by rw [h])))⟩)
      rw [← ht, h] at hwhole
      -- the whole text leaves nothing, the shorter one at least what was cut off
      have hnil : rest ++ r = [] := by
        injection hwhole with hwhole
        exact (congrArg Prod.snd hwhole).symm
      exact hr (List.append_eq_nil_iff.1 hnil).2

/-! ### The printers -/

theorem blank_spaces (n : ℕ) : Blank (List.replicate n (.char ' ')) := by
  intro c hc
  rw [List.eq_of_mem_replicate hc]
  rfl

theorem blank_newline (n : ℕ) : Blank (.char '\n' :: List.replicate n (.char ' ')) := by
  intro c hc
  obtain rfl | hc := List.mem_cons.1 hc
  · rfl
  · exact blank_spaces n c hc

/-- The layout of `json.dumps` on one line. -/
def oneLine : Layout where
  opening _ := List.replicate 0 (.char ' ')
  sep _ := List.replicate 1 (.char ' ')
  closing _ := List.replicate 0 (.char ' ')
  blank_opening _ := blank_spaces 0
  blank_sep _ := blank_spaces 1
  blank_closing _ := blank_spaces 0

mutual

theorem Json.dumpsRaw_eq_spelled : (level : ℕ) → (x : Json) → x.dumpsRaw = x.spelled oneLine level
  | _, .str _ => rfl
  | level, .arr elems => by
    rw [Json.dumpsRaw, Json.spelled, dumpsRawAll_eq_spelledAll (level + 1) elems]
    cases elems with
    | nil => rfl
    | cons x xs => simp [Layout.wrap, spelledAll, joined, oneLine, Str.ofString]
  | level, .obj fields => by
    rw [Json.dumpsRaw, Json.spelled, dumpsRawFields_eq_spelledFields (level + 1) fields]
    cases fields with
    | nil => rfl
    | cons kv fields => simp [Layout.wrap, spelledFields, joined, oneLine, Str.ofString]
  | _, .null => rfl
  | _, .bool _ => rfl
  | _, .int _ => rfl
  | _, .float _ => rfl

theorem dumpsRawAll_eq_spelledAll : (level : ℕ) → (xs : List Json) →
    dumpsRawAll xs = spelledAll oneLine level xs
  | _, [] => rfl
  | level, x :: xs => by
    rw [dumpsRawAll, spelledAll, Json.dumpsRaw_eq_spelled level x,
      dumpsRawAll_eq_spelledAll level xs]

theorem dumpsRawFields_eq_spelledFields : (level : ℕ) → (fields : List (Str × Json)) →
    dumpsRawFields fields = spelledFields oneLine level fields
  | _, [] => rfl
  | level, (k, v) :: fields => by
    rw [dumpsRawFields, spelledFields, Json.dumpsRaw_eq_spelled level v,
      dumpsRawFields_eq_spelledFields level fields]

end

/-- The layout of `json.dumps` with an indentation. -/
def indented (width : ℕ) : Layout where
  opening level := .char '\n' :: List.replicate (width * (level + 1)) (.char ' ')
  sep level := .char '\n' :: List.replicate (width * (level + 1)) (.char ' ')
  closing level := .char '\n' :: List.replicate (width * level) (.char ' ')
  blank_opening level := blank_newline (width * (level + 1))
  blank_sep level := blank_newline (width * (level + 1))
  blank_closing level := blank_newline (width * level)

/-- `json.dumps(x, ensure_ascii=False, indent=width)`. -/
def Json.dumpsIndent (width : ℕ) (x : Json) : Str := x.spelled (indented width) 0

theorem loads_dumpsRaw {x : Json} (h : x.Storable D D.depth) {w : Str} (hw : Blank w) :
    D.loads (x.dumpsRaw ++ w) = .ok x := by
  rw [x.dumpsRaw_eq_spelled 0]
  exact loads_spelled D oneLine 0 h hw

/-! ### One line -/

/-- What a number is written with. -/
def isNumeric (c : Cp) : Bool :=
  isDigit c || isPoint c || isExponentMark c || c = .char '-' || c = .char '+'

theorem natural_text {s digits r : Str} (h : natural s = some (digits, r)) :
    s = digits ++ r ∧ ∀ c ∈ digits, isDigit c = true := by
  unfold natural at h
  split_ifs at h with hzero hnone
  · cases s with
    | nil => cases hzero
    | cons c s =>
      cases hzero
      cases h
      exact ⟨rfl, by simp [isDigit]⟩
  · cases h
    exact ⟨List.takeWhile_append_dropWhile.symm, fun c hc => List.mem_takeWhile_imp hc⟩

theorem fraction_text (s : Str) :
    s = (fraction s).1 ++ (fraction s).2 ∧ ∀ c ∈ (fraction s).1, isNumeric c = true := by
  unfold fraction
  split_ifs with hpoint
  · cases s with
    | nil => cases hpoint.1
    | cons c s =>
      cases hpoint.1
      refine ⟨by simp [List.takeWhile_append_dropWhile], ?_⟩
      intro c hc
      obtain rfl | hc := List.mem_cons.1 hc
      · rfl
      · simp [isNumeric, List.mem_takeWhile_imp hc]
  · simp

theorem mem_take_signLength {s : Str} {c : Cp} (h : c ∈ s.take (signLength s)) :
    c = .char '-' ∨ c = .char '+' := by
  rcases s with _ | ⟨b | k, s⟩
  · simp at h
  · simp only [signLength] at h
    split_ifs at h with hsign
    · obtain rfl : c = .char b := by simpa using h
      exact hsign.imp (congrArg _) (congrArg _)
    · simp at h
  · simp [signLength] at h

theorem exponent_text (s : Str) :
    s = (exponent s).1 ++ (exponent s).2 ∧ ∀ c ∈ (exponent s).1, isNumeric c = true := by
  unfold exponent
  simp only
  split_ifs with hmark
  · refine ⟨?_, ?_⟩
    · rw [List.append_assoc, List.takeWhile_append_dropWhile, List.take_append_drop]
    · intro c hc
      obtain hc | hc := List.mem_append.1 hc
      · cases s with
        | nil => simp at hc
        | cons a s =>
          rw [Nat.add_comm, List.take_succ_cons] at hc
          obtain rfl | hc := List.mem_cons.1 hc
          · rcases hmark.1 with ha | ha <;> cases ha <;> rfl
          · rcases mem_take_signLength hc with rfl | rfl <;> rfl
      · simp [isNumeric, List.mem_takeWhile_imp hc]
  · simp

theorem Decoder.number_text {negative : Bool} {s : Str} {x : Json}
    (h : D.number negative s = .ok (x, [])) : ∀ c ∈ s, isNumeric c = true := by
  unfold Decoder.number at h
  cases hnatural : natural s with
  | none =>
    rw [hnatural] at h
    cases h
  | some p =>
    obtain ⟨digits, u⟩ := p
    rw [hnatural] at h
    simp only at h
    have hrest : (exponent (fraction u).2).2 = [] := by
      cases hnumeral : D.numeral negative digits (fraction u).1 (exponent (fraction u).2).1 with
      | error e =>
        rw [hnumeral] at h
        cases h
      | ok y =>
        rw [hnumeral] at h
        injection h with h
        exact congrArg Prod.snd h
    obtain ⟨rfl, hdigits⟩ := natural_text hnatural
    obtain ⟨hfraction, hf⟩ := fraction_text u
    obtain ⟨hexponent, he⟩ := exponent_text (fraction u).2
    rw [hrest, List.append_nil] at hexponent
    intro c hc
    rw [hfraction, hexponent] at hc
    simp only [List.mem_append] at hc
    obtain hc | hc | hc := hc
    · simp [isNumeric, hdigits c hc]
    · exact hf c hc
    · exact he c hc

/-- The text of a literal or a number has no line break. -/
theorem newline_notMem_atom {s : Str} {x : Json} (h : D.atom s = .ok (x, [])) :
    Cp.char '\n' ∉ s := by
  obtain ⟨l, hl, rfl, -⟩ | ⟨c, u, hc, ⟨rfl, hnumber⟩ | ⟨rfl, hnumber⟩⟩ := D.atom_cases h
  · simp only [literals, List.mem_cons, List.not_mem_nil, or_false] at hl
    rcases hl with rfl | rfl | rfl | rfl | rfl | rfl <;> simp [Str.ofString]
  · intro hmem
    cases D.number_text hnumber _ hmem
  · intro hmem
    obtain hmem | hmem := List.mem_cons.1 hmem
    · cases hmem
    · cases D.number_text hnumber _ hmem

theorem newline_notMem_escapeRaw (c : Cp) : Cp.char '\n' ∉ escapeRaw c := by
  cases c with
  | lone k => simp [escapeRaw]
  | char c =>
    simp only [escapeRaw]
    split_ifs with hquote hback hnewline hreturn htab hfeed hbackspace hcontrol
    · simp [Str.ofString]
    · simp [Str.ofString]
    · simp [Str.ofString]
    · simp [Str.ofString]
    · simp [Str.ofString]
    · simp [Str.ofString]
    · simp [Str.ofString]
    · have htext : Str.ofString ("\\u" ++ hex4 c.toNat) =
          .char '\\' :: .char 'u' :: Str.ofString (hex4 c.toNat) := by
        simp [Str.ofString]
      have hdigit : ∀ n < 16, Nat.digitChar n ≠ '\n' := by decide
      rw [htext, hex4_control hcontrol]
      simp [(hdigit _ (show c.toNat / 16 < 16 by omega)).symm,
        (hdigit _ (show c.toNat % 16 < 16 by omega)).symm]
    · simpa using Ne.symm hnewline

theorem newline_notMem_quoteRaw (s : Str) : Cp.char '\n' ∉ quoteRaw s := by
  rw [quoteRaw_eq]
  simp [newline_notMem_escapeRaw]

theorem newline_notMem_intercalate {texts : List Str} (h : ∀ t ∈ texts, Cp.char '\n' ∉ t) :
    Cp.char '\n' ∉ (Str.ofString ", ").intercalate texts := by
  induction texts with
  | nil => simp [List.intercalate]
  | cons t ts ih =>
    cases ts with
    | nil => simpa [List.intercalate] using h
    | cons t' ts =>
      have ht : Cp.char '\n' ∉ t := h t (by simp)
      have hrest := ih fun u hu => h u (by simp [hu])
      rw [List.intercalate_cons_cons, List.mem_append, List.mem_append]
      simpa [ht, Str.ofString] using hrest

theorem newline_notMem_of_reads {depth : ℕ} {x : Json} {t : Str} (h : D.Reads depth x t)
    (hx : (∃ n, x = .int n) ∨ ∃ f, x = .float f) : Cp.char '\n' ∉ t := by
  obtain ⟨u, v, -, -, rfl⟩ | ⟨n, u, -, -, hlist⟩ | ⟨n, u, -, -, hdict⟩ |
    ⟨c, u, rfl, -, -, -, hatom⟩ := D.value_cases h
  · simp at hx
  · obtain ⟨xs, -, rfl⟩ := map_eq_ok hlist
    simp at hx
  · obtain ⟨d, -, rfl⟩ := map_eq_ok hdict
    simp at hx
  · exact newline_notMem_atom D hatom

mutual

/-- **The text of a value is one line.** -/
theorem newline_notMem_dumpsRaw : (depth : ℕ) → (x : Json) → x.Storable D depth →
    Cp.char '\n' ∉ x.dumpsRaw
  | _, .str s, _ => by
    rw [Json.dumpsRaw]
    exact newline_notMem_quoteRaw s
  | depth, .arr elems, h => by
    have hall := newline_notMem_intercalate (newline_notMem_dumpsRawAll (depth - 1) elems h.2)
    rw [Json.dumpsRaw, List.mem_append, List.mem_append]
    simpa [Str.ofString] using hall
  | depth, .obj fields, h => by
    have hall :=
      newline_notMem_intercalate (newline_notMem_dumpsRawFields (depth - 1) fields h.2.2)
    rw [Json.dumpsRaw, List.mem_append, List.mem_append]
    simpa [Str.ofString] using hall
  | _, .null, _ => by simp [Json.dumpsRaw, Json.dumps, Str.ofString]
  | _, .bool b, _ => by cases b <;> simp [Json.dumpsRaw, Json.dumps, Str.ofString]
  | depth, .int n, h => newline_notMem_of_reads D (reads_int D depth h) (.inl ⟨n, rfl⟩)
  | _, .float (.finite value text), h => newline_notMem_of_reads D h (.inr ⟨_, rfl⟩)
  | _, .float .nan, _ => by simp [Json.dumpsRaw, Json.dumps, Str.ofString]
  | _, .float (.inf b), _ => by cases b <;> simp [Json.dumpsRaw, Json.dumps, Str.ofString]

theorem newline_notMem_dumpsRawAll : (depth : ℕ) → (xs : List Json) → storableAll D depth xs →
    ∀ t ∈ dumpsRawAll xs, Cp.char '\n' ∉ t
  | _, [], _ => by simp [dumpsRawAll]
  | depth, x :: xs, h => by
    have hx := newline_notMem_dumpsRaw depth x h.1
    have hxs := newline_notMem_dumpsRawAll depth xs h.2
    rw [dumpsRawAll]
    intro t ht
    obtain rfl | ht := List.mem_cons.1 ht
    · exact hx
    · exact hxs t ht

theorem newline_notMem_dumpsRawFields : (depth : ℕ) → (fields : List (Str × Json)) →
    storableFields D depth fields → ∀ t ∈ dumpsRawFields fields, Cp.char '\n' ∉ t
  | _, [], _ => by simp [dumpsRawFields]
  | depth, (k, v) :: fields, h => by
    have hv := newline_notMem_dumpsRaw depth v h.1
    have hfields := newline_notMem_dumpsRawFields depth fields h.2
    rw [dumpsRawFields]
    intro t ht
    obtain rfl | ht := List.mem_cons.1 ht
    · rw [List.mem_append, List.mem_append]
      simp [hv, newline_notMem_quoteRaw, Str.ofString]
    · exact hfields t ht

end


end Py
