/-
**The lines between the bridge and the App Server.**

`CodexAppServerRuntime` and the App Server exchange JSON values, one on a line.  `_write` puts the text
of a message and a line break into the pipe; a dead process and text without a UTF-8 form make it raise
before anything is written.  Any number of coroutines write, and the prompt of a user, the page it was
asked on and the text of a tool's result are all part of messages.

The other side reads line by line, decodes each line and skips those that hold no value, also the
rest of a line at the end of a pipe that was cut off.  How it decodes is an input: what is asked of it
is that it reads the text of a message as that message, and no part of such a text as a value.  Then it
finds exactly the messages that were written, in their order: no text in a message ends its line or
begins another one.

Main definitions:

* `turnStart`, `replyMessage` — messages with the texts of users and tools;
* `write`, `stream` — a write, and what a run of writes puts into the pipe;
* `Peer`, `received` — the other side, and what it decodes.

Main results:

* `proper_turnStart` — a turn can be sent whatever the user writes;
* `received_of_cut` — **wherever the pipe is cut off, the other side has received the
  first of the messages, whole and in order**.
-/

import QuantFlow.AgentBridge
import QuantFlow.JsonText

namespace QuantFlow.Wire

open Py (Cp Decoder Json Str)

/-! ### Messages -/

/-- The message of `_rpc`. -/
def call (id : ℕ) (method : String) (params : Json) : Json :=
  .obj [(Str.ofString "id", .int id), (Str.ofString "method", .text method),
    (Str.ofString "params", params)]

/-- The page a question was asked on, as the gateway passes it. -/
def context (page : Str) (fundCode : Option Str) : Json :=
  .obj [(Str.ofString "page", .str page),
    (Str.ofString "fund_code", (fundCode.map Json.str).getD .null)]

/-- The text of a turn. -/
def content (page : Str) (fundCode : Option Str) (prompt : Str) : Str :=
  Str.ofString "页面上下文（未经验证，仅作定位）：" ++ (context page fundCode).dumpsRaw ++
    Str.ofString "\n用户问题：" ++ prompt

/-- The message of `run_turn`. -/
def turnStart (id : ℕ) (thread prompt page : Str) (fundCode : Option Str) (skill path : Str) : Json :=
  call id "turn/start" (.obj [(Str.ofString "threadId", .str thread),
    (Str.ofString "input", .arr [
      .obj [(Str.ofString "type", .text "skill"), (Str.ofString "name", .str skill),
        (Str.ofString "path", .str path)],
      .obj [(Str.ofString "type", .text "text"),
        (Str.ofString "text", .str (content page fundCode prompt)),
        (Str.ofString "text_elements", .arr [])]])])

/-- The message of `cancel`. -/
def turnInterrupt (id : ℕ) (thread turn : Str) : Json :=
  call id "turn/interrupt" (.obj [(Str.ofString "threadId", .str thread),
    (Str.ofString "turnId", .str turn)])

def bodyOf : Body → Json
  | .tool text success =>
    .obj [(Str.ofString "contentItems", .arr [.obj [(Str.ofString "type", .text "inputText"),
      (Str.ofString "text", .text text)]]), (Str.ofString "success", .bool success)]
  | .decline => .obj [(Str.ofString "decision", .text "decline")]
  | .declineElicitation =>
    .obj [(Str.ofString "action", .text "decline"), (Str.ofString "content", .null),
      (Str.ofString "_meta", .null)]

/-- The message of a reply. -/
def replyMessage : Reply → Json
  | .result id body => .obj [(Str.ofString "id", id), (Str.ofString "result", bodyOf body)]
  | .error id code message =>
    .obj [(Str.ofString "id", id), (Str.ofString "error", .obj [(Str.ofString "code", .int code),
      (Str.ofString "message", .text message)])]

/-! ### The pipe -/

/-- The line of a message. -/
def line (message : Json) : Str := message.dumpsRaw ++ [.char '\n']

/-- The write is not refused: the process is alive and the text has a UTF-8 form. -/
def accepted (alive : Bool) (message : Json) : Bool := alive && Str.encodable (line message)

/-- `_write(payload)`, on what the pipe holds. -/
def write (pipe : Str) (alive : Bool) (message : Json) : Str :=
  if accepted alive message then pipe ++ line message else pipe

/-- The writes of any number of coroutines, in the order in which they reach the pipe, each with
whether the process was alive. -/
abbrev Writes := List (Bool × Json)

def stream (writes : Writes) : Str := writes.foldl (fun pipe w => write pipe w.1 w.2) []

/-- The messages that were written. -/
def sent (writes : Writes) : List Json := (writes.filter fun w => accepted w.1 w.2).map Prod.snd

/-! ### The other side -/

/-- What the other side reads up to the end: the lines without their line breaks, and the rest after
the last of them. -/
def lines : Str → List Str × Str
  | [] => ([], [])
  | c :: s =>
    if c = .char '\n' then ([] :: (lines s).1, (lines s).2)
    else
      match (lines s).1 with
      | [] => ([], c :: (lines s).2)
      | l :: ls => ((c :: l) :: ls, (lines s).2)

variable (D : Decoder)

/-- A message that can be read back: a dictionary whose text is decoded to it. -/
def Proper (message : Json) : Prop :=
  (∃ fields, message = .obj fields) ∧ message.Storable D D.depth

/-- The other side, which decodes in its own way.  It reads the text of every message within the bounds
as that message, and no part of such a text as a value. -/
structure Peer where
  decode : Str → Option Json
  whole : ∀ message, Proper D message → Str.encodable message.dumpsRaw = true →
    decode message.dumpsRaw = some message
  part : ∀ message s r, Proper D message → message.dumpsRaw = s ++ r → r ≠ [] → decode s = none

variable {D} (peer : Peer D)

/-- The values of the lines that hold one.  The rest is a line too, unless a character of it is
broken: then it has no UTF-8 form. -/
def received (s : Str) (broken : Bool) : List Json :=
  (lines s).1.filterMap peer.decode ++
    if broken ∨ (lines s).2 = [] then [] else (peer.decode (lines s).2).toList

/-! ### Lines and messages -/

theorem lines_append {t : Str} (ht : Cp.char '\n' ∉ t) (s : Str) :
    lines (t ++ (.char '\n' :: s)) = (t :: (lines s).1, (lines s).2) := by
  induction t with
  | nil => rfl
  | cons c t ih =>
    simp only [List.mem_cons, not_or] at ht
    rw [List.cons_append, lines, if_neg (Ne.symm ht.1), ih ht.2]

theorem lines_of_notMem {t : Str} (ht : Cp.char '\n' ∉ t) : lines t = ([], t) := by
  induction t with
  | nil => rfl
  | cons c t ih =>
    simp only [List.mem_cons, not_or] at ht
    rw [lines, if_neg (Ne.symm ht.1), ih ht.2]

theorem stream_eq (writes : Writes) : stream writes = (sent writes).flatMap line := by
  have hpipe : ∀ pipe : Str, writes.foldl (fun pipe w => write pipe w.1 w.2) pipe =
      pipe ++ (sent writes).flatMap line := by
    induction writes with
    | nil => simp [sent]
    | cons w writes ih =>
      intro pipe
      rw [List.foldl_cons, ih, write]
      by_cases hw : accepted w.1 w.2 = true
      · simp [sent, hw]
      · simp [sent, hw]
  exact hpipe []

theorem encodable_of_sent {writes : Writes} {message : Json} (h : message ∈ sent writes) :
    Str.encodable message.dumpsRaw = true := by
  obtain ⟨w, hw, rfl⟩ := List.mem_map.1 h
  have haccepted := (List.mem_filter.1 hw).2
  rw [accepted, line, Str.encodable_append, Bool.and_eq_true, Bool.and_eq_true] at haccepted
  exact haccepted.2.1

theorem Proper.oneLine {message : Json} (h : Proper D message) : Cp.char '\n' ∉ message.dumpsRaw :=
  Py.newline_notMem_dumpsRaw D D.depth message h.2

section Message

variable {peer} {message : Json} (h : Proper D message)
  (hencodable : Str.encodable message.dumpsRaw = true)

include h hencodable

theorem received_line (s : Str) (broken : Bool) :
    received peer (line message ++ s) broken = message :: received peer s broken := by
  have hline : line message ++ s = message.dumpsRaw ++ (.char '\n' :: s) := by simp [line]
  rw [received, hline, lines_append h.oneLine, List.filterMap_cons, peer.whole message h hencodable]
  rfl

/-- A line that was cut off holds its whole message or none. -/
theorem received_cutLine {s r : Str} (hs : message.dumpsRaw = s ++ r) (broken : Bool) :
    received peer s broken = [message] ∨ received peer s broken = [] := by
  have hnewline : Cp.char '\n' ∉ s := by
    intro hmem
    exact h.oneLine (by rw [hs]; exact List.mem_append_left r hmem)
  rw [received, lines_of_notMem hnewline, List.filterMap_nil, List.nil_append]
  split_ifs with hnone
  · exact .inr rfl
  · by_cases hr : r = []
    · left
      rw [hr, List.append_nil] at hs
      rw [← hs, peer.whole message h hencodable]
      rfl
    · right
      rw [peer.part message s r h hs hr]
      rfl

end Message

/-! ### The result -/

/-- **Wherever the pipe is cut off, also inside a character, the other side has received the first of
the messages**, whole and in the order in which they were written; at the end it has received all of
them. -/
theorem received_of_cut (writes : Writes) (hsent : ∀ message ∈ sent writes, Proper D message)
    (s r : Str) (broken : Bool) (hcut : stream writes = s ++ r) (hbroken : broken = true → r ≠ []) :
    (∃ k, received peer s broken = (sent writes).take k) ∧
      (r = [] → received peer s broken = sent writes) := by
  have hencodable : ∀ message ∈ sent writes, Str.encodable message.dumpsRaw = true :=
    fun _ => encodable_of_sent
  rw [stream_eq] at hcut
  generalize sent writes = messages at hsent hencodable hcut ⊢
  induction messages generalizing s with
  | nil =>
    obtain ⟨rfl, rfl⟩ := List.append_eq_nil_iff.1 hcut.symm
    have hnone : received peer [] broken = [] := by simp [received, lines]
    exact ⟨⟨0, hnone⟩, fun _ => hnone⟩
  | cons message messages ih =>
    have hmessage : Proper D message := hsent message (by simp)
    have hform : Str.encodable message.dumpsRaw = true := hencodable message (by simp)
    have hrest : ∀ message ∈ messages, Proper D message := fun m hm => hsent m (by simp [hm])
    have hforms : ∀ message ∈ messages, Str.encodable message.dumpsRaw = true :=
      fun m hm => hencodable m (by simp [hm])
    rw [List.flatMap_cons] at hcut
    -- the cut is behind the first line, or in it
    obtain ⟨s', rfl, hs'⟩ | ⟨r', hline, rfl⟩ := List.append_eq_append_iff.1 hcut
    · obtain ⟨⟨k, hk⟩, hall⟩ := ih s' hrest hforms hs'
      rw [received_line hmessage hform]
      exact ⟨⟨k + 1, by rw [hk, List.take_succ_cons]⟩, fun hr => by rw [hall hr]⟩
    · obtain rfl | ⟨r', c, rfl⟩ := List.eq_nil_or_concat r'
      · obtain ⟨-, hall⟩ := ih [] hrest hforms rfl
        rw [List.append_nil] at hline
        rw [← hline, ← List.append_nil (line message), received_line hmessage hform]
        refine ⟨⟨1, ?_⟩, fun hr => by rw [hall (by simpa using hr)]⟩
        simp [received, lines]
      · have hdumps : message.dumpsRaw = s ++ r' := by
          rw [line, List.concat_eq_append, ← List.append_assoc] at hline
          exact (List.append_inj' hline rfl).1
        refine ⟨?_, fun hr => by simp at hr⟩
        rcases received_cutLine hmessage hform hdumps broken with hone | hnone
        · exact ⟨1, hone⟩
        · exact ⟨0, hnone⟩

section Kinds

variable (hdepth : 5 ≤ D.depth)

include hdepth

/-- A turn can be sent whatever the user writes and whatever the thread is called. -/
theorem proper_turnStart {id : ℕ} (hid : (Nat.toDigits 10 id).length ≤ D.digits)
    (thread prompt page : Str) (fundCode : Option Str) (skill path : Str) :
    Proper D (turnStart id thread prompt page fundCode skill path) := by
  obtain ⟨depth, hD⟩ : ∃ n, D.depth = n + 5 := ⟨D.depth - 5, by omega⟩
  refine ⟨⟨_, rfl⟩, ?_⟩
  rw [hD]
  simp [turnStart, call, Json.Storable, Py.storableAll, Py.storableFields, hid, Json.text,
    Str.ofString]

end Kinds

/-- Python's own decoder is such a peer. -/
def Peer.python (D : Decoder) : Peer D where
  decode := fun s => (D.loads s).toOption
  whole := by
    intro message h _
    have hloads := Py.loads_dumpsRaw D h.2 (Py.blank_spaces 0)
    rw [List.replicate_zero, List.append_nil] at hloads
    rw [hloads]
    rfl
  part := by
    intro message s r h hs hr
    have hreads : D.Reads D.depth message message.dumpsRaw := by
      rw [message.dumpsRaw_eq_spelled 0]
      exact Py.reads_spelled D Py.oneLine 0 D.depth message h.2
    obtain ⟨fields, rfl⟩ := h.1
    have hbrace : ∃ u, (Json.obj fields).dumpsRaw = .char '{' :: u := by
      exact ⟨_, by rw [Json.dumpsRaw]; rfl⟩
    obtain ⟨v, hv⟩ := hbrace
    have hcut := Py.loads_cut D hreads ⟨v, .inr hv⟩ hs hr
    cases hloads : D.loads s with
    | error e => rfl
    | ok y => exact absurd hloads (hcut y)

/-- A prompt that looks like the end of a message and a message after it stays in its own. -/
theorem received_of_cut_forged :
    let decoder : Decoder := { float := fun _ => .nan, depth := 5, digits := 4300 }
    let forged := Str.ofString "\"\x7d\n[1]\n"
    let turn := turnStart 1 (Str.ofString "t") forged (Str.ofString "research") none
      (Str.ofString "signal-auditor") (Str.ofString "SKILL.md")
    received (.python decoder) (stream [(true, turn), (false, turn), (true, .obj [])]) false =
      [turn, .obj []] := by
  intro decoder forged turn
  have hturn : Proper decoder turn :=
    proper_turnStart (by decide) (by decide) _ _ _ _ _ _
  have hempty : Proper decoder (.obj []) :=
    ⟨⟨[], rfl⟩, by simp [Json.Storable, Py.storableFields, decoder]⟩
  have hline : ∀ message : Json, Str.encodable (line message) = message.encodable := by
    intro message
    rw [line, Str.encodable_append, message.encodable_dumpsRaw]
    simp [Str.encodable, Cp.isChar]
  have hencodable : turn.encodable = true := by
    simp [turn, forged, turnStart, call, content, context, Json.encodable, Py.encodableAll,
      Py.encodableFields, Json.text, Json.encodable_dumpsRaw]
  have hsent : sent [(true, turn), (false, turn), (true, .obj [])] = [turn, .obj []] := by
    simp [sent, accepted, hline, hencodable, Json.encodable, Py.encodableFields]
  have hreceived := (received_of_cut (.python decoder) [(true, turn), (false, turn), (true, .obj [])]
    (by rw [hsent]; simpa using ⟨hturn, hempty⟩) _ [] false (List.append_nil _).symm (by simp)).2 rfl
  rw [hreceived, hsent]

end QuantFlow.Wire
