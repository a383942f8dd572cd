/-
**The explanation layer.**

`explain` of `backend/app/ai/explainer.py` asks a language model twice for a JSON object with four
texts, and answers with a text made from the signal when neither reply can be used.  The pydantic
model of an explanation limits the length of its fields, so an explanation outside of the limits
cannot be built.

The handler around the request catches the errors of the HTTP client, `KeyError` and `ValueError`,
of which a failed validation and a failed decoding are cases.  A reply of another shape than the
expected one raises `TypeError` or `IndexError`, a JSON text that is nested too deeply raises
`RecursionError`, and an object that names the engine itself collides with the keyword argument;
nothing catches these.  Neither is the validation of the deterministic text caught, whose headline
contains the name of the fund.

What `json.loads` makes of a text is an input, and so are the texts of numbers, lists and
dictionaries.

Main definitions:

* `Explanation`, `build` — an explanation, and its validation;
* `readReply`, `fallback`, `explain` —
  reading a reply, the deterministic text, and the whole function;
* `Usable`, `Breaks`, `Fits` — a reply
  with an explanation, a reply whose exception is not caught, and a name the headline has room for.

Main results:

* `readReply_eq_ok`, `escapes_readReply` — what reading a reply gives, by its shape;
* `exists_fallback_iff` — when there is a deterministic text;
* `explain_answers_iff` — **when `explain` answers as documented**;
* `analyze_returns_iff` — the adapter `llm.analyze` without a model returns when
  the check of `build_state` passes.
-/

import QuantFlow.AppState
import QuantFlow.Handlers
import Mathlib.Data.List.DropRight

namespace QuantFlow

namespace Explainer

open Py (Cp Json Str Fields)
open Signals (SignalResult)
open Handlers (Escapes attempt firstOf Chosen Settled)

/-! ### Explanations -/

/-- A list of at most `n` elements. -/
abbrev AtMost (n : ℕ) (α : Type) := { l : List α // l.length ≤ n }

inductive Engine
  | llm
  | deterministicFallback
  deriving DecidableEq

/-- An explanation within the limits of its schema. -/
structure Explanation where
  headline : AtMost 80 Cp
  summary : AtMost 400 Cp
  keyPoints : AtMost 5 Str
  riskNote : AtMost 200 Cp
  engine : Engine
  deriving DecidableEq

/-- `max_length=n`. -/
def atMost {α : Type} (n : ℕ) (l : List α) : Option (AtMost n α) :=
  if h : l.length ≤ n then some ⟨l, h⟩ else none

/-- `max_length=n` of a text, which has to have a UTF-8 form to be measured. -/
def limited (n : ℕ) (s : Str) : Option (AtMost n Cp) := if s.encodable then atMost n s else none

/-- The validation of an explanation. -/
def build (headline summary : Str) (keyPoints : List Str) (riskNote : Str) (engine : Engine) :
    Option Explanation := do
  let headline ← limited 80 headline
  let summary ← limited 400 summary
  let keyPoints ← atMost 5 keyPoints
  let riskNote ← limited 200 riskNote
  some { headline := headline, summary := summary, keyPoints := keyPoints, riskNote := riskNote,
         engine := engine }

/-- A value of type `str`. -/
def textOf : Json → Option Str
  | .str s => some s
  | _ => none

/-- `List[str]` with an empty default. -/
def textsOf : Option Json → Option (List Str)
  | none => some []
  | some (.arr elems) => elems.mapM textOf
  | some _ => none

/-- The validation of the keyword arguments; keys that are no field are ignored. -/
def validated (parsed : Fields) : Option Explanation := do
  let headline ← Fields.find parsed "headline" >>= textOf
  let summary ← Fields.find parsed "summary" >>= textOf
  let keyPoints ← textsOf (Fields.find parsed "key_points")
  let riskNote ← Fields.find parsed "risk_note" >>= textOf
  build headline summary keyPoints riskNote .llm

/-! ### Reading a reply -/

inductive Exc
  | httpError
  | keyError
  | valueError
  | validationError
  | typeError
  | indexError
  | recursionError
  deriving DecidableEq

/-- `except (httpx.HTTPError, KeyError, ValueError, ValidationError)`. -/
def Exc.caught : Exc → Bool
  | .httpError | .keyError | .valueError | .validationError => true
  | .typeError | .indexError | .recursionError => false

/-- What decoding a JSON text gives: a value, a `ValueError`, or a `RecursionError`. -/
inductive Decoded
  | value (x : Json)
  | invalid
  | tooDeep

def Decoded.get : Decoded → Except Exc Json
  | .value x => .ok x
  | .invalid => .error .valueError
  | .tooDeep => .error .recursionError

/-- What the request gives: an error of the client that is caught, or a response. -/
inductive Reply
  | failed
  | answered (status : ℕ) (body : Decoded)

/-- `json.loads`, by which a text that opens with a brace is an object, and the texts of numbers,
dictionaries and lists; the text of a float has at most 24 characters. -/
structure Host where
  loads : Str → Decoded
  loads_brace : ∀ s x, loads (.char '{' :: s) = .value x → ∃ d, x = .obj d
  number : ℚ → String
  number_le : ∀ q, (number q).length ≤ 24
  signalRepr : SignalResult → Str
  riskRepr : RiskReport → Str
  titlesRepr : List Str → Str

/-- `x[key]` with a text as key. -/
def subscript (key : String) : Json → Except Exc Json
  | .obj d => (Fields.find d key).elim (.error .keyError) .ok
  | _ => .error .typeError

/-- `x[0]`. -/
def first : Json → Except Exc Json
  | .arr (x :: _) => .ok x
  | .arr [] => .error .indexError
  | .str (c :: _) => .ok (.str [c])
  | .str [] => .error .indexError
  | .obj _ => .error .keyError
  | _ => .error .typeError

/-- `response.json()["choices"][0]["message"]["content"]`, of which `re.search` wants a text. -/
def contentOf (data : Json) : Except Exc Str := do
  let choices ← subscript "choices" data
  let choice ← first choices
  let message ← subscript "message" choice
  let content ← subscript "content" message
  (textOf content).elim (.error .typeError) .ok

/-- `re.search(r"\{.*\}", content, re.DOTALL)`: from the first opening to the last closing brace. -/
def objectText (content : Str) : Option Str :=
  let found := (content.dropWhile (· ≠ .char '{')).rdropWhile (· ≠ .char '}')
  if found = [] then none else some found

variable (host : Host)

/-- `json.loads(match.group(0)) if match else {}`. -/
def parsedOf (content : Str) : Except Exc Json :=
  match objectText content with
  | none => .ok (.obj [])
  | some text => (host.loads text).get

/-- `Explanation(**parsed, engine="llm")`. -/
def construct : Json → Except Exc Explanation
  | .obj parsed =>
    if (Fields.find parsed "engine").isSome then .error .typeError
    else (validated parsed).elim (.error .validationError) .ok
  | _ => .error .typeError

/-- The body of the `try` block, with the reply to the request. -/
def readReply : Reply → Except Exc Explanation
  | .failed => .error .httpError
  | .answered status body =>
    if 200 ≤ status ∧ status < 300 then do
      let data ← body.get
      let content ← contentOf data
      let parsed ← parsedOf host content
      construct parsed
    else .error .httpError

/-! ### The deterministic text -/

variable (N : Numerics)

def levelText : RiskReport → String
  | .ok _ _ .low => "低"
  | .ok _ _ .medium => "中"
  | .ok _ _ .high => "高"
  | _ => "暂无"

/-- A score in a format string. -/
def scoreText : Option ℚ → String
  | none => "None"
  | some q => host.number q

def summaryText (signal : SignalResult) : String :=
  "趋势评分 " ++ scoreText host signal.trendScore ++ "/100，综合评分 " ++
    scoreText host signal.overallScore ++ "/100。"

def pointTexts (signal : SignalResult) : List String :=
  ["动量评分 " ++ scoreText host signal.momentumScore ++ "/100",
    "置信度 " ++ toString (N.round 0 (signal.confidence * 100)).floor ++ "%"]

/-- The two explanations of `_fallback`, validated. -/
def described (name : Str) (signal : SignalResult) (risk : RiskReport) : Option Explanation :=
  if signal.status ≠ .ok then
    build (.ofString "实时分析暂不可用") (.ofString "当前数据不能用于生成研究信号。")
      [.ofString "请等待真实行情恢复后再查看趋势分析"]
      (.ofString "模拟或不足的数据不会进入信号、回测和组合调整。") .deterministicFallback
  else
    build (name ++ .ofString ("趋势" ++ stateText signal.state))
      (.ofString (summaryText host signal)) ((pointTexts host N signal).map Str.ofString)
      (.ofString ("当前风险等级：" ++ levelText risk ++ "。该结果是数据解释，不构成交易建议。"))
      .deterministicFallback

/-- `_fallback(name, signal, risk)`. -/
def fallback (name : Str) (signal : SignalResult) (risk : RiskReport) : Except Exc Explanation :=
  (described host N name signal risk).elim (.error .validationError) .ok

/-! ### Asking the model -/

/-- The part of `LLM_CONFIG` that decides whether and what the model is asked. -/
structure Config where
  enabled : Bool
  apiKey : String
  model : String

structure Request where
  model : String
  system : String
  user : Str

def system : String := "你是基金数据解释器。只解释已提供的数据，不给出买卖、仓位或收益承诺。只输出JSON。"

/-- `explanation_prompt(name, signal, risk, news_titles)`. -/
def explanationPrompt (name : Str) (signal : SignalResult) (risk : RiskReport)
    (newsTitles : List Str) : Str :=
  .ofString "基金：" ++ name ++ .ofString "\n信号：" ++ host.signalRepr signal ++
    .ofString "\n风险：" ++ host.riskRepr risk ++ .ofString "\n新闻标题：" ++
    host.titlesRepr (newsTitles.take 5) ++ .ofString ("\n输出 " ++
      "\x7b\"headline\":\"\", \"summary\":\"\", \"key_points\":[], \"risk_note\":\"\"\x7d")

/-- The arguments of `explain`, and what it meets: the configuration, and the endpoint with its
replies to the first and to the second request. -/
structure Call where
  name : Str
  signal : SignalResult
  risk : RiskReport
  newsTitles : List Str
  allowLlm : Bool
  config : Config
  endpoint : Fin 2 → Request → Reply

def Call.request (c : Call) : Request :=
  { model := c.config.model, system := system,
    user := explanationPrompt host c.name c.signal c.risk c.newsTitles }

def Config.ready (config : Config) : Bool := config.enabled && config.apiKey ≠ ""

/-- `_call(name, signal, risk, news_titles)`. -/
def call (c : Call) (i : Fin 2) : Except Exc (Option Explanation) :=
  if c.config.ready then attempt Exc.caught (readReply host (c.endpoint i (c.request host)))
  else .ok none

/-- `explain(name, signal, risk, news_titles, allow_llm)`. -/
def explain (c : Call) : Except Exc Explanation :=
  if c.allowLlm then
    firstOf [call host c 0, call host c 1] (fallback host N c.name c.signal c.risk)
  else fallback host N c.name c.signal c.risk

/-! ### The shapes of a reply -/

/-- The value is not a dictionary. -/
def NotObject (x : Json) : Prop := ∀ d, x ≠ .obj d

/-- The body holds the content where it is expected. -/
inductive Content : Json → Str → Prop
  | mk {body choice message : Fields} {rest : List Json} {s : Str}
      (hchoices : Fields.find body "choices" = some (.arr (.obj choice :: rest)))
      (hmessage : Fields.find choice "message" = some (.obj message))
      (hcontent : Fields.find message "content" = some (.str s)) : Content (.obj body) s

/-- On the way to the content something is there, but of a type that cannot hold it. -/
inductive Misshapen : Json → Prop
  | body {x : Json} (h : NotObject x) : Misshapen x
  | choices {body : Fields} {x : Json} (hchoices : Fields.find body "choices" = some x)
      (hobj : NotObject x) (harr : ∀ c rest, x ≠ .arr (c :: rest)) : Misshapen (.obj body)
  | choice {body : Fields} {x : Json} {rest : List Json}
      (hchoices : Fields.find body "choices" = some (.arr (x :: rest))) (h : NotObject x) :
      Misshapen (.obj body)
  | message {body choice : Fields} {rest : List Json} {x : Json}
      (hchoices : Fields.find body "choices" = some (.arr (.obj choice :: rest)))
      (hmessage : Fields.find choice "message" = some x) (h : NotObject x) : Misshapen (.obj body)
  | content {body choice message : Fields} {rest : List Json} {x : Json}
      (hchoices : Fields.find body "choices" = some (.arr (.obj choice :: rest)))
      (hmessage : Fields.find choice "message" = some (.obj message))
      (hcontent : Fields.find message "content" = some x) (h : textOf x = none) :
      Misshapen (.obj body)

def Success (status : ℕ) : Prop := 200 ≤ status ∧ status < 300

/-- The reply holds an explanation. -/
inductive Usable : Reply → Explanation → Prop
  | mk {status : ℕ} {x : Json} {content text : Str} {parsed : Fields} {e : Explanation}
      (hstatus : Success status) (hcontent : Content x content)
      (htext : objectText content = some text) (hloads : host.loads text = .value (.obj parsed))
      (hengine : Fields.find parsed "engine" = none) (hvalid : validated parsed = some e) :
      Usable (.answered status (.value x)) e

/-- Reading the reply raises an exception that is not caught: its body or the text in its content is
nested too deeply, the body has the wrong shape, or the text names an engine. -/
inductive Breaks : Reply → Prop
  | body {status : ℕ} (hstatus : Success status) : Breaks (.answered status .tooDeep)
  | shape {status : ℕ} {x : Json} (hstatus : Success status) (hx : Misshapen x) :
      Breaks (.answered status (.value x))
  | nested {status : ℕ} {x : Json} {content text : Str} (hstatus : Success status)
      (hcontent : Content x content) (htext : objectText content = some text)
      (hloads : host.loads text = .tooDeep) : Breaks (.answered status (.value x))
  | engine {status : ℕ} {x : Json} {content text : Str} {parsed : Fields}
      (hstatus : Success status) (hcontent : Content x content)
      (htext : objectText content = some text) (hloads : host.loads text = .value (.obj parsed))
      (hengine : Fields.find parsed "engine" ≠ none) : Breaks (.answered status (.value x))

/-- The headline has room for the name, if it is to contain it. -/
def Fits (name : Str) (signal : SignalResult) : Prop :=
  signal.status = .ok → name.encodable = true ∧ name.length ≤ 76

/-- The replies that are read: none without a model. -/
def Call.replies (c : Call) : List Reply :=
  if c.allowLlm && c.config.ready then
    [c.endpoint 0 (c.request host), c.endpoint 1 (c.request host)]
  else []

/-! ### What reading gives, by shape -/

section Shapes

variable {host} {x y : Json}

theorem subscript_eq_ok {key : String} :
    subscript key x = .ok y ↔ ∃ d, x = .obj d ∧ Fields.find d key = some y := by
  cases x with
  | obj d => cases hd : Fields.find d key <;> simp [subscript, hd]
  | _ => simp [subscript]

/-- Only a dictionary is asked for a text key without a `TypeError`. -/
theorem escapes_subscript {key : String} :
    Escapes Exc.caught (subscript key x) ↔ NotObject x := by
  cases x with
  | obj d => cases hd : Fields.find d key <;> simp [subscript, hd, NotObject, Exc.caught]
  | _ => simp [subscript, NotObject, Exc.caught]

theorem first_eq_ok : first x = .ok y ↔
    (∃ rest, x = .arr (y :: rest)) ∨ ∃ c rest, x = .str (c :: rest) ∧ y = .str [c] := by
  cases x with
  | arr elems => cases elems <;> simp [first]
  | str s => cases s <;> simp [first, eq_comm]
  | _ => simp [first]

theorem escapes_first : Escapes Exc.caught (first x) ↔
    NotObject x ∧ (∀ c rest, x ≠ .arr (c :: rest)) ∧ ∀ c rest, x ≠ .str (c :: rest) := by
  cases x with
  | arr elems => cases elems <;> simp [first, NotObject, Exc.caught]
  | str s => cases s <;> simp [first, NotObject, Exc.caught]
  | _ => simp [first, NotObject, Exc.caught]

theorem contentOf_eq_ok {s : Str} : contentOf x = .ok s ↔ Content x s := by
  simp only [contentOf, except_bind_eq_ok, subscript_eq_ok, first_eq_ok]
  constructor
  · rintro ⟨choices, ⟨body, rfl, hchoices⟩, choice, hfirst, message, ⟨d, rfl, hmessage⟩, content,
      ⟨m, rfl, hcontent⟩, htext⟩
    rcases hfirst with ⟨rest, rfl⟩ | ⟨c, rest, rfl, hc⟩
    · cases content with
      | str s' =>
        cases htext
        exact .mk hchoices hmessage hcontent
      | _ => cases htext
    · cases hc
  · rintro ⟨hchoices, hmessage, hcontent⟩
    exact ⟨_, ⟨_, rfl, hchoices⟩, _, Or.inl ⟨_, rfl⟩, _, ⟨_, rfl, hmessage⟩, _,
      ⟨_, rfl, hcontent⟩, rfl⟩

theorem escapes_text {x : Json} :
    Escapes Exc.caught ((textOf x).elim (.error .typeError) .ok) ↔ textOf x = none := by
  cases textOf x <;> simp [Exc.caught]

/-- What escapes on the way to the content is due to a value of the wrong type. -/
theorem escapes_contentOf : Escapes Exc.caught (contentOf x) ↔ Misshapen x := by
  simp only [contentOf, Handlers.escapes_bind, subscript_eq_ok, first_eq_ok, escapes_subscript,
    escapes_first, escapes_text]
  constructor
  · rintro (hx | ⟨choices, ⟨body, rfl, hchoices⟩, hrest⟩)
    · exact .body hx
    · rcases hrest with ⟨hobj, harr, -⟩ | ⟨choice, hfirst, hrest⟩
      · exact .choices hchoices hobj harr
      · rcases hfirst with ⟨rest, rfl⟩ | ⟨c, rest, rfl, rfl⟩
        · rcases hrest with hobj | ⟨message, ⟨d, rfl, hmessage⟩, hrest⟩
          · exact .choice hchoices hobj
          · rcases hrest with hobj | ⟨content, ⟨m, rfl, hcontent⟩, htext⟩
            · exact .message hchoices hmessage hobj
            · exact .content hchoices hmessage hcontent htext
        · -- the first character of a text is no dictionary
          exact .choices hchoices (by simp [NotObject]) (by simp)
  · intro h
    cases h with
    | body hx => exact Or.inl hx
    | @choices body choices hchoices hobj harr =>
      refine Or.inr ⟨_, ⟨_, rfl, hchoices⟩, ?_⟩
      -- a text that is not empty has a first element, which has no keys
      by_cases htext : ∃ c rest, choices = .str (c :: rest)
      · obtain ⟨c, rest, rfl⟩ := htext
        exact Or.inr ⟨.str [c], Or.inr ⟨c, rest, rfl, rfl⟩, Or.inl (by simp [NotObject])⟩
      · exact Or.inl ⟨hobj, harr, fun c rest hc => htext ⟨c, rest, hc⟩⟩
    | choice hchoices hobj =>
      exact Or.inr ⟨_, ⟨_, rfl, hchoices⟩, Or.inr ⟨_, Or.inl ⟨_, rfl⟩, Or.inl hobj⟩⟩
    | message hchoices hmessage hobj =>
      exact Or.inr ⟨_, ⟨_, rfl, hchoices⟩, Or.inr ⟨_, Or.inl ⟨_, rfl⟩,
        Or.inr ⟨_, ⟨_, rfl, hmessage⟩, Or.inl hobj⟩⟩⟩
    | content hchoices hmessage hcontent htext =>
      exact Or.inr ⟨_, ⟨_, rfl, hchoices⟩, Or.inr ⟨_, Or.inl ⟨_, rfl⟩,
        Or.inr ⟨_, ⟨_, rfl, hmessage⟩, Or.inr ⟨_, ⟨_, rfl, hcontent⟩, htext⟩⟩⟩⟩

theorem objectText_brace {content text : Str} (h : objectText content = some text) :
    ∃ s, text = .char '{' :: s := by
  simp only [objectText] at h
  split_ifs at h with hfound
  cases h
  have hprefix := List.rdropWhile_prefix (· ≠ Cp.char '}')
    (content.dropWhile (· ≠ Cp.char '{'))
  obtain ⟨rest, hrest⟩ := hprefix
  obtain ⟨c, s, hs⟩ := List.exists_cons_of_ne_nil hfound
  rw [hs] at hrest ⊢
  have hne : content.dropWhile (· ≠ Cp.char '{') ≠ [] := by
    rw [← hrest]
    simp
  have hhead := List.head_dropWhile_not (· ≠ Cp.char '{') hne
  simp only [← hrest] at hhead
  have hc : c = .char '{' := by
    by_contra hc
    simp [hc] at hhead
  exact ⟨s, by rw [hc]⟩

end Shapes

/-! ### Reading a reply -/

section Replies

variable {host} {content : Str}

theorem construct_eq_ok {x : Json} {e : Explanation} : construct x = .ok e ↔
    ∃ parsed, x = .obj parsed ∧ Fields.find parsed "engine" = none ∧
      validated parsed = some e := by
  cases x with
  | obj parsed =>
    cases hengine : Fields.find parsed "engine" with
    | none => cases hv : validated parsed <;> simp [construct, hengine, hv]
    | some x => simp [construct, hengine]
  | _ => simp [construct]

/-- The collision with the keyword argument is not caught, and a failed validation is. -/
theorem escapes_construct {parsed : Fields} :
    Escapes Exc.caught (construct (.obj parsed)) ↔ Fields.find parsed "engine" ≠ none := by
  cases hengine : Fields.find parsed "engine" with
  | none => cases hv : validated parsed <;> simp [construct, hengine, hv, Exc.caught]
  | some x => simp [construct, hengine, Exc.caught]

/-- The text between the braces is an object, if it is JSON at all. -/
theorem loads_objectText {text : Str} {x : Json} (htext : objectText content = some text)
    (hloads : host.loads text = .value x) : ∃ parsed, x = .obj parsed := by
  obtain ⟨s, rfl⟩ := objectText_brace htext
  exact host.loads_brace s x hloads

theorem construct_nil : construct (.obj []) = .error .validationError := rfl

theorem parsed_eq_ok {e : Explanation} : (parsedOf host content >>= construct) = .ok e ↔
    ∃ text parsed, objectText content = some text ∧ host.loads text = .value (.obj parsed) ∧
      Fields.find parsed "engine" = none ∧ validated parsed = some e := by
  rw [except_bind_eq_ok]
  constructor
  · rintro ⟨x, hx, he⟩
    obtain ⟨parsed, rfl, hengine, hvalid⟩ := construct_eq_ok.1 he
    unfold parsedOf at hx
    split at hx
    next hnone =>
      cases hx
      cases hvalid
    next text htext =>
      cases hl : host.loads text with
      | value y =>
        rw [hl] at hx
        cases hx
        exact ⟨text, parsed, htext, hl, hengine, hvalid⟩
      | _ =>
        rw [hl] at hx
        cases hx
  · rintro ⟨text, parsed, htext, hl, hengine, hvalid⟩
    refine ⟨.obj parsed, ?_, construct_eq_ok.2 ⟨parsed, rfl, hengine, hvalid⟩⟩
    rw [parsedOf, htext]
    simp only [hl, Decoded.get]

theorem escapes_parsed : Escapes Exc.caught (parsedOf host content >>= construct) ↔
    ∃ text, objectText content = some text ∧ (host.loads text = .tooDeep ∨
      ∃ parsed, host.loads text = .value (.obj parsed) ∧
        Fields.find parsed "engine" ≠ none) := by
  rw [parsedOf]
  split
  next hnone =>
    have hbind : ((.ok (.obj []) : Except Exc Json) >>= construct) = construct (.obj []) := rfl
    rw [hbind, construct_nil]
    simp [hnone, Exc.caught]
  next text htext =>
    cases hl : host.loads text with
    | value x =>
      obtain ⟨parsed, rfl⟩ := loads_objectText htext hl
      have hbind : ((Decoded.value (.obj parsed)).get >>= construct) =
        construct (.obj parsed) := rfl
      rw [hbind, escapes_construct]
      simp [htext, hl]
    | invalid =>
      have hbind : (Decoded.invalid.get >>= construct) = .error .valueError := rfl
      rw [hbind]
      simp [htext, hl, Exc.caught]
    | tooDeep =>
      have hbind : (Decoded.tooDeep.get >>= construct) = .error .recursionError := rfl
      rw [hbind]
      simp [htext, hl, Exc.caught]

theorem readReply_refused {status : ℕ} (hstatus : ¬ Success status) (body : Decoded) :
    readReply host (.answered status body) = .error .httpError := by
  have : ¬ (200 ≤ status ∧ status < 300) := hstatus
  rw [readReply, if_neg this]

theorem readReply_answered {status : ℕ} (hstatus : Success status) (body : Decoded) :
    readReply host (.answered status body) = (body.get >>= fun x =>
      contentOf x >>= fun content => parsedOf host content >>= construct) := by
  have : 200 ≤ status ∧ status < 300 := hstatus
  rw [readReply, if_pos this]

theorem readReply_value {status : ℕ} (hstatus : Success status) (x : Json) :
    readReply host (.answered status (.value x)) =
      (contentOf x >>= fun content => parsedOf host content >>= construct) :=
  readReply_answered hstatus (.value x)

/-- Reading succeeds on the replies that hold an explanation. -/
theorem readReply_eq_ok (reply : Reply) (e : Explanation) :
    readReply host reply = .ok e ↔ Usable host reply e := by
  constructor
  · intro h
    cases reply with
    | failed => cases h
    | answered status body =>
      by_cases hstatus : Success status
      · cases body with
        | value x =>
          rw [readReply_value hstatus, except_bind_eq_ok] at h
          obtain ⟨content, hcontent, h⟩ := h
          obtain ⟨text, parsed, htext, hl, hengine, hvalid⟩ := parsed_eq_ok.1 h
          exact .mk hstatus (contentOf_eq_ok.1 hcontent) htext hl hengine hvalid
        | _ =>
          rw [readReply_answered hstatus] at h
          cases h
      · rw [readReply_refused hstatus] at h
        cases h
  · rintro ⟨hstatus, hcontent, htext, hl, hengine, hvalid⟩
    rw [readReply_value hstatus, except_bind_eq_ok]
    exact ⟨_, contentOf_eq_ok.2 hcontent, parsed_eq_ok.2 ⟨_, _, htext, hl, hengine, hvalid⟩⟩

/-- What escapes the handler is brought by the replies that break it. -/
theorem escapes_readReply (reply : Reply) :
    Escapes Exc.caught (readReply host reply) ↔ Breaks host reply := by
  constructor
  · intro h
    cases reply with
    | failed => cases Handlers.escapes_error.1 h
    | answered status body =>
      by_cases hstatus : Success status
      · cases body with
        | invalid =>
          rw [readReply_answered hstatus] at h
          cases Handlers.escapes_error.1 h
        | tooDeep => exact .body hstatus
        | value x =>
          -- what escapes comes from the shape of the body or from the text in its content
          rw [readReply_value hstatus, Handlers.escapes_bind] at h
          rcases h with hcontent | ⟨content, hcontent, h⟩
          · exact .shape hstatus (escapes_contentOf.1 hcontent)
          · have hcontent := contentOf_eq_ok.1 hcontent
            obtain ⟨text, htext, hdeep | ⟨parsed, hl, hengine⟩⟩ := escapes_parsed.1 h
            · exact .nested hstatus hcontent htext hdeep
            · exact .engine hstatus hcontent htext hl hengine
      · rw [readReply_refused hstatus] at h
        cases Handlers.escapes_error.1 h
  · intro h
    cases h with
    | body hstatus =>
      rw [readReply_answered hstatus]
      exact Handlers.escapes_error.2 rfl
    | shape hstatus hx =>
      rw [readReply_value hstatus, Handlers.escapes_bind]
      exact Or.inl (escapes_contentOf.2 hx)
    | nested hstatus hcontent htext hdeep =>
      rw [readReply_value hstatus, Handlers.escapes_bind]
      exact Or.inr ⟨_, contentOf_eq_ok.2 hcontent, escapes_parsed.2 ⟨_, htext, Or.inl hdeep⟩⟩
    | engine hstatus hcontent htext hl hengine =>
      rw [readReply_value hstatus, Handlers.escapes_bind]
      exact Or.inr ⟨_, contentOf_eq_ok.2 hcontent,
        escapes_parsed.2 ⟨_, htext, Or.inr ⟨_, hl, hengine⟩⟩⟩

end Replies

/-! ### The deterministic text -/

section Deterministic

variable {host N} {name : Str} {signal : SignalResult} {risk : RiskReport}

theorem isSome_atMost {α : Type} {n : ℕ} {l : List α} :
    (atMost n l).isSome = true ↔ l.length ≤ n := by
  unfold atMost
  split <;> simp_all

theorem isSome_limited {n : ℕ} {s : Str} :
    (limited n s).isSome = true ↔ s.encodable = true ∧ s.length ≤ n := by
  unfold limited
  split <;> simp_all [isSome_atMost]

theorem isSome_build {headline summary riskNote : Str} {keyPoints : List Str} {engine : Engine} :
    (build headline summary keyPoints riskNote engine).isSome = true ↔
      (limited 80 headline).isSome = true ∧ (limited 400 summary).isSome = true ∧
        (atMost 5 keyPoints).isSome = true ∧ (limited 200 riskNote).isSome = true := by
  unfold build
  cases limited 80 headline <;> cases limited 400 summary <;> cases atMost 5 keyPoints <;>
    cases limited 200 riskNote <;> simp

theorem length_scoreText_le (host : Host) (score : Option ℚ) :
    (scoreText host score).length ≤ 24 := by
  cases score with
  | none =>
    have hnone : "None".length ≤ 24 := by decide
    exact hnone
  | some q => exact host.number_le q

theorem length_summary_le {trend overall : String} (htrend : trend.length ≤ 24)
    (hoverall : overall.length ≤ 24) :
    ("趋势评分 " ++ trend ++ "/100，综合评分 " ++ overall ++ "/100。").length ≤ 400 := by
  have h₁ : "趋势评分 ".length = 5 := rfl
  have h₂ : "/100，综合评分 ".length = 10 := rfl
  have h₃ : "/100。".length = 5 := rfl
  simp only [String.length_append, h₁, h₂, h₃]
  omega

theorem length_summaryText_le (host : Host) (signal : SignalResult) :
    (summaryText host signal).length ≤ 400 :=
  length_summary_le (length_scoreText_le host _) (length_scoreText_le host _)

theorem length_headline (state : Signals.State) : ("趋势" ++ stateText state).length = 4 := by
  cases state <;> rfl

theorem length_levelText_le : (risk : RiskReport) → (levelText risk).length ≤ 2
  | .ok _ _ .low => show "低".length ≤ 2 by decide
  | .ok _ _ .medium => show "中".length ≤ 2 by decide
  | .ok _ _ .high => show "高".length ≤ 2 by decide
  | .blockedSimulatedData => show "暂无".length ≤ 2 by decide
  | .insufficientData => show "暂无".length ≤ 2 by decide

theorem length_riskNote_le (risk : RiskReport) :
    ("当前风险等级：" ++ levelText risk ++ "。该结果是数据解释，不构成交易建议。").length ≤ 200 := by
  have hlevel := length_levelText_le risk
  have h₁ : "当前风险等级：".length = 7 := rfl
  have h₂ : "。该结果是数据解释，不构成交易建议。".length = 18 := rfl
  simp only [String.length_append, h₁, h₂]
  omega

theorem isSome_limited_ofString {n : ℕ} {s : String} (h : s.length ≤ n) :
    (limited n (.ofString s)).isSome = true := by
  rw [isSome_limited, Str.length_ofString]
  exact ⟨Str.encodable_ofString s, h⟩

theorem isSome_described_of_ok (hstatus : signal.status = .ok) :
    (described host N name signal risk).isSome = true ↔
      name.encodable = true ∧ name.length ≤ 76 := by
  have hheadline : (limited 80 (name ++ .ofString ("趋势" ++ stateText signal.state))).isSome = true ↔
      name.encodable = true ∧ name.length ≤ 76 := by
    rw [isSome_limited, Str.encodable_append, Str.encodable_ofString, Bool.and_true,
      List.length_append, Str.length_ofString, length_headline]
    exact and_congr_right fun _ => by omega
  have hsummary := isSome_limited_ofString (length_summaryText_le host signal)
  have hpoints : (atMost 5 ((pointTexts host N signal).map Str.ofString)).isSome = true :=
    isSome_atMost.2 (by simp [pointTexts])
  have hnote := isSome_limited_ofString (length_riskNote_le risk)
  rw [described, if_neg (not_not.2 hstatus), isSome_build, hheadline]
  constructor
  · rintro ⟨hname, -⟩
    exact hname
  · intro hname
    exact ⟨hname, hsummary, hpoints, hnote⟩

theorem isSome_described_of_ne (hstatus : signal.status ≠ .ok) :
    (described host N name signal risk).isSome = true := by
  rw [described, if_pos hstatus]
  rfl

/-- There is a deterministic text exactly if the name fits. -/
theorem exists_fallback_iff :
    (∃ e, fallback host N name signal risk = .ok e) ↔ Fits name signal := by
  have hsome : (∃ e, fallback host N name signal risk = .ok e) ↔
      (described host N name signal risk).isSome = true := by
    unfold fallback
    cases described host N name signal risk <;> simp
  rw [hsome, Fits]
  by_cases hstatus : signal.status = .ok
  · simp [isSome_described_of_ok hstatus, hstatus]
  · simp [isSome_described_of_ne hstatus, hstatus]

end Deterministic

/-! ### When there is an answer -/

/-- The replies that are asked for are read in order, and the deterministic text comes last. -/
theorem explain_eq (c : Call) : explain host N c =
    firstOf ((c.replies host).map fun r => attempt Exc.caught (readReply host r))
      (fallback host N c.name c.signal c.risk) := by
  unfold explain Call.replies call
  cases c.allowLlm with
  | false => rfl
  | true =>
    cases c.config.ready with
    | false => rfl
    | true => rfl

/-- **`explain` answers with the first explanation of the model, or with the deterministic text when
there is none, exactly if no reply up to that explanation breaks the handler and, when there is
none, the name fits into the headline.** -/
theorem explain_answers_iff (host : Host) (N : Numerics) (c : Call) :
    (∃ e, explain host N c = .ok e ∧
        Chosen (Usable host) (fun e => fallback host N c.name c.signal c.risk = .ok e)
          (c.replies host) e) ↔
      Settled (Usable host) (Breaks host) (Fits c.name c.signal) (c.replies host) := by
  have hserves : (∃ e, fallback host N c.name c.signal c.risk = .ok e) ↔ Fits c.name c.signal :=
    exists_fallback_iff
  rw [explain_eq, ← hserves]
  exact Handlers.firstOf_attempts_iff readReply_eq_ok escapes_readReply (c.replies host)

/-- The texts of what is blocked and of the score `50.0`. -/
def sampleHost : Host :=
  { loads := fun _ => .invalid
    loads_brace := by
      intro s x h
      cases h
    number := fun _ => "50.0"
    number_le := by
      intro q
      have : "50.0".length ≤ 24 := by decide
      exact this
    signalRepr := fun _ => .ofString ("\x7b'trend_score': None, 'momentum_score': None, " ++
      "'sentiment_score': None, 'risk_score': None, 'overall_score': None, 'confidence': 0.0, " ++
      "'state': 'unavailable', 'status': 'blocked_simulated_data', " ++
      "'signal_version': 'signal-v1'\x7d")
    riskRepr := fun _ => .ofString "\x7b'status': 'blocked_simulated_data'\x7d"
    titlesRepr := fun _ => .ofString "[]" }

/-- A body with the content `null`. -/
def nullContent : Json :=
  .obj [(.ofString "choices", .arr [.obj [(.ofString "message",
    .obj [(.ofString "content", .null)])]])]

/-- A fund without data, and a model that answers with the body. -/
def askedCall (signal : SignalResult) (body : Json) : Call :=
  { name := .ofString "基金", signal := signal, risk := .blockedSimulatedData, newsTitles := []
    allowLlm := true, config := ⟨true, "key", "gpt-4o-mini"⟩
    endpoint := fun _ _ => .answered 200 (.value body) }

/-- A fund with a name of 77 characters, without a model. -/
def namedCall (signal : SignalResult) (risk : RiskReport) : Call :=
  { name := List.replicate 77 (.char '基'), signal := signal, risk := risk, newsTitles := []
    allowLlm := false, config := ⟨false, "", "gpt-4o-mini"⟩, endpoint := fun _ _ => .failed }

/-- A model that sends no content ends in a `TypeError`, and a long name in a `ValidationError`. -/
theorem explain_raises :
    (∃ signal, Signals.computeSignal Numerics.runnable [] [] .simulated = .ok signal ∧
      explain sampleHost Numerics.runnable (askedCall signal nullContent) = .error .typeError) ∧
    ∃ signal, Signals.computeSignal Numerics.runnable (List.replicate 20 1) [] .real = .ok signal ∧
      ∀ e, explain sampleHost Numerics.runnable (namedCall signal
        (riskReport Numerics.runnable (List.replicate 20 1) .real signal)) ≠ .ok e := by
  constructor
  · exact ⟨_, Signals.computeSignal_of_not_real _ (by decide) _ _, rfl⟩
  · have hstatus : ((Signals.computeSignal Numerics.runnable (List.replicate 20 1) []
        .real).toOption.map SignalResult.status) = some .ok := by decide +kernel
    obtain ⟨signal, hsignal, hok⟩ := exists_ok_of_toOption hstatus
    refine ⟨signal, hsignal, ?_⟩
    intro e he
    have hfits : Fits (List.replicate 77 (.char '基')) signal := exists_fallback_iff.1 ⟨e, he⟩
    have hlength := (hfits hok).2
    simp at hlength

/-! ### The adapter -/

/-- The arguments of `llm.analyze`, with the signal and the risk of the prediction, and what it
meets. -/
structure Analysis where
  code : String
  name : String
  signal : SignalResult
  risk : RiskReport
  news : List News.NewsItem
  allowLlm : Bool := false
  config : Config
  endpoint : Fin 2 → Request → Reply
  now : String

/-- `[n.title for n in news if n.relevance > 0]`. -/
def Analysis.titles (a : Analysis) : List Str :=
  (a.news.filter fun n => 0 < n.relevance).map News.NewsItem.title

def Analysis.call (a : Analysis) : Call :=
  { name := .ofString a.name, signal := a.signal, risk := a.risk,
    newsTitles := a.titles, allowLlm := a.allowLlm, config := a.config,
    endpoint := a.endpoint }

structure AnalysisResult where
  code : String
  name : String
  generatedAt : String
  engine : Engine
  trendPrediction : String
  predictedNav : Option ℚ
  predictedChangePct : Option ℚ
  confidence : ℚ
  advice : String
  positionAction : String
  riskLevel : String
  reasoning : Str
  keyNews : List Str

def trendText : Signals.State → String
  | .positive => "趋势增强"
  | .neutral => "趋势中性"
  | .negative => "趋势减弱"
  | .unavailable => "实时分析暂不可用"

/-- `llm.analyze(code, name, prediction, news, allow_llm)`. -/
def analyze (a : Analysis) : Except Exc AnalysisResult := do
  let result ← explain host N a.call
  .ok
    { code := a.code, name := a.name, generatedAt := a.now, engine := result.engine,
      trendPrediction := trendText a.signal.state, predictedNav := none,
      predictedChangePct := none, confidence := a.signal.confidence, advice := "查看分析",
      positionAction := "不提供仓位建议", riskLevel := levelText a.risk,
      reasoning := result.summary.1 ++ .ofString " " ++ result.riskNote.1,
      keyNews := a.titles.take 5 }

theorem length_stateHeadline (name : String) (state : Signals.State) :
    (headline name state).length = name.length + 4 := by
  have htrend : "趋势".length = 2 := rfl
  have hstate : (stateText state).length = 2 := by cases state <;> rfl
  rw [headline, String.length_append, String.length_append, htrend, hstate]

/-- The name fits exactly if the headline passes the check that `build_state` makes. -/
theorem fits_ofString_iff (name : String) (signal : SignalResult) :
    Fits (.ofString name) signal ↔ QuantFlow.analyze name signal = .ok () := by
  rw [Fits, Str.encodable_ofString, Str.length_ofString, QuantFlow.analyze, length_stateHeadline]
  by_cases hstatus : signal.status = .ok
  · by_cases hlength : name.length ≤ 76
    · have hshort : ¬ 80 < name.length + 4 := by omega
      simp [hstatus, hlength, hshort]
    · have hlong : 80 < name.length + 4 := by omega
      simp [hstatus, hlength, hlong]
  · simp [hstatus]

/-- Without a model the adapter returns exactly when that check passes. -/
theorem analyze_returns_iff {a : Analysis} (hmodel : a.allowLlm = false) :
    (∃ r, analyze host N a = .ok r) ↔ QuantFlow.analyze a.name a.signal = .ok () := by
  have hexplain : explain host N a.call =
      fallback host N (.ofString a.name) a.signal a.risk := by
    simp [explain, Analysis.call, hmodel]
  have hserves : (∃ e, fallback host N (.ofString a.name) a.signal a.risk = .ok e) ↔
      Fits (.ofString a.name) a.signal := exists_fallback_iff
  rw [← fits_ofString_iff, ← hserves]
  simp only [analyze, hexplain, except_bind_eq_ok]
  constructor
  · rintro ⟨r, e, he, -⟩
    exact ⟨e, he⟩
  · rintro ⟨e, he⟩
    exact ⟨_, e, he, rfl⟩

end Explainer

end QuantFlow
