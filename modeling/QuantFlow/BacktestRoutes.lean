/-
**The two backtest routes.**

`backend/app/main.py` offers a backtest twice.  `GET /api/backtest/{code}` declares the range of
every parameter, and the framework refuses a request outside of them before `run_backtest` is
called.  `POST /api/backtests` takes a JSON object, converts its fields with `str`, `int` and
`float` and calls `run_backtest` as a Python function, so the declarations are not consulted: the
engine clamps the two windows, takes an unknown strategy for the crossover rule and uses every
other value as it is.

What `int` and `float` make of a text, and `float` of an integer, are inputs, and so are the
records of the watchlist and the universe, whose codes are proper texts.  The numbers of a run with
a fee that is infinite or NaN are not modelled.

Main definitions:

* `Values`, `readPayload` — the arguments of `run_backtest`, and how they are made of a payload;
* `Declared` — the constraints of the GET route;
* `runBacktest`, `getBacktest`, `runBacktestV2` — the function and the two routes;
* `Sendable` — a payload that could be sent to the GET route.

Main results:

* `v2_agrees_iff` — **an answer of the POST route is one of the GET route
  exactly if the payload could be sent there**.
-/

import QuantFlow.BacktestFees
import QuantFlow.NavPages
import QuantFlow.Watchlist

namespace QuantFlow

namespace BacktestRoutes

open Py (Json Str Fields Float64)
open Backtest (Strategy Fees Result RunError clampShort clampLong)

/-! ### Converting the fields -/

/-- The exceptions of `int(x)` and `float(x)`. -/
inductive ConversionError
  | typeError
  | valueError
  | overflowError
  deriving DecidableEq

/-- `int` and `float` of a text, `float` of an integer, and `repr` of a list or a dictionary; `none`
where they raise. -/
structure Host where
  intText : Str → Option ℤ
  floatText : Str → Option Float64
  floatInt : ℤ → Option Float64
  repr : Json → String

variable (host : Host)

/-- `int(x)`, which cuts a float towards zero. -/
def toInt : Json → Except ConversionError ℤ
  | .bool b => .ok (if b then 1 else 0)
  | .int n => .ok n
  | .float (.finite value _) => .ok (value.num.tdiv value.den)
  | .float (.inf _) => .error .overflowError
  | .float .nan => .error .valueError
  | .str s => (host.intText s).elim (.error .valueError) .ok
  | _ => .error .typeError

/-- `float(x)`. -/
def toFloat : Json → Except ConversionError Float64
  | .bool b => .ok (if b then .finite 1 "1.0" else .finite 0 "0.0")
  | .int n => (host.floatInt n).elim (.error .overflowError) .ok
  | .float x => .ok x
  | .str s => (host.floatText s).elim (.error .valueError) .ok
  | _ => .error .typeError

/-- `payload.get(key, default)`. -/
def field (payload : Fields) (key : String) (default : Json) : Json :=
  (Fields.find payload key).getD default

/-- The fee parameters as they are passed on. -/
structure FeeValues where
  feeBps : Float64
  subscriptionFee : Float64
  redemptionFee : Float64
  managementFee : Float64
  transactionCost : Float64

/-- The arguments of `run_backtest`.  The POST route passes the strategy on as it is. -/
structure Values where
  code : Str
  strategy : Json
  short : ℤ
  long : ℤ
  days : ℤ
  fees : FeeValues

/-- The rates of `config.py`. -/
structure Rates where
  subscriptionFee : Float64
  redemptionFee : Float64
  managementFee : Float64
  transactionCost : Float64

/-- The rates with no variable set in the environment. -/
def Rates.default : Rates :=
  { subscriptionFee := .finite (15 / 10000) "0.0015", redemptionFee := .finite (5 / 1000) "0.005",
    managementFee := .finite (6 / 1000) "0.006", transactionCost := .finite (5 / 10000) "0.0005" }

variable (rates : Rates)

/-- `str(payload.get("code", "")).strip()`. -/
def codeOf (payload : Fields) : Str :=
  Watchlist.strip ((field payload "code" (.str [])).format host.repr)

def readFees (payload : Fields) : Except ConversionError FeeValues := do
  let feeBps ← toFloat host (field payload "fee_bps" (.int 15))
  let subscriptionFee ←
    toFloat host (field payload "subscription_fee" (.float rates.subscriptionFee))
  let redemptionFee ← toFloat host (field payload "redemption_fee" (.float rates.redemptionFee))
  let managementFee ← toFloat host (field payload "management_fee" (.float rates.managementFee))
  let transactionCost ←
    toFloat host (field payload "transaction_cost" (.float rates.transactionCost))
  .ok { feeBps := feeBps, subscriptionFee := subscriptionFee, redemptionFee := redemptionFee,
        managementFee := managementFee, transactionCost := transactionCost }

/-- The arguments the POST route makes of its payload. -/
def readPayload (payload : Fields) : Except ConversionError Values := do
  let short ← toInt host (field payload "short" (.int 5))
  let long ← toInt host (field payload "long" (.int 20))
  let days ← toInt host (field payload "days" (.int 250))
  let fees ← readFees host rates payload
  .ok { code := codeOf host payload, strategy := field payload "strategy" (.text "ma_cross"),
        short := short, long := long, days := days, fees := fees }

/-! ### The declared constraints -/

/-- `ge=lo, le=hi` of a float; neither holds of NaN. -/
def Within (lo hi : ℚ) : Float64 → Prop
  | .finite value _ => lo ≤ value ∧ value ≤ hi
  | _ => False

instance (lo hi : ℚ) : DecidablePred (Within lo hi)
  | .finite value _ => inferInstanceAs (Decidable (lo ≤ value ∧ value ≤ hi))
  | .inf _ => isFalse id
  | .nan => isFalse id

/-- `^(ma_cross|momentum|buy_hold)$`. -/
def KnownName : Json → Prop
  | .str s => s ∈ [Str.ofString "ma_cross", Str.ofString "momentum", Str.ofString "buy_hold"]
  | _ => False

instance : DecidablePred KnownName
  | .str s => inferInstanceAs (Decidable (s ∈ _))
  | .null | .bool _ | .int _ | .float _ | .arr _ | .obj _ => isFalse id

/-- The constraints that the GET route declares for the fees. -/
structure DeclaredFees (fees : FeeValues) : Prop where
  feeBps : Within 0 200 fees.feeBps
  subscriptionFee : Within 0 (1 / 10) fees.subscriptionFee
  redemptionFee : Within 0 (1 / 10) fees.redemptionFee
  managementFee : Within 0 (1 / 10) fees.managementFee
  transactionCost : Within 0 (1 / 10) fees.transactionCost

instance (fees : FeeValues) : Decidable (DeclaredFees fees) :=
  decidable_of_iff (Within 0 200 fees.feeBps ∧ Within 0 (1 / 10) fees.subscriptionFee ∧
      Within 0 (1 / 10) fees.redemptionFee ∧ Within 0 (1 / 10) fees.managementFee ∧
      Within 0 (1 / 10) fees.transactionCost)
    ⟨fun ⟨h₁, h₂, h₃, h₄, h₅⟩ => ⟨h₁, h₂, h₃, h₄, h₅⟩,
      fun ⟨h₁, h₂, h₃, h₄, h₅⟩ => ⟨h₁, h₂, h₃, h₄, h₅⟩⟩

/-- The constraints that the GET route declares for its query. -/
structure Declared (v : Values) : Prop where
  strategy : KnownName v.strategy
  short : 2 ≤ v.short ∧ v.short ≤ 120
  long : 3 ≤ v.long ∧ v.long ≤ 250
  days : 40 ≤ v.days ∧ v.days ≤ 400
  fees : DeclaredFees v.fees

instance (v : Values) : Decidable (Declared v) :=
  decidable_of_iff (KnownName v.strategy ∧ (2 ≤ v.short ∧ v.short ≤ 120) ∧
      (3 ≤ v.long ∧ v.long ≤ 250) ∧ (40 ≤ v.days ∧ v.days ≤ 400) ∧ DeclaredFees v.fees)
    ⟨fun ⟨h₁, h₂, h₃, h₄, h₅⟩ => ⟨h₁, h₂, h₃, h₄, h₅⟩,
      fun ⟨h₁, h₂, h₃, h₄, h₅⟩ => ⟨h₁, h₂, h₃, h₄, h₅⟩⟩

/-! ### The function -/

/-- Text without a surrogate that stands alone. -/
def properText (s : Str) : Option String := if s.encodable then some s.shown else none

theorem properText_ofString (s : String) : properText (Str.ofString s) = some s := by
  rw [properText, if_pos (Str.encodable_ofString s), Str.shown_ofString]

/-- The branch of the engine that a strategy selects. -/
def strategyOf : Json → Strategy
  | .str s =>
    if s = Str.ofString "ma_cross" then .maCross
    else if s = Str.ofString "momentum" then .momentum
    else if s = Str.ofString "buy_hold" then .buyHold
    else .other ((properText s).getD "")
  | _ => .other ""

/-- The value of a float that has one. -/
def finite : Float64 → Option ℚ
  | .finite value _ => some value
  | _ => none

/-- The fees, if each of them is a number. -/
def FeeValues.numbers (fees : FeeValues) : Option Fees := do
  let feeBps ← finite fees.feeBps
  let subscriptionFee ← finite fees.subscriptionFee
  let redemptionFee ← finite fees.redemptionFee
  let managementFee ← finite fees.managementFee
  let transactionCost ← finite fees.transactionCost
  some { feeBps := feeBps, managementFee := managementFee, subscriptionFee := subscriptionFee,
         redemptionFee := redemptionFee, transactionCost := transactionCost }

variable (N : Numerics)

/-- `bt.run(pts, …)`.  What makes it fail does not depend on the fees; of a run with a fee that is
no finite number only that is kept. -/
def engine (points : List NavPoint) (v : Values) : Except RunError (Option Result) :=
  match v.fees.numbers with
  | some fees => (Backtest.run N points (strategyOf v.strategy) v.short v.long fees).map some
  | none =>
    (Backtest.run N points (strategyOf v.strategy) v.short v.long Fees.zero).map fun _ => none

/-- What a request meets: the records of the watchlist or the universe, the switch for simulated
data, and the provider. -/
structure Surroundings where
  lookup : String → Except PyError (Option Fields)
  sim : Bool
  moment : Moment

/-- A refusal by the function, one by the framework, an exception of a conversion, or another. -/
inductive RouteError
  | http (status : ℕ) (detail : String)
  | invalid
  | conversion (error : ConversionError)
  | raised (error : PyError)
  deriving DecidableEq

/-- The answer of a route: the result of the engine with the strategy as it was passed, and the
fields that `run_backtest` adds. -/
structure Answer where
  code : String
  name : Json
  dataSource : DataSource
  strategy : Json
  result : Option Result

/-- The result for a fund that may be tested. -/
def answer (v : Values) (code : String) (info : Fields) (entry : Entry) :
    Except RouteError Answer :=
  match engine N (slice entry.points v.days) v with
  | .error (.reported message) => .error (.http 400 message)
  | .error (.raised error) => .error (.raised error)
  | .ok result =>
    .ok { code := code, name := field info "name" (.text code), dataSource := entry.source,
          strategy := v.strategy, result := result }

variable (env : Surroundings)

/-- `run_backtest(code, …)` as a function. -/
def runBacktest (v : Values) (funds : FundCache) : Except RouteError Answer × FundCache :=
  match properText v.code with
  | none => (.error (.http 404 "基金代码未找到"), funds)
  | some code =>
    match env.lookup code with
    | .error error => (.error (.raised error), funds)
    | .ok none | .ok (some []) => (.error (.http 404 "基金代码未找到"), funds)
    | .ok (some info) =>
      let (entry, funds) := ensureFund env.sim env.moment funds code v.days
      if permitsResearch entry.source then (answer N v code info entry, funds)
      else (.error (.http 409 "实时数据暂时不可用；模拟数据禁止进入真实回测"), funds)

/-! ### The routes -/

/-- The code is one segment of a path. -/
def Segment (code : Str) : Prop := code ≠ [] ∧ code.encodable = true ∧ .char '/' ∉ code

instance (code : Str) : Decidable (Segment code) := inferInstanceAs (Decidable (_ ∧ _ ∧ _))

/-- `GET /api/backtest/{code}` with the values in the path and the query. -/
def getBacktest (v : Values) (funds : FundCache) : Except RouteError Answer × FundCache :=
  if Segment v.code then
    if Declared v then runBacktest N env v funds else (.error .invalid, funds)
  else (.error (.http 404 "Not Found"), funds)

/-- `POST /api/backtests`, which calls the function and not the route. -/
def runBacktestV2 (payload : Json) (funds : FundCache) : Except RouteError Answer × FundCache :=
  match payload with
  | .obj payload =>
    if codeOf host payload = [] then (.error (.http 400 "基金代码不能为空"), funds)
    else
      match readPayload host rates payload with
      | .error error => (.error (.conversion error), funds)
      | .ok v => runBacktest N env v funds
  | _ => (.error .invalid, funds)

/-- The payload could be sent to the GET route: its code is a segment of a path, and its fields
convert to values in the declared ranges. -/
structure Sendable (payload : Fields) : Prop where
  code : .char '/' ∉ codeOf host payload
  strategy : KnownName (field payload "strategy" (.text "ma_cross"))
  short : ∃ n, toInt host (field payload "short" (.int 5)) = .ok n ∧ 2 ≤ n ∧ n ≤ 120
  long : ∃ n, toInt host (field payload "long" (.int 20)) = .ok n ∧ 3 ≤ n ∧ n ≤ 250
  days : ∃ n, toInt host (field payload "days" (.int 250)) = .ok n ∧ 40 ≤ n ∧ n ≤ 400
  feeBps : ∃ x, toFloat host (field payload "fee_bps" (.int 15)) = .ok x ∧ Within 0 200 x
  subscriptionFee : ∃ x, toFloat host
    (field payload "subscription_fee" (.float rates.subscriptionFee)) = .ok x ∧ Within 0 (1 / 10) x
  redemptionFee : ∃ x, toFloat host
    (field payload "redemption_fee" (.float rates.redemptionFee)) = .ok x ∧ Within 0 (1 / 10) x
  managementFee : ∃ x, toFloat host
    (field payload "management_fee" (.float rates.managementFee)) = .ok x ∧ Within 0 (1 / 10) x
  transactionCost : ∃ x, toFloat host
    (field payload "transaction_cost" (.float rates.transactionCost)) = .ok x ∧ Within 0 (1 / 10) x

/-- The answer to the payload is one the GET route gives: the values of its fields are as declared,
and the GET route gives the answer for them. -/
def Agrees (payload : Json) (funds : FundCache) (r : Except RouteError Answer × FundCache) : Prop :=
  ∃ fields v, payload = .obj fields ∧ readPayload host rates fields = .ok v ∧ Declared v ∧
    getBacktest N env v funds = r

/-! ### Reading a payload -/

section Reading

variable {host rates} {payload : Fields} {v : Values}

/-- The fees read from a payload are those its fields convert to. -/
theorem of_readFees {fees : FeeValues} (h : readFees host rates payload = .ok fees) :
    toFloat host (field payload "fee_bps" (.int 15)) = .ok fees.feeBps ∧
      toFloat host (field payload "subscription_fee" (.float rates.subscriptionFee)) =
        .ok fees.subscriptionFee ∧
      toFloat host (field payload "redemption_fee" (.float rates.redemptionFee)) =
        .ok fees.redemptionFee ∧
      toFloat host (field payload "management_fee" (.float rates.managementFee)) =
        .ok fees.managementFee ∧
      toFloat host (field payload "transaction_cost" (.float rates.transactionCost)) =
        .ok fees.transactionCost := by
  simp only [readFees, except_bind_eq_ok] at h
  obtain ⟨bps, h₁, subscription, h₂, redemption, h₃, management, h₄, transaction, h₅, h⟩ := h
  cases h
  exact ⟨h₁, h₂, h₃, h₄, h₅⟩

/-- The values read from a payload are those its fields convert to. -/
theorem of_readPayload (h : readPayload host rates payload = .ok v) :
    v.code = codeOf host payload ∧ v.strategy = field payload "strategy" (.text "ma_cross") ∧
      toInt host (field payload "short" (.int 5)) = .ok v.short ∧
      toInt host (field payload "long" (.int 20)) = .ok v.long ∧
      toInt host (field payload "days" (.int 250)) = .ok v.days ∧
      readFees host rates payload = .ok v.fees := by
  simp only [readPayload, except_bind_eq_ok] at h
  obtain ⟨short, h₁, long, h₂, days, h₃, fees, h₄, h⟩ := h
  cases h
  exact ⟨rfl, rfl, h₁, h₂, h₃, h₄⟩

/-- A conversion that succeeds gives a value with a property exactly if the value has it. -/
theorem exists_ok_iff {ε α : Type} {x : Except ε α} {a : α} (h : x = .ok a) (P : α → Prop) :
    (∃ b, x = .ok b ∧ P b) ↔ P a := by
  constructor
  · rintro ⟨b, hb, hP⟩
    cases h.symm.trans hb
    exact hP
  · intro hP
    exact ⟨a, h, hP⟩

/-- A payload that is read could be sent to the GET route exactly if its values are declared. -/
theorem sendable_iff (h : readPayload host rates payload = .ok v) :
    Sendable host rates payload ↔ .char '/' ∉ v.code ∧ Declared v := by
  obtain ⟨hcode, hstrategy, hshort, hlong, hdays, hfees⟩ := of_readPayload h
  obtain ⟨hbps, hsubscription, hredemption, hmanagement, htransaction⟩ := of_readFees hfees
  constructor
  · intro hs
    refine ⟨hcode ▸ hs.code, ?_⟩
    exact {
      strategy := hstrategy ▸ hs.strategy
      short := (exists_ok_iff hshort _).1 hs.short
      long := (exists_ok_iff hlong _).1 hs.long
      days := (exists_ok_iff hdays _).1 hs.days
      fees := {
        feeBps := (exists_ok_iff hbps _).1 hs.feeBps
        subscriptionFee := (exists_ok_iff hsubscription _).1 hs.subscriptionFee
        redemptionFee := (exists_ok_iff hredemption _).1 hs.redemptionFee
        managementFee := (exists_ok_iff hmanagement _).1 hs.managementFee
        transactionCost := (exists_ok_iff htransaction _).1 hs.transactionCost } }
  · rintro ⟨hslash, hd⟩
    exact {
      code := hcode ▸ hslash
      strategy := hstrategy ▸ hd.strategy
      short := ⟨_, hshort, hd.short⟩
      long := ⟨_, hlong, hd.long⟩
      days := ⟨_, hdays, hd.days⟩
      feeBps := ⟨_, hbps, hd.fees.feeBps⟩
      subscriptionFee := ⟨_, hsubscription, hd.fees.subscriptionFee⟩
      redemptionFee := ⟨_, hredemption, hd.fees.redemptionFee⟩
      managementFee := ⟨_, hmanagement, hd.fees.managementFee⟩
      transactionCost := ⟨_, htransaction, hd.fees.transactionCost⟩ }

end Reading

/-! ### When the routes agree -/

section Routes

variable {host rates N env} {funds funds' : FundCache} {v : Values} {r : Answer}

/-- Only a fund with a proper code is answered for. -/
theorem encodable_of_answered (h : runBacktest N env v funds = (.ok r, funds')) :
    v.code.encodable = true := by
  by_contra hcode
  rw [runBacktest, properText, if_neg hcode] at h
  cases h

/-- An answer of the POST route is the function's, for the values of the payload. -/
theorem v2_ok {payload : Json}
    (h : runBacktestV2 host rates N env payload funds = (.ok r, funds')) :
    ∃ fields v, payload = .obj fields ∧ codeOf host fields ≠ [] ∧
      readPayload host rates fields = .ok v ∧ runBacktest N env v funds = (.ok r, funds') := by
  unfold runBacktestV2 at h
  split at h
  next fields =>
    split_ifs at h with hcode
    · cases h
    · split at h
      next error hread => cases h
      next v hread => exact ⟨fields, v, rfl, hcode, hread, h⟩
  next => cases h

/-- The GET route answers with the function's answer, for declared values. -/
theorem get_ok_iff : getBacktest N env v funds = (.ok r, funds') ↔
    Segment v.code ∧ Declared v ∧ runBacktest N env v funds = (.ok r, funds') := by
  unfold getBacktest
  split_ifs with hsegment hdeclared
  · simp [hsegment, hdeclared]
  · simp [hdeclared]
  · simp [hsegment]

/-- **An answer of the POST route is one of the GET route exactly if the payload could be sent
there.** -/
theorem v2_agrees_iff (host : Host) (rates : Rates) (N : Numerics) (env : Surroundings)
    (payload : Json) (funds funds' : FundCache) (r : Answer)
    (h : runBacktestV2 host rates N env payload funds = (.ok r, funds')) :
    Agrees host rates N env payload funds (.ok r, funds') ↔
      ∃ fields, payload = .obj fields ∧ Sendable host rates fields := by
  obtain ⟨fields, v, rfl, hcode, hread, hrun⟩ := v2_ok h
  constructor
  · rintro ⟨fields', w, hobj, hw, hdeclared, hget⟩
    cases hobj
    cases hread.symm.trans hw
    -- the answer came from the GET route, so the code is a segment of its path
    have hslash := (get_ok_iff.1 hget).1.2.2
    exact ⟨fields, rfl, (sendable_iff hread).2 ⟨hslash, hdeclared⟩⟩
  · rintro ⟨fields', hobj, hs⟩
    cases hobj
    obtain ⟨hslash, hdeclared⟩ := (sendable_iff hread).1 hs
    rw [← (of_readPayload hread).1] at hcode
    have hsegment : Segment v.code := ⟨hcode, encodable_of_answered hrun, hslash⟩
    exact ⟨fields, v, rfl, hread, hdeclared, get_ok_iff.2 ⟨hsegment, hdeclared, hrun⟩⟩

end Routes

/-! ### A fund that is answered for -/

/-- A fund that is known and has enough provider data with positive values is answered for, whatever
the other arguments are. -/
theorem runBacktest_returns {v : Values} {code : String} {info : Fields} {funds : FundCache}
    {entry : Entry} (hcode : v.code = Str.ofString code)
    (hlookup : env.lookup code = .ok (some info)) (hinfo : info ≠ [])
    (hentry : (ensureFund env.sim env.moment funds code v.days).1 = entry)
    (hreal : entry.source = .real) (hlen : 5 ≤ (slice entry.points v.days).length)
    (hpos : ∀ p ∈ slice entry.points v.days, 0 < p.nav) :
    ∃ r funds', runBacktest N env v funds = (.ok r, funds') := by
  -- the fees decide what a run computes, not whether it fails
  have hengine : ∃ result, engine N (slice entry.points v.days) v = .ok result := by
    unfold engine
    split
    next fees hfees => exact ⟨_, by rw [Backtest.run_eq_ok N hlen hpos]; rfl⟩
    next hfees => exact ⟨_, by rw [Backtest.run_eq_ok N hlen hpos]; rfl⟩
  obtain ⟨result, hresult⟩ := hengine
  have hpermits : permitsResearch entry.source = true := (permitsResearch_iff _).2 hreal
  unfold runBacktest
  rw [hcode, properText_ofString]
  simp only [hlookup]
  cases info with
  | nil => exact absurd rfl hinfo
  | cons f info =>
    simp only [hentry, hpermits, if_true, answer, hresult]
    exact ⟨_, _, rfl⟩

def sampleHost : Host :=
  { intText := fun _ => none, floatText := fun _ => none,
    floatInt := fun n => some (.finite n (toString n ++ ".0")), repr := Json.dumps }

/-- The provider serves five days of every fund. -/
def sampleEnv : Surroundings :=
  { lookup := fun code => .ok (some [(Str.ofString "name", .text code)])
    sim := false
    moment := ⟨0, fun _ _ => ⟨some (Backtest.fiveDays 2), [], ""⟩⟩ }

/-- A payload with a code and other fields. -/
def samplePayload (rest : Fields) : Fields := (Str.ofString "code", .text "005844") :: rest

theorem codeOf_sample (rest : Fields) :
    codeOf sampleHost (samplePayload rest) = Str.ofString "005844" := by
  have hfield : field (samplePayload rest) "code" (.str []) = .text "005844" := by
    simp [field, samplePayload, Fields.find]
  rw [codeOf, hfield, Json.text, Json.format]
  decide +kernel

theorem sample_returns {rest : Fields} {v : Values}
    (hread : readPayload sampleHost Rates.default (samplePayload rest) = .ok v)
    (hdays : v.days = 250) :
    ∃ r funds', runBacktestV2 sampleHost Rates.default N sampleEnv (.obj (samplePayload rest))
      (fun _ => none) = (.ok r, funds') := by
  have hcode := codeOf_sample rest
  have hne : codeOf sampleHost (samplePayload rest) ≠ [] := by
    rw [hcode]
    decide
  have hslice : slice (Backtest.fiveDays 2) v.days = Backtest.fiveDays 2 := by
    rw [hdays]
    rfl
  have hpos : ∀ p ∈ Backtest.fiveDays 2, 0 < p.nav := by decide +kernel
  simp only [runBacktestV2, if_neg hne, hread]
  refine runBacktest_returns N sampleEnv ((of_readPayload hread).1.trans hcode) rfl (by simp) rfl
    rfl ?_ ?_
  · exact hslice ▸ (by decide)
  · exact hslice ▸ hpos

/-- A payload with nothing but a code is answered by both routes. -/
theorem v2_agrees_iff_codeOnly : ∃ r funds',
    runBacktestV2 sampleHost Rates.default Numerics.runnable sampleEnv (.obj (samplePayload []))
      (fun _ => none) = (.ok r, funds') ∧
    Agrees sampleHost Rates.default Numerics.runnable sampleEnv (.obj (samplePayload []))
      (fun _ => none) (.ok r, funds') := by
  have hread : ∃ v, readPayload sampleHost Rates.default (samplePayload []) = .ok v ∧
      v.days = 250 ∧ .char '/' ∉ v.code ∧ Declared v := by
    refine ⟨_, rfl, rfl, ?_, ?_⟩
    · decide +kernel
    · decide +kernel
  obtain ⟨v, hread, hdays, hslash, hdeclared⟩ := hread
  obtain ⟨r, funds', h⟩ := sample_returns Numerics.runnable hread hdays
  exact ⟨r, funds', h, (v2_agrees_iff sampleHost Rates.default Numerics.runnable sampleEnv _ _
    funds' r h).2 ⟨_, rfl, (sendable_iff hread).2 ⟨hslash, hdeclared⟩⟩⟩

/-- A window of one day is answered by the POST route only. -/
theorem v2_answers_short_one : ∃ r funds',
    runBacktestV2 sampleHost Rates.default Numerics.runnable sampleEnv
      (.obj (samplePayload [(Str.ofString "short", .int 1)])) (fun _ => none) = (.ok r, funds') ∧
    ¬ Agrees sampleHost Rates.default Numerics.runnable sampleEnv
      (.obj (samplePayload [(Str.ofString "short", .int 1)])) (fun _ => none) (.ok r, funds') := by
  have hread : ∃ v, readPayload sampleHost Rates.default
      (samplePayload [(Str.ofString "short", .int 1)]) = .ok v ∧ v.days = 250 ∧ v.short = 1 :=
    ⟨_, rfl, rfl, rfl⟩
  obtain ⟨v, hread, hdays, hshort⟩ := hread
  obtain ⟨r, funds', h⟩ := sample_returns Numerics.runnable hread hdays
  refine ⟨r, funds', h, ?_⟩
  rintro ⟨fields, w, hobj, hw, hdeclared, -⟩
  cases hobj
  cases hread.symm.trans hw
  have := hdeclared.short.1
  omega

end BacktestRoutes

end QuantFlow
