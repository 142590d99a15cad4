import Voxeltoad.Billing.Cost

/-!
# The billing plugin

`internal/billing/plugin.go` and `plugin_accounting.go`, for a gateway with durable accounting.
Before a request is dispatched `reserve` freezes its prices and reserves an estimate; when the
request ends `settle` decides what is known about its charge and tells the store, and it may be run
again until the store has accepted that.

The store and the random source are outside: `BillingPlugin` is parametrised by what they do to a
world `σ`.  The older path without an accounting store (`TryDebit`, `Settle`, the asynchronous
recorder) is not modelled.
-/

set_option autoImplicit false

namespace Voxeltoad

/-! ## The request -/

/-- `adapter.UnifiedRequest`, without the parts that neither routing nor billing reads. -/
structure UnifiedRequest where
  model : String
  stream : Bool
  maxTokens : Option Int
  deriving DecidableEq, Repr

/-- `adapter.UnifiedResponse`, likewise. -/
structure UnifiedResponse where
  model : String
  usage : Option Usage
  deriving DecidableEq, Repr

/-- `plugin.Context`: what the plugin chain and the dispatcher know about a request.  The closures
`BeforeUpstream` and `BillingFinalize` are only ever set by `reserveAccounted`: the first is here
the reservation it marks as dispatched, the second whether it is set. -/
structure PluginContext where
  tenant : String
  group : String
  apiKeyID : String
  applicationID : Option Int
  environment : String
  pricingSnapshot : Option Dynamic
  reservationID : String
  /-- The durable settlement is finished. -/
  billingDone : Bool
  /-- An upstream attempt was made that may have been charged. -/
  chargePossible : Bool
  /-- The final outcome is not confirmed. -/
  billingUncertain : Bool
  /-- An attempt before the final one may have consumed tokens that were not reported. -/
  billingAttemptRisk : Bool
  beforeUpstream : Option String
  billingFinalize : Bool
  request : UnifiedRequest
  response : Option UnifiedResponse
  provider : String
  providerEndpoint : String
  requestID : String
  sessionID : String
  traceID : String
  stop : Bool
  blockedBy : String
  rejectStatus : Nat
  reserved : Int
  deriving DecidableEq, Repr

/-- The answer of the store when it is not one of the accounting errors. -/
inductive StoreError where
  | accounting (e : AccountingError)
  | unavailable
  deriving DecidableEq, Repr

/-- `AccountingStore`: what the data plane asks of the durable coordinator. -/
structure AccountingStore (σ : Type) where
  reserve : ReservationRequest → σ → Except StoreError Unit × σ
  markDispatched : String → σ → Except StoreError Unit × σ
  finish : Settlement → σ → Except StoreError Unit × σ

/-- `billing.Plugin`.  `marshal` is the JSON text of the price snapshot. -/
structure BillingPlugin (σ : Type) where
  dyn : σ → Dynamic
  accounting : AccountingStore σ
  maxTokensCeiling : Int
  randRead : σ → Option (Vector UInt8 16) × σ
  marshal : String → Model → String

/-- A request in progress: its context, the world it runs in, and the settlements it has asked the
store to finish, with the answers. -/
structure Session (σ : Type) where
  pc : PluginContext
  world : σ
  finishes : List (Settlement × Except StoreError Unit)

namespace BillingPlugin

variable {σ : Type} (p : BillingPlugin σ)

/-! ## The estimate -/

/-- The largest completion rate of an alias. -/
def maxRate (snapshot : Dynamic) (modelAlias : String) : Int :=
  (snapshot.upstreamsOf modelAlias).foldl (fun m u ↦ max m u.pricing.completionPer1M) 0

/-- The largest default of an alias. -/
def maxDefault (snapshot : Dynamic) (modelAlias : String) : Int :=
  (snapshot.upstreamsOf modelAlias).foldl (fun m u ↦ max m u.defaultMaxTokens) 0

/-- The completion tokens that are reserved for: the request's own bound, else the largest default,
else the global ceiling. -/
def effTokens (snapshot : Dynamic) (req : UnifiedRequest) : Int :=
  match req.maxTokens with
  | some n => n
  | none =>
    if maxDefault snapshot req.model = 0 then p.maxTokensCeiling
    else maxDefault snapshot req.model

/-- **`estimate`**, the completion-only reservation.  It is `-1` when the amount would not fit. -/
def estimate (live : Dynamic) (c : PluginContext) : Int :=
  let snapshot := c.pricingSnapshot.getD live
  let maxRate := maxRate snapshot c.request.model
  let effTokens := p.effTokens snapshot c.request
  if effTokens < 0 ∨ maxRate < 0 ∨
      (0 < maxRate ∧ (2 ^ 63 - 1 - 500000 : Int).tdiv maxRate < effTokens) then -1
  else perMillion (effTokens * maxRate)

/-! ## Reserving -/

/-- The currency the upstreams of a model are all priced in, if they are and their prices make
sense. -/
def currencyOf (upstreams : List ModelUpstream) : Option String :=
  upstreams.foldlM (fun currency u ↦
    let cur := toLower u.pricing.currency
    if cur = "" ∨ u.pricing.Invalid then none
    else if currency ≠ "" ∧ currency ≠ cur then none
    else some cur) ""

/-- `hex.EncodeToString`. -/
def hexEncode (id : Vector UInt8 16) : String :=
  String.ofList (id.toList.flatMap fun b ↦
    [Nat.digitChar (b.toNat / 16), Nat.digitChar (b.toNat % 16)])

/-- How `reserveAccounted` rejects. -/
def fail (insufficient : Bool) (c : PluginContext) : PluginContext :=
  { c with stop := true, blockedBy := "billing", rejectStatus := if insufficient then 402 else 503 }

/-- Whether an error of the store is `ErrInsufficient`. -/
def isInsufficient : StoreError → Bool
  | .accounting (.insufficient _) => true
  | _ => false

/-- The reservation that is asked for. -/
def reservationRequest (c : PluginContext) (snapshot : Dynamic) (model : Model)
    (reservationID currency : String) : ReservationRequest where
  id := reservationID
  requestID := c.requestID
  tenant := c.tenant
  group := c.group
  apiKeyID := c.apiKeyID
  applicationID := c.applicationID
  environment := c.environment
  currency := currency
  estimate := c.reserved
  priceSnapshot := .value (p.marshal snapshot.version model)

/-- What a successful `Reserve` leaves in the context. -/
def armed (reservationID : String) (c : PluginContext) : PluginContext :=
  { c with reservationID := reservationID, billingFinalize := true,
           beforeUpstream := some reservationID }

/-- **`reserveAccounted`.** -/
def reserveAccounted (snapshot : Dynamic) (c : PluginContext) (world : σ) : PluginContext × σ :=
  if c.reserved < 0 then (fail false c, world)
  else match snapshot.models.find? fun m ↦ m.modelAlias = c.request.model with
    | none => (fail false c, world)
    | some model =>
      if model.upstreams = [] then (fail false c, world)
      else match currencyOf model.upstreams with
        | none => (fail false c, world)
        | some currency =>
          match p.randRead world with
          | (none, world) => (fail false c, world)
          | (some id, world) =>
            let req := p.reservationRequest c snapshot model (hexEncode id) currency
            match p.accounting.reserve req world with
            | (.error e, world) => (fail (isInsufficient e) c, world)
            | (.ok (), world) => (armed (hexEncode id) c, world)

/-- **`reserve`**, the Pre phase. -/
def reserve (c : PluginContext) (world : σ) : PluginContext × σ :=
  let snapshot := c.pricingSnapshot.getD (p.dyn world)
  let c := { c with pricingSnapshot := some snapshot }
  p.reserveAccounted snapshot { c with reserved := p.estimate snapshot c } world

/-! ## Settling -/

/-- `pricingFor`: the hit provider's prices for the request's alias. -/
def pricingFor (live : Dynamic) (c : PluginContext) : Option Pricing :=
  ((c.pricingSnapshot.getD live).resolveModel c.request.model c.provider).map ModelUpstream.pricing

/-- `usageOf`. -/
def usageOf (c : PluginContext) : Option Usage := c.response.bind UnifiedResponse.usage

/-- What the cache saved, as it is reported. -/
def cacheDiscount (usage : Usage) (actual : Int) (pricing : Pricing) : Int :=
  if 0 < usage.cachedPromptTokens then max (int64 (fullCost (some usage) pricing - actual)) 0 else 0

/-- `usageRecord`. -/
def usageRecord (c : PluginContext) (usage : Usage) (actual : Int) (pricing : Pricing) :
    UsageRecord where
  applicationID := c.applicationID
  environment := c.environment
  currency := toLower pricing.currency
  tenant := c.tenant
  group := c.group
  apiKeyID := c.apiKeyID
  provider := c.provider
  providerEndpoint := c.providerEndpoint
  model := c.request.model
  promptTokens := usage.promptTokens
  completionTokens := usage.completionTokens
  cost := actual
  cachedPromptTokens := usage.cachedPromptTokens
  cacheDiscountMicros := cacheDiscount usage actual pricing
  requestID := c.requestID
  sessionID := c.sessionID
  traceID := c.traceID

/-- The cost of the usage, when there is both usage and a price for it.  A cost that is refused
makes the outcome uncertain. -/
def priceUsage (c : PluginContext) (usage : Option Usage) (pricing : Option Pricing) :
    PluginContext × Int :=
  match usage, pricing with
  | some u, some pricing =>
    match checkedCost (some u) pricing with
    | .ok actual => (c, actual)
    | .error _ => ({ c with billingUncertain := true }, 0)
  | _, _ => (c, 0)

/-- The decision tree of `settle`. -/
def outcomeOf (c : PluginContext) (usage : Option Usage) (pricing : Option Pricing) (actual : Int) :
    Outcome :=
  if c.chargePossible = false ∧ usage = none then .released
  else if c.billingUncertain ∨ usage = none ∨ pricing = none ∨ actual < 0 then .unknown
  else .known

/-- The usage row that goes with a known charge. -/
def recordOf (c : PluginContext) (outcome : Outcome) (actual : Int) :
    Option Usage → Option Pricing → Option UsageRecord
  | some u, some pricing => if outcome = .known then some (usageRecord c u actual pricing) else none
  | _, _ => none

/-- What `settle` tells the store, and the context it leaves. -/
def classify (live : Dynamic) (c : PluginContext) : PluginContext × Settlement :=
  let usage := usageOf c
  let pricing := pricingFor live c
  let (c, actual) := priceUsage c usage pricing
  let outcome := outcomeOf c usage pricing actual
  (c, { reservationID := c.reservationID
        outcome := outcome
        actual := if outcome = .known then actual else 0
        reason :=
          if outcome = .unknown then "upstream usage or final charge is not confirmed" else ""
        attemptRisk := outcome = .known ∧ c.billingAttemptRisk
        usage := recordOf c outcome actual usage pricing })

/-- **`settle`**, the Post phase, and what the finalizer runs once more. -/
def settle (s : Session σ) : Except StoreError Unit × Session σ :=
  if s.pc.billingDone then (.ok (), s)
  else
    let (pc, settlement) := classify (p.dyn s.world) s.pc
    if pc.reservationID = "" then (.ok (), { s with pc := pc })
    else match p.accounting.finish settlement s.world with
      | (.error e, world) =>
        (.error e, ⟨pc, world, s.finishes ++ [(settlement, .error e)]⟩)
      | (.ok (), world) =>
        (.ok (), ⟨{ pc with billingDone := true }, world, s.finishes ++ [(settlement, .ok ())]⟩)

end BillingPlugin

end Voxeltoad
