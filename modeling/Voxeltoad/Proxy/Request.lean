import Voxeltoad.Proxy.Stream

/-!
# The life of a request

`serveChat` of `internal/proxy/router.go`, from where the request's prices are frozen to its last
deferred function, with `runPost` and `streamChatCompletions`.  The checks before that (who may use
the model, whether it takes images) cannot reach an upstream or the accounting store.

Besides billing, a chain holds other governance plugins.  None of them reads or writes the fields
of the context that billing and the dispatcher use, so all that is kept of one is its verdict on
this request in each phase.
-/

set_option autoImplicit false

namespace Voxeltoad

/-! ## The plugin chain -/

/-- What a plugin makes of a request. -/
inductive Verdict where
  | pass
  /-- The plugin sets `Stop`. -/
  | stop
  /-- The plugin returns an error. -/
  | fail
  deriving DecidableEq, Repr

/-- A plugin other than billing; `none` is a phase it does not act in. -/
structure OtherPlugin where
  name : String
  pre : Option Verdict
  post : Option Verdict
  deriving DecidableEq, Repr

/-- `plugin.Chain`: the plugins before and after billing. -/
structure Chain where
  before : List OtherPlugin
  after : List OtherPlugin
  deriving DecidableEq, Repr

/-- `Chain.Run` over plugins other than billing. -/
def runOthers (phase : OtherPlugin → Option Verdict) :
    List OtherPlugin → PluginContext → Verdict × PluginContext
  | [], pc => (.pass, pc)
  | q :: qs, pc =>
    match phase q with
    | none => runOthers phase qs pc
    | some .pass => runOthers phase qs pc
    | some .stop => (.stop, { pc with stop := true, blockedBy := q.name })
    | some .fail => (.fail, pc)

/-- The context Post runs on. -/
def PluginContext.posted (pc : PluginContext) (resp : UnifiedResponse) (dr : DispatchResult) :
    PluginContext :=
  { pc with response := some resp, provider := dr.provider, providerEndpoint := dr.endpoint }

namespace Chain

variable {σ : Type} (chain : Chain) (p : BillingPlugin σ)

/-- `chain.Run(pc, plugin.PhasePre)`. -/
def runPre (pc : PluginContext) (world : σ) : Verdict × PluginContext × σ :=
  match runOthers OtherPlugin.pre chain.before pc with
  | (.pass, pc) =>
    let (pc, world) := p.reserve pc world
    if pc.stop then (.stop, pc, world)
    else
      let (verdict, pc) := runOthers OtherPlugin.pre chain.after pc
      (verdict, pc, world)
  | (verdict, pc) => (verdict, pc, world)

/-- `chain.Run(pc, plugin.PhasePost)`. -/
def runPostPhase (s : Session σ) : Session σ :=
  match runOthers OtherPlugin.post chain.before s.pc with
  | (.pass, pc) =>
    match p.settle { s with pc := pc } with
    | (.error _, s) => s
    | (.ok (), s) => { s with pc := (runOthers OtherPlugin.post chain.after s.pc).2 }
  | (_, pc) => { s with pc := pc }

/-- `runPost` populates the context with the completed response and runs the Post phase. -/
def runPost (s : Session σ) (resp : UnifiedResponse) (dr : DispatchResult) : Session σ :=
  chain.runPostPhase p { s with pc := s.pc.posted resp dr }

end Chain

/-! ## Serving a request -/

/-- Who sent the request, as authentication found out. -/
structure Identity where
  tenant : String
  group : String
  apiKeyID : String
  applicationID : Option Int
  environment : String
  deriving DecidableEq, Repr

/-- A client's call: its identity and correlation ids, what it asks for, and how its connection
behaves. -/
structure Call where
  identity : Identity
  requestID : String
  sessionID : String
  traceID : String
  request : UnifiedRequest
  sessionKey : String
  protocol : String
  /-- The response writer can flush. -/
  flusher : Bool
  delivers : List Chunk → Chunk → Bool

/-- `newPluginContext`. -/
def newPluginContext (call : Call) : PluginContext where
  tenant := call.identity.tenant
  group := call.identity.group
  apiKeyID := call.identity.apiKeyID
  applicationID := call.identity.applicationID
  environment := call.identity.environment
  pricingSnapshot := none
  reservationID := ""
  billingDone := false
  chargePossible := false
  billingUncertain := false
  billingAttemptRisk := false
  beforeUpstream := none
  billingFinalize := false
  request := call.request
  response := none
  provider := ""
  providerEndpoint := ""
  requestID := call.requestID
  sessionID := call.sessionID
  traceID := call.traceID
  stop := false
  blockedBy := ""
  rejectStatus := 0
  reserved := 0

/-- What a request goes through. -/
structure Gateway (σ : Type) where
  billing : BillingPlugin σ
  net : Upstreams σ
  json : Json

/-- What a request leaves. -/
structure Served (σ : Type) where
  session : Session σ
  dispatcher : Dispatcher
  attempts : List Attempt

/-- A gateway whose world counts the calls of `Finish`: the first one fails.  Provider `a` times
out, and every other one reports a million completion tokens. -/
def Gateway.sample : Gateway Nat where
  billing :=
    { dyn := fun _ ↦ .sample
      accounting :=
        { reserve := fun _ n ↦ (.ok (), n)
          markDispatched := fun _ n ↦ (.ok (), n)
          finish := fun _ n ↦ (if n = 0 then .error .unavailable else .ok (), n + 1) }
      maxTokensCeiling := 4096
      randRead := fun n ↦ (some (.replicate 16 0), n)
      marshal := fun _ _ ↦ "" }
  net :=
    { exchange := fun key _ n ↦
        (if key.provider = "a" then .transportFailed true
          else .answered 200 ⟨payloadOne, .eof⟩, n)
      now := fun _ ↦ 0 }
  json := .sample

/-- A call of the model `m`. -/
def Call.sample (stream : Bool) : Call where
  identity := ⟨"t", "", "", none, ""⟩
  requestID := "r"
  sessionID := ""
  traceID := ""
  request := ⟨"m", stream, some 1000000⟩
  sessionKey := ""
  protocol := "openai"
  flusher := true
  delivers _ _ := true

section Serve

variable {σ : Type} (g : Gateway σ) (d : Dispatcher) (chain : Chain) (call : Call)

/-- What `streamChatCompletions` does with a stream that is open: relay it, and then run Post on
what was received. -/
def relayStream (s : Session σ) (dr : DispatchResult) (sr : StreamReader) : Session σ :=
  let t := relay g.json call.delivers sr ⟨s.pc, none, []⟩
  chain.runPost g.billing { s with pc := t.pc } ⟨call.request.model, t.lastUsage⟩ dr

/-- **`streamChatCompletions`.**  A stream that cannot be opened does not get to the Post phase. -/
def streamChatCompletions (s : Session σ) : Served σ :=
  if call.flusher = false then ⟨s, d, []⟩
  else
    let r := d.forwardStream g.billing.accounting g.net call.request.model call.sessionKey
      call.protocol call.request s
    match r.outcome with
    | .error _ => ⟨r.session, r.dispatcher, r.attempts⟩
    | .ok sr => ⟨relayStream g chain call r.session r.result sr, r.dispatcher, r.attempts⟩

/-- The part of `serveChat` that is not streaming. -/
def chatCompletions (s : Session σ) : Served σ :=
  let r := d.forward g.json g.billing.accounting g.net call.request.model call.sessionKey
    call.protocol call.request s
  match r.outcome with
  | .error _ =>
    ⟨chain.runPost g.billing r.session ⟨call.request.model, none⟩ r.result, r.dispatcher,
      r.attempts⟩
  | .ok resp => ⟨chain.runPost g.billing r.session resp r.result, r.dispatcher, r.attempts⟩

/-- The deferred finalizer: once Pre has reserved money, every exit settles it. -/
def finalize (s : Session σ) : Session σ :=
  if s.pc.billingFinalize then (g.billing.settle s).2 else s

/-- What `serveChat` does once Pre has run. -/
def afterPre : Verdict → Session σ → Served σ
  | .pass, s =>
    if call.request.stream then streamChatCompletions g d chain call s
    else chatCompletions g d chain call s
  | _, s => ⟨s, d, []⟩

/-- The context Pre runs on: the prices of the request are those of its dispatcher. -/
def pricedContext : PluginContext :=
  { newPluginContext call with
    pricingSnapshot := d.accountingSnapshot call.request.model call.protocol }

/-- **`serveChat`.** -/
def serveChat (world : σ) : Served σ :=
  let pc := pricedContext d call
  if pc.pricingSnapshot.any (fun snapshot ↦ snapshot.models = []) then ⟨⟨pc, world, []⟩, d, []⟩
  else
    let (verdict, pc, world) := chain.runPre g.billing pc world
    let served := afterPre g d chain call verdict ⟨pc, world, []⟩
    { served with session := finalize g served.session }

variable {g d chain call}

theorem afterPre_of_ne_pass {verdict : Verdict} (h : verdict ≠ .pass) (s : Session σ) :
    afterPre g d chain call verdict s = ⟨s, d, []⟩ := by
  cases verdict with
  | pass => exact absurd rfl h
  | stop => rfl
  | fail => rfl

end Serve

/-! ## What Pre can do -/

/-- The other plugins can only stop the chain. -/
theorem runOthers_snd (phase : OtherPlugin → Option Verdict) (qs : List OtherPlugin)
    (pc : PluginContext) :
    ∃ stop blockedBy,
      (runOthers phase qs pc).2 = { pc with stop := stop, blockedBy := blockedBy } := by
  induction qs with
  | nil => exact ⟨pc.stop, pc.blockedBy, rfl⟩
  | cons q qs ih =>
    rw [runOthers]
    split
    · exact ih
    · exact ih
    · exact ⟨_, _, rfl⟩
    · exact ⟨pc.stop, pc.blockedBy, rfl⟩

theorem runOthers_pass {phase : OtherPlugin → Option Verdict} {qs : List OtherPlugin}
    {pc pc' : PluginContext} (h : runOthers phase qs pc = (.pass, pc')) : pc' = pc := by
  induction qs with
  | nil =>
    cases h
    rfl
  | cons q qs ih =>
    rw [runOthers] at h
    split at h
    · exact ih h
    · exact ih h
    · cases h
    · cases h

section Pre

variable {σ : Type} (p : BillingPlugin σ)

theorem reserveAccounted_cases (snapshot : Dynamic) (c : PluginContext) (world : σ) :
    (∃ insufficient,
      (p.reserveAccounted snapshot c world).1 = BillingPlugin.fail insufficient c) ∨
    ∃ id, (p.reserveAccounted snapshot c world).1 =
      BillingPlugin.armed (BillingPlugin.hexEncode id) c := by
  simp only [BillingPlugin.reserveAccounted]
  repeat' split
  any_goals exact .inl ⟨_, rfl⟩
  exact .inr ⟨_, rfl⟩

/-- `reserve` freezes the prices, and then reserves or rejects. -/
theorem reserve_cases (pc : PluginContext) (world : σ) :
    ∃ snapshot reserved,
      let pc' := { pc with pricingSnapshot := some snapshot, reserved := reserved }
      (∃ insufficient, (p.reserve pc world).1 = BillingPlugin.fail insufficient pc') ∨
      ∃ id, (p.reserve pc world).1 = BillingPlugin.armed (BillingPlugin.hexEncode id) pc' := by
  let snapshot := pc.pricingSnapshot.getD (p.dyn world)
  exact ⟨snapshot, p.estimate snapshot { pc with pricingSnapshot := some snapshot },
    reserveAccounted_cases p snapshot _ world⟩

/-- Pre either leaves a request without a reservation, and then it does not let it pass, or it
leaves it armed. -/
theorem runPre_cases (chain : Chain) (pc : PluginContext) (world : σ) :
    let r := chain.runPre p pc world
    (r.1 ≠ .pass ∧ r.2.1.reservationID = pc.reservationID ∧
      r.2.1.billingFinalize = pc.billingFinalize) ∨
    ∃ snapshot reserved id stop blockedBy,
      r.2.1 = { BillingPlugin.armed (BillingPlugin.hexEncode id)
        { pc with pricingSnapshot := some snapshot, reserved := reserved } with
          stop := stop, blockedBy := blockedBy } := by
  rw [Chain.runPre]
  obtain ⟨stop, blockedBy, hbefore⟩ := runOthers_snd OtherPlugin.pre chain.before pc
  split
  · rename_i pc' hpass
    cases runOthers_pass hpass
    obtain ⟨snapshot, reserved, hreserve⟩ := reserve_cases p pc world
    rcases hr : p.reserve pc world with ⟨pc₁, world₁⟩
    rw [hr] at hreserve
    rcases hreserve with ⟨insufficient, rfl⟩ | ⟨id, rfl⟩
    · exact .inl ⟨by simp [BillingPlugin.fail], rfl, rfl⟩
    · refine .inr ⟨snapshot, reserved, id, ?_⟩
      simp only
      split
      · exact ⟨_, _, rfl⟩
      · exact runOthers_snd _ _ _
  · rename_i v pc' hv heq
    rw [heq] at hbefore
    cases hbefore
    exact .inl ⟨hv, rfl, rfl⟩

/-- What holds of the world through Pre: all that Pre does to it is to read random bytes and to
reserve. -/
theorem runPre_world {W : σ → Prop} (hrand : ∀ world, W world → W (p.randRead world).2)
    (hstore : ∀ req world, W world → W (p.accounting.reserve req world).2) (chain : Chain)
    (pc : PluginContext) {world : σ} (h : W world) : W (chain.runPre p pc world).2.2 := by
  have hreserve : ∀ pc, W (p.reserve pc world).2 := by
    intro pc
    have hread := hrand world h
    simp only [BillingPlugin.reserve, BillingPlugin.reserveAccounted]
    split
    · exact h
    split
    · exact h
    split
    · exact h
    split
    · exact h
    split
    · rename_i heq
      rw [heq] at hread
      exact hread
    · rename_i id world' heq
      rw [heq] at hread
      have hasked := fun req ↦ hstore req world' hread
      split
      · rename_i heq
        have hasked := heq ▸ hasked _
        exact hasked
      · rename_i heq
        have hasked := heq ▸ hasked _
        exact hasked
  rw [Chain.runPre]
  split
  · simp only
    split
    · exact hreserve _
    · exact hreserve _
  · exact h

end Pre

end Voxeltoad
