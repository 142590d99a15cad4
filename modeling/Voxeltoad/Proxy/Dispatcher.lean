import Voxeltoad.Proxy.Forward
import Voxeltoad.Proxy.Router

/-!
# Routing and failover

`internal/proxy/dispatcher.go` and `preparer.go`.  A dispatcher resolves an alias to candidate
endpoints and tries them in turn: a candidate is skipped when it has no forwarder or does not serve
the alias, the accounting hook may refuse to go on, and an attempt that fails is followed by the
next one only if its error is retryable.

`Forward` and `ForwardStream` are one loop, `tryCandidates`, with two ways of reading an exchange.
The loop carries the plugin context, since every attempt leaves its mark there
(`accountUpstreamResult`), and it records the attempts that were made.  The dispatch observer and
the telemetry are not modelled.
-/

set_option autoImplicit false

namespace Voxeltoad

/-! ## Endpoints -/

/-- `ingress.Protocol.AdapterName`. -/
def adapterName (protocol : String) : String :=
  if protocol = "anthropic" then "claude" else protocol

/-- `pickEndpoint`: the endpoint that speaks the client's protocol, else the provider's first
one. -/
def Dynamic.pickEndpoint (dyn : Dynamic) (provider protocol : String) : Option ProviderEndpoint :=
  (dyn.providers.reverse.find? fun p ↦ p.name = provider).bind fun p ↦
    (if protocol = "" then none
      else p.endpoints.find? fun ep ↦ ep.adapter = adapterName protocol).or p.endpoints.head?

/-- `Dispatcher`.  The preparer is the configuration it reads. -/
structure Dispatcher where
  router : Router
  breaker : CircuitBreaker
  forwarders : EndpointKey → Option Forwarder
  preparer : Option Dynamic

/-- `DispatchResult`. -/
structure DispatchResult where
  provider : String
  endpoint : String
  modelResolved : String
  fallback : Bool
  retryCount : Nat
  deriving DecidableEq, Repr

/-- `DispatchResult{}`, with a retry count. -/
def DispatchResult.zero (retryCount : Nat) : DispatchResult := ⟨"", "", "", false, retryCount⟩

/-- The errors of a dispatch. -/
inductive DispatchError where
  /-- `no route for model` -/
  | noRoute (modelAlias : String)
  /-- `no forwarder for` -/
  | noForwarder (key : EndpointKey)
  /-- `provider does not serve model` -/
  | notServed (provider model : String)
  /-- What the accounting hook returned. -/
  | refused (e : StoreError)
  | upstream (e : UpstreamError)
  /-- `no candidate providers` -/
  | noCandidates
  /-- `configuration mismatch` -/
  | mismatch (last : DispatchError)
  /-- `all providers failed` -/
  | allFailed (last : DispatchError)
  deriving DecidableEq, Repr

/-- `failoverExhausted`. -/
def failoverExhausted (last : Option DispatchError) (configMismatches total : Nat) :
    DispatchError :=
  match last with
  | none => .noCandidates
  | some last => if configMismatches = total ∧ 0 < total then .mismatch last else .allFailed last

namespace Dispatcher

variable (d : Dispatcher)

/-- `endpointFor`. -/
def endpointFor (provider protocol : String) : String :=
  match d.preparer with
  | none => "default"
  | some dyn =>
    match dyn.pickEndpoint provider protocol with
    | none => "default"
    | some ep => ep.endpointID

/-- `expandCandidates`. -/
def expandCandidates (protocol : String) (names : List String) : List EndpointKey :=
  names.map fun name ↦ ⟨name, d.endpointFor name protocol⟩

end Dispatcher

/-- The request for one upstream: `normalize.Apply` as far as it concerns the token bound, and the
upstream's own model name. -/
def ModelUpstream.prepared (mu : ModelUpstream) (req : UnifiedRequest) : UnifiedRequest :=
  { req with
    model := mu.upstreamModel
    maxTokens := if req.maxTokens = none ∧ 0 < mu.defaultMaxTokens then some mu.defaultMaxTokens
      else req.maxTokens }

/-- **`Prepare`.** -/
def Dispatcher.prepare (d : Dispatcher) (req : UnifiedRequest) (key : EndpointKey) :
    Except DispatchError UnifiedRequest :=
  match d.preparer with
  | none => .ok req
  | some dyn =>
    match dyn.resolveModel req.model key.provider with
    | none => .error (.notServed key.provider req.model)
    | some mu => .ok (mu.prepared req)

/-! ## Accounting -/

/-- `accountUpstreamResult`: the usage of a successful attempt is authoritative, and what was
uncertain before it becomes a recorded risk. -/
def accountUpstreamResult {α : Type} (result : Except UpstreamError α) (pc : PluginContext) :
    PluginContext :=
  match result with
  | .ok _ =>
    if pc.billingUncertain then
      { pc with chargePossible := true, billingAttemptRisk := true, billingUncertain := false }
    else { pc with chargePossible := true }
  | .error e =>
    if e.definite then pc else { pc with chargePossible := true, billingUncertain := true }

/-- An attempt changes nothing in the context but the three flags. -/
theorem accountUpstreamResult_eq {α : Type} (result : Except UpstreamError α)
    (pc : PluginContext) :
    ∃ charge uncertain risk, accountUpstreamResult result pc =
      { pc with
        chargePossible := charge, billingUncertain := uncertain, billingAttemptRisk := risk } := by
  simp only [accountUpstreamResult]
  repeat' split
  all_goals exact ⟨_, _, _, rfl⟩

/-- Whether a provider is one of the route's, with a forwarder at the endpoint a request would
use. -/
def Dispatcher.reachable (d : Dispatcher) (modelAlias protocol provider : String) : Bool :=
  let providers := ((d.router.route modelAlias).map Route.providers).getD []
  providers.any (fun candidate ↦ candidate.name = provider) &&
    (d.forwarders ⟨provider, d.endpointFor provider protocol⟩).isSome

/-- `accountingSnapshot` leaves out the upstreams that this route does not reach. -/
def Dispatcher.accountingSnapshot (d : Dispatcher) (modelAlias protocol : String) :
    Option Dynamic :=
  d.preparer.map fun dyn ↦
    { version := dyn.version
      providers := []
      models := (dyn.models.filter fun m ↦ m.modelAlias = modelAlias).map fun m ↦
        { m with upstreams := m.upstreams.filter fun u ↦
            d.reachable modelAlias protocol u.provider }
      routes := [] }

/-! ## The failover loop -/

/-- A dispatcher for a configuration, with a forwarder for each provider's OpenAI endpoint. -/
def Dispatcher.sample (dyn : Dynamic) : Dispatcher where
  router := ⟨dyn.routes, fun _ ↦ 0, fun _ _ ↦ 0, fun _ _ ↦ 0⟩
  breaker := newCircuitBreaker 0 0
  forwarders key :=
    if dyn.providers.any (fun p ↦ p.name = key.provider) ∧ key.endpoint = "openai" then
      some ⟨.openai⟩
    else none
  preparer := some dyn

/-- The network: what happens to a request that is sent, and the clock. -/
structure Upstreams (σ : Type) where
  exchange : EndpointKey → UnifiedRequest → σ → Exchange × σ
  now : σ → Time

/-- An upstream call: where it went, what was sent, and what happened to it. -/
structure Attempt where
  key : EndpointKey
  req : UnifiedRequest
  exchange : Exchange
  deriving DecidableEq, Repr

/-- What the loop over the candidates carries. -/
structure Trying (σ : Type) where
  pc : PluginContext
  world : σ
  breaker : CircuitBreaker
  lastErr : Option DispatchError
  configMismatches : Nat
  attempts : List Attempt

/-- Account an attempt and record it. -/
def Trying.record {σ α : Type} (s : Trying σ) (result : Except UpstreamError α) (a : Attempt)
    (world : σ) : Trying σ :=
  { s with pc := accountUpstreamResult result s.pc, world := world, attempts := s.attempts ++ [a] }

section Loop

variable {σ α : Type} (send : Forwarder → Exchange → Except UpstreamError α) (d : Dispatcher)
  (store : AccountingStore σ) (net : Upstreams σ)

/-- `beforeAccountedUpstream`. -/
def beforeAccountedUpstream (pc : PluginContext) (world : σ) : Except StoreError Unit × σ :=
  match pc.beforeUpstream with
  | none => (.ok (), world)
  | some id => store.markDispatched id world

/-- The call of an attempt, and what is done with its outcome.  `none` goes on to the next
candidate. -/
def callUpstream (i : Nat) (key : EndpointKey) (f : Forwarder) (preq : UnifiedRequest)
    (s : Trying σ) : Trying σ × Option (Except DispatchError α × DispatchResult) :=
  let (x, world) := net.exchange key preq s.world
  let s := s.record (send f x) ⟨key, preq, x⟩ world
  let dr : DispatchResult := ⟨key.provider, key.endpoint, preq.model, 0 < i, i⟩
  match send f x with
  | .ok a => ({ s with breaker := s.breaker.markSuccess key }, some (.ok a, dr))
  | .error e =>
    let s := { s with lastErr := some (.upstream e) }
    if e.retryable then
      ({ s with breaker := s.breaker.markFailure (net.now world) (net.now world) key }, none)
    else (s, some (.error (.upstream e), dr))

/-- The body of the loop. -/
def tryCandidate (req : UnifiedRequest) (i : Nat) (key : EndpointKey) (s : Trying σ) :
    Trying σ × Option (Except DispatchError α × DispatchResult) :=
  match d.forwarders key with
  | none => ({ s with lastErr := some (.noForwarder key) }, none)
  | some f =>
    match d.prepare req key with
    | .error e => ({ s with lastErr := some e, configMismatches := s.configMismatches + 1 }, none)
    | .ok preq =>
      match beforeAccountedUpstream store s.pc s.world with
      | (.error e, world) =>
        ({ s with world := world }, some (.error (.refused e), .zero 0))
      | (.ok (), world) => callUpstream send net i key f preq { s with world := world }

/-- The loop over the candidates. -/
def tryCandidates (req : UnifiedRequest) (total : Nat) :
    Nat → List EndpointKey → Trying σ → Trying σ × (Except DispatchError α × DispatchResult)
  | _, [], s => (s, .error (failoverExhausted s.lastErr s.configMismatches total), .zero total)
  | i, key :: keys, s =>
    match tryCandidate send d store net req i key s with
    | (s, some r) => (s, r)
    | (s, none) => tryCandidates req total (i + 1) keys s

/-- What a dispatch leaves: the request, the dispatcher with its cursor and breaker moved on, the
attempts it made, and what it returns. -/
structure Dispatched (σ α : Type) where
  session : Session σ
  dispatcher : Dispatcher
  attempts : List Attempt
  outcome : Except DispatchError α
  result : DispatchResult

/-- **`Forward` and `ForwardStream`.** -/
def dispatch (modelAlias sessionKey protocol : String) (req : UnifiedRequest) (s : Session σ) :
    Dispatched σ α :=
  let healthy (name : String) : Bool :=
    d.breaker.healthy (net.now s.world) ⟨name, d.endpointFor name protocol⟩
  match d.router.candidates healthy modelAlias sessionKey with
  | (none, router) => ⟨s, { d with router := router }, [], .error (.noRoute modelAlias), .zero 0⟩
  | (some names, router) =>
    let keys := d.expandCandidates protocol names
    let (t, outcome, result) := tryCandidates send d store net req keys.length 0 keys
      ⟨s.pc, s.world, d.breaker, none, 0, []⟩
    ⟨{ s with pc := t.pc, world := t.world }, { d with router := router, breaker := t.breaker },
      t.attempts, outcome, result⟩

/-! ### What the loop can do -/

/-- **The steps of the loop.**  What one candidate does to what the loop carries, and whether the
loop ends with it. -/
inductive CandidateStep (req : UnifiedRequest) (i : Nat) (key : EndpointKey) (s : Trying σ) :
    Trying σ → Option (Except DispatchError α × DispatchResult) → Prop
  | noForwarder (hf : d.forwarders key = none) :
    CandidateStep req i key s { s with lastErr := some (.noForwarder key) } none
  | notPrepared {f : Forwarder} {e : DispatchError} (hf : d.forwarders key = some f)
      (hp : d.prepare req key = .error e) :
    CandidateStep req i key s
      { s with lastErr := some e, configMismatches := s.configMismatches + 1 } none
  | refused {f : Forwarder} {preq : UnifiedRequest} {e : StoreError} {world : σ}
      (hf : d.forwarders key = some f) (hp : d.prepare req key = .ok preq)
      (hb : beforeAccountedUpstream store s.pc s.world = (.error e, world)) :
    CandidateStep req i key s { s with world := world } (some (.error (.refused e), .zero 0))
  | won {f : Forwarder} {preq : UnifiedRequest} {world world' : σ} {x : Exchange} {a : α}
      (hf : d.forwarders key = some f) (hp : d.prepare req key = .ok preq)
      (hb : beforeAccountedUpstream store s.pc s.world = (.ok (), world))
      (hx : net.exchange key preq world = (x, world')) (ha : send f x = .ok a) :
    CandidateStep req i key s
      { s.record (send f x) ⟨key, preq, x⟩ world' with breaker := s.breaker.markSuccess key }
      (some (.ok a, ⟨key.provider, key.endpoint, preq.model, 0 < i, i⟩))
  | retried {f : Forwarder} {preq : UnifiedRequest} {world world' : σ} {x : Exchange}
      {e : UpstreamError} (hf : d.forwarders key = some f) (hp : d.prepare req key = .ok preq)
      (hb : beforeAccountedUpstream store s.pc s.world = (.ok (), world))
      (hx : net.exchange key preq world = (x, world')) (he : send f x = .error e)
      (hr : e.retryable = true) :
    CandidateStep req i key s
      { s.record (send f x) ⟨key, preq, x⟩ world' with
        lastErr := some (.upstream e)
        breaker := s.breaker.markFailure (net.now world') (net.now world') key } none
  | failed {f : Forwarder} {preq : UnifiedRequest} {world world' : σ} {x : Exchange}
      {e : UpstreamError} (hf : d.forwarders key = some f) (hp : d.prepare req key = .ok preq)
      (hb : beforeAccountedUpstream store s.pc s.world = (.ok (), world))
      (hx : net.exchange key preq world = (x, world')) (he : send f x = .error e)
      (hr : e.retryable = false) :
    CandidateStep req i key s
      { s.record (send f x) ⟨key, preq, x⟩ world' with lastErr := some (.upstream e) }
      (some (.error (.upstream e), ⟨key.provider, key.endpoint, preq.model, 0 < i, i⟩))

theorem tryCandidate_step (req : UnifiedRequest) (i : Nat) (key : EndpointKey) (s : Trying σ) :
    CandidateStep send d store net req i key s (tryCandidate send d store net req i key s).1
      (tryCandidate send d store net req i key s).2 := by
  rw [tryCandidate]
  split
  · exact .noForwarder ‹_›
  rename_i f hf
  split
  · exact .notPrepared hf ‹_›
  rename_i preq hp
  split
  · exact .refused hf hp ‹_›
  rename_i world hb
  rcases hx : net.exchange key preq world with ⟨x, world'⟩
  rcases hsend : send f x with e | a
  · cases hr : e.retryable with
    | true =>
      have hstep := CandidateStep.retried (i := i) hf hp hb hx hsend hr
      rw [hsend] at hstep
      simp only [callUpstream, hx, hsend, hr, if_true]
      exact hstep
    | false =>
      have hstep := CandidateStep.failed (i := i) hf hp hb hx hsend hr
      rw [hsend] at hstep
      simp only [callUpstream, hx, hsend, hr, if_false, Bool.false_eq_true]
      exact hstep
  · have hstep := CandidateStep.won (i := i) hf hp hb hx hsend
    rw [hsend] at hstep
    simp only [callUpstream, hx, hsend]
    exact hstep

/-- **The rule for the loop.**  `P` holds while candidates are tried, `Q` of what the loop ends
with. -/
theorem tryCandidates_rec {req : UnifiedRequest} {total : Nat}
    (P : List EndpointKey → Trying σ → Prop)
    (Q : Trying σ → Except DispatchError α × DispatchResult → Prop)
    (hnext : ∀ i key keys s s', P (key :: keys) s →
      CandidateStep send d store net req i key s s' none → P keys s')
    (hdone : ∀ i key keys s s' r, P (key :: keys) s →
      CandidateStep send d store net req i key s s' (some r) → Q s' r)
    (hend : ∀ s, P [] s →
      Q s (.error (failoverExhausted s.lastErr s.configMismatches total), .zero total))
    {i : Nat} {keys : List EndpointKey} {s : Trying σ} (h : P keys s) :
    Q (tryCandidates send d store net req total i keys s).1
      (tryCandidates send d store net req total i keys s).2 := by
  induction keys generalizing i s with
  | nil => exact hend s h
  | cons key keys ih =>
    have hstep := tryCandidate_step send d store net req i key s
    rw [tryCandidates]
    split
    · rename_i s' r heq
      rw [heq] at hstep
      exact hdone i key keys s s' r h hstep
    · rename_i s' heq
      rw [heq] at hstep
      exact ih (hnext i key keys s s' h hstep)

end Loop

namespace Dispatcher

variable {σ : Type} (json : Json) (d : Dispatcher) (store : AccountingStore σ) (net : Upstreams σ)

def forward (modelAlias sessionKey protocol : String) (req : UnifiedRequest) (s : Session σ) :
    Dispatched σ UnifiedResponse :=
  dispatch (Forwarder.forward json) d store net modelAlias sessionKey protocol req s

def forwardStream (modelAlias sessionKey protocol : String) (req : UnifiedRequest)
    (s : Session σ) : Dispatched σ StreamReader :=
  dispatch Forwarder.forwardStream d store net modelAlias sessionKey protocol req s

end Dispatcher

end Voxeltoad
