import Voxeltoad.Proxy.Handler

/-!
# What the recorder, the bill and the client are told

A request leaves a record with the recorder of requests (`emit`), a settlement in the accounting
store (`Finish`) and an answer with the client.  They are put together at different places of
`internal/proxy`, from two accumulators that know nothing of each other: the plugin context and the
telemetry.  Here is that the three agree.

What an accumulator knows is split in two.  The `origin` of a context, who asks for what, is never
touched, and its `reply` is set once, right before Post runs, from the very values that the
telemetry is given (`Noted`).  What the settlement says follows from the context that is left, by
the invariant of settling.
-/

set_option autoImplicit false

namespace Voxeltoad

/-! ## What a context knows -/

/-- Who asks for what: the part of a context that is set when it is made. -/
structure Origin where
  identity : Identity
  request : UnifiedRequest
  requestID : String
  sessionID : String
  traceID : String

/-- What came back: the part that `runPost` sets. -/
structure Reply where
  response : Option UnifiedResponse
  provider : String
  providerEndpoint : String

namespace PluginContext

def origin (pc : PluginContext) : Origin where
  identity := ⟨pc.tenant, pc.group, pc.apiKeyID, pc.applicationID, pc.environment⟩
  request := pc.request
  requestID := pc.requestID
  sessionID := pc.sessionID
  traceID := pc.traceID

def reply (pc : PluginContext) : Reply := ⟨pc.response, pc.provider, pc.providerEndpoint⟩

/-- A context that knows the same. -/
structure Same (pc pc' : PluginContext) : Prop where
  origin : pc'.origin = pc.origin
  reply : pc'.reply = pc.reply

theorem Same.refl (pc : PluginContext) : Same pc pc := ⟨rfl, rfl⟩

theorem Same.trans {a b c : PluginContext} (hab : Same a b) (hbc : Same b c) : Same a c :=
  ⟨hbc.origin.trans hab.origin, hbc.reply.trans hab.reply⟩

theorem Same.usageOf {a b : PluginContext} (h : Same a b) :
    BillingPlugin.usageOf b = BillingPlugin.usageOf a :=
  congrArg (fun r : Reply ↦ r.response.bind UnifiedResponse.usage) h.reply

end PluginContext

open PluginContext (Same)

section Frame

variable {σ : Type} (p : BillingPlugin σ) (chain : Chain)

theorem runOthers_same (phase : OtherPlugin → Option Verdict) (qs : List OtherPlugin)
    (pc : PluginContext) : Same pc (runOthers phase qs pc).2 := by
  obtain ⟨stop, blockedBy, h⟩ := runOthers_snd phase qs pc
  rw [h]
  exact ⟨rfl, rfl⟩

theorem reserve_same (pc : PluginContext) (world : σ) : Same pc (p.reserve pc world).1 := by
  obtain ⟨snapshot, reserved, h⟩ := reserve_cases p pc world
  rcases h with ⟨insufficient, h⟩ | ⟨id, h⟩
  · rw [h]
    exact ⟨rfl, rfl⟩
  · rw [h]
    exact ⟨rfl, rfl⟩

theorem runPre_same (pc : PluginContext) (world : σ) : Same pc (chain.runPre p pc world).2.1 := by
  have hbefore := runOthers_same OtherPlugin.pre chain.before pc
  rw [Chain.runPre]
  split
  case h_1 pc' heq =>
    rw [heq] at hbefore
    have hreserve := hbefore.trans (reserve_same p pc' world)
    simp only
    split
    · exact hreserve
    · exact hreserve.trans (runOthers_same _ _ _)
  case h_2 verdict pc' hne heq =>
    rw [heq] at hbefore
    exact hbefore

theorem settle_same (s : Session σ) : Same s.pc (p.settle s).2.pc := by
  rw [BillingPlugin.settle]
  split
  case isTrue => exact .refl _
  case isFalse =>
    obtain ⟨uncertain, h⟩ := BillingPlugin.classify_fst (p.dyn s.world) s.pc
    simp only [h]
    split
    · exact ⟨rfl, rfl⟩
    · split <;> exact ⟨rfl, rfl⟩

theorem runPostPhase_same (s : Session σ) : Same s.pc (chain.runPostPhase p s).pc := by
  have hbefore := runOthers_same OtherPlugin.post chain.before s.pc
  rw [Chain.runPostPhase]
  split
  case h_1 pc heq =>
    rw [heq] at hbefore
    have hsettle := settle_same p { s with pc := pc }
    split
    case h_1 heq' =>
      rw [heq'] at hsettle
      exact hbefore.trans hsettle
    case h_2 heq' =>
      rw [heq'] at hsettle
      exact (hbefore.trans hsettle).trans (runOthers_same _ _ _)
  case h_2 hne heq =>
    rw [heq] at hbefore
    exact hbefore

theorem runPost_same (s : Session σ) (resp : UnifiedResponse) (dr : DispatchResult) :
    Same (s.pc.posted resp dr) (chain.runPost p s resp dr).pc :=
  runPostPhase_same p chain { s with pc := s.pc.posted resp dr }

theorem finalize_same (g : Gateway σ) (s : Session σ) : Same s.pc (finalize g s).pc := by
  rw [finalize]
  split
  · exact settle_same g.billing s
  · exact .refl _

theorem accountUpstreamResult_same {α : Type} (result : Except UpstreamError α)
    (pc : PluginContext) : Same pc (accountUpstreamResult result pc) := by
  obtain ⟨charge, uncertain, risk, h⟩ := accountUpstreamResult_eq result pc
  rw [h]
  exact ⟨rfl, rfl⟩

end Frame

/-! ## What is called -/

section Calls

variable {σ α : Type} (send : Forwarder → Exchange → Except UpstreamError α) (d : Dispatcher)
  (store : AccountingStore σ) (net : Upstreams σ)

/-- An upstream call that a request for an alias may make: of a provider of the route in force, for
the model that this provider serves under the alias. -/
structure CallFor (d : Dispatcher) (req : UnifiedRequest) (a : Attempt) : Prop where
  routed : ∃ rt, d.router.route req.model = some rt ∧ ∃ p ∈ rt.providers, p.name = a.key.provider
  prepared : d.prepare req a.key = .ok a.req

/-- A dispatch leaves what the context knows, and all its calls are for the request. -/
theorem dispatch_calls (sessionKey protocol : String) (req : UnifiedRequest) (s : Session σ) :
    let r := dispatch send d store net req.model sessionKey protocol req s
    Same s.pc r.session.pc ∧ ∀ a ∈ r.attempts, CallFor d req a := by
  rw [dispatch]
  split
  case h_1 => exact ⟨.refl _, List.forall_mem_nil _⟩
  case h_2 names router heq =>
    -- every key that is tried is that of a candidate
    have hnames : ∀ name ∈ names, ∃ rt, d.router.route req.model = some rt ∧ ∃ p ∈ rt.providers,
        p.name = name :=
      fun name hname ↦ mem_candidates (congrArg Prod.fst heq) hname
    have hkeys : ∀ key ∈ d.expandCandidates protocol names,
        ∃ rt, d.router.route req.model = some rt ∧ ∃ p ∈ rt.providers, p.name = key.provider := by
      intro key hkey
      obtain ⟨name, hname, rfl⟩ := List.mem_map.mp hkey
      exact hnames name hname
    refine tryCandidates_rec send d store net
      (fun keys t ↦ (∀ key ∈ keys, ∃ rt, d.router.route req.model = some rt ∧ ∃ p ∈ rt.providers,
        p.name = key.provider) ∧ Same s.pc t.pc ∧ ∀ a ∈ t.attempts, CallFor d req a)
      (fun t _ ↦ Same s.pc t.pc ∧ ∀ a ∈ t.attempts, CallFor d req a) ?_ ?_ (fun _ h ↦ h.2)
      ⟨hkeys, .refl _, List.forall_mem_nil _⟩
    · rintro i key keys t t' ⟨hkeys, hsame, hcalls⟩ hstep
      obtain ⟨hkey, hkeys⟩ := List.forall_mem_cons.mp hkeys
      cases hstep with
      | noForwarder hf => exact ⟨hkeys, hsame, hcalls⟩
      | notPrepared hf hp => exact ⟨hkeys, hsame, hcalls⟩
      | retried hf hp hb hx he hr =>
        exact ⟨hkeys, hsame.trans (accountUpstreamResult_same _ _),
          List.forall_mem_append.mpr ⟨hcalls, List.forall_mem_singleton.mpr ⟨hkey, hp⟩⟩⟩
    · rintro i key keys t t' r ⟨hkeys, hsame, hcalls⟩ hstep
      obtain ⟨hkey, -⟩ := List.forall_mem_cons.mp hkeys
      cases hstep with
      | refused hf hp hb => exact ⟨hsame, hcalls⟩
      | won hf hp hb hx ha =>
        exact ⟨hsame.trans (accountUpstreamResult_same _ _),
          List.forall_mem_append.mpr ⟨hcalls, List.forall_mem_singleton.mpr ⟨hkey, hp⟩⟩⟩
      | failed hf hp hb hx he hr =>
        exact ⟨hsame.trans (accountUpstreamResult_same _ _),
          List.forall_mem_append.mpr ⟨hcalls, List.forall_mem_singleton.mpr ⟨hkey, hp⟩⟩⟩

end Calls

/-! ## What is noted -/

/-- A relayed stream ends with a chunk that was not encoded. -/
def encodeFailed (incoming : Incoming) (relayed : List Chunk) : Bool :=
  relayed.getLast?.any fun c ↦ !incoming.encodesChunk relayed.dropLast c

/-- The error type that an answer is put down with.  The client of a stream is not told. -/
def ClientAnswer.errType (incoming : Incoming) : ClientAnswer → String
  | .error _ errType _ => errType
  | .notImplemented => "api_error"
  | .completion _ => ""
  | .stream relayed => if encodeFailed incoming relayed then "api_error" else ""

/-- The answer when the upstream returned something that the codec does not take. -/
def encodeError : ClientAnswer := .error 500 "api_error" "failed to encode response"

/-- What a telemetry does not find out on the way. -/
def TelemetryAcc.start (a : TelemetryAcc) : TelemetryAcc :=
  { a with
    provider := "", providerEndpoint := "", modelResolved := "", fallback := false, usage := none,
    errType := "" }

theorem encodeFailed_concat (incoming : Incoming) (prev : List Chunk) (c : Chunk) :
    encodeFailed incoming (prev ++ [c]) = !incoming.encodesChunk prev c := by
  rw [encodeFailed, List.getLast?_concat, List.dropLast_concat, Option.any_some]

/-- The loop notes an error down when the last chunk was not encoded. -/
theorem relayNoted_errType (json : Json) (incoming : Incoming) (r : StreamReader) (s : Relaying)
    (herr : s.errType = "") (hs : encodeFailed incoming s.relay.relayed = false) :
    (relayNoted json incoming r s).errType =
      if encodeFailed incoming (relayNoted json incoming r s).relay.relayed then "api_error"
          else "" := by
  induction r using StreamReader.chunks.induct json generalizing s with
  | case1 r e r' hrecv =>
    rw [relayNoted_of_error hrecv]
    simp only [hs, herr, Bool.false_eq_true, if_false]
  | case2 r c r' hrecv hlt ih =>
    have hlast := encodeFailed_concat incoming s.relay.relayed c
    rw [relayNoted_of_ok hrecv]
    cases hencodes : incoming.encodesChunk s.relay.relayed c with
    | false =>
      rw [hencodes] at hlast
      simp [hlast]
    | true =>
      rw [hencodes] at hlast
      cases incoming.writes s.relay.relayed c with
      | false => simpa [hlast] using herr
      | true => exact ih _ herr hlast

theorem mapForwardError_status (e : DispatchError) : 500 ≤ (mapForwardError e).1 := by
  rw [mapForwardError]
  split <;> decide

/-- **The telemetry knows what the context knows**: the usage, and who reported it. -/
structure Noted (call : Call) (acc : TelemetryAcc) (pc : PluginContext) : Prop where
  origin : pc.origin = (newPluginContext call).origin
  usage : BillingPlugin.usageOf pc = acc.usage
  provider : BillingPlugin.usageOf pc ≠ none →
    pc.provider = acc.provider ∧ pc.providerEndpoint = acc.providerEndpoint

section Noted

variable {call : Call} {acc : TelemetryAcc} {pc pc' : PluginContext}

theorem Noted.same (h : Noted call acc pc) (hsame : Same pc pc') : Noted call acc pc' where
  origin := hsame.origin.trans h.origin
  usage := hsame.usageOf.trans h.usage
  provider hne := by
    obtain ⟨hprovider, hendpoint⟩ := h.provider (hsame.usageOf ▸ hne)
    exact ⟨(congrArg Reply.provider hsame.reply).trans hprovider,
      (congrArg Reply.providerEndpoint hsame.reply).trans hendpoint⟩

/-- Nothing came back. -/
theorem Noted.silent (hsame : Same (newPluginContext call) pc) (hacc : acc.usage = none) :
    Noted call acc pc where
  origin := hsame.origin
  usage := hsame.usageOf.trans hacc.symm
  provider hne := absurd hsame.usageOf hne

/-- What `runPost` and `setResult` are given. -/
theorem Noted.posted (hsame : Same (newPluginContext call) pc) (resp : UnifiedResponse)
    (dr : DispatchResult) : Noted call (acc.setResult dr resp.usage) (pc.posted resp dr) where
  origin := hsame.origin
  usage := rfl
  provider _ := ⟨rfl, rfl⟩

end Noted

/-! ## What is answered -/

section Answers

variable {σ : Type} {plane : DataPlane σ} {d : Dispatcher} {call : Call} {incoming : Incoming}
  {acc : TelemetryAcc}

/-- What holds of everything a request is answered with. -/
structure Answered.Sound (d : Dispatcher) (call : Call) (incoming : Incoming) (acc : TelemetryAcc)
    (a : Answered σ) : Prop where
  noted : Noted call a.acc a.served.session.pc
  start : a.acc.start = acc.start
  errType : a.acc.errType = a.answer.errType incoming
  calls : ∀ x ∈ a.served.attempts, CallFor d call.request x
  /-- Usage is only seen when the upstream has answered. -/
  answered : a.acc.usage ≠ none → a.answer.status = 200 ∨ a.answer = encodeError
  /-- The upstream never makes for a 4xx. -/
  refused : 400 ≤ a.answer.status → a.answer.status < 500 → a.served.attempts = []

theorem streamAnswered_sound (herr : acc.errType = "") (husage : acc.usage = none) {s : Session σ}
    (hs : Same (newPluginContext call) s.pc) :
    (streamAnswered plane d call incoming acc s).Sound d call incoming acc := by
  simp only [streamAnswered]
  split
  case isTrue =>
    exact ⟨.silent hs husage, rfl, rfl, List.forall_mem_nil _, fun h ↦ absurd husage h,
      fun _ _ ↦ rfl⟩
  case isFalse =>
    have hcalls :=
      dispatch_calls Forwarder.forwardStream d plane.gateway.billing.accounting plane.gateway.net
      call.sessionKey call.protocol call.request s
    simp only [Dispatcher.forwardStream]
    generalize dispatch Forwarder.forwardStream d plane.gateway.billing.accounting plane.gateway.net
      call.request.model call.sessionKey call.protocol call.request s = r at hcalls
    obtain ⟨hsame, hcalls⟩ := hcalls
    have hs' := hs.trans hsame
    cases r.outcome with
    | error e =>
      have hstatus := mapForwardError_status e
      refine ⟨.silent hs' rfl, rfl, rfl, hcalls, fun h ↦ absurd rfl h, fun _ h ↦ ?_⟩
      exact absurd h (Nat.not_lt.mpr hstatus)
    | ok sr =>
      simp only
      have herrType :=
        relayNoted_errType plane.gateway.json incoming sr
        ⟨⟨r.session.pc, none, []⟩, acc.errType⟩ herr
        rfl
      have hrelay :=
        relayNoted_relay incoming plane.gateway.json sr ⟨⟨r.session.pc, none, []⟩, acc.errType⟩
      generalize relayNoted plane.gateway.json incoming sr ⟨⟨r.session.pc, none, []⟩, acc.errType⟩ =
        t at herrType hrelay
      have hpc : Same r.session.pc t.relay.pc := by
        rw [hrelay, relay_start]
        exact ⟨rfl, rfl⟩
      refine ⟨?_, rfl, herrType, hcalls, fun _ ↦ .inl rfl,
        fun h ↦ absurd h (show ¬ 400 ≤ 200 by decide)⟩
      exact (Noted.posted (hs'.trans hpc) ⟨call.request.model, t.relay.lastUsage⟩ r.result).same
        (runPost_same _ _ { r.session with pc := t.relay.pc } _ _)

theorem chatAnswered_sound (herr : acc.errType = "") {s : Session σ}
    (hs : Same (newPluginContext call) s.pc) :
    (chatAnswered plane d call incoming acc s).Sound d call incoming acc := by
  have hcalls :=
    dispatch_calls (Forwarder.forward plane.gateway.json) d plane.gateway.billing.accounting
    plane.gateway.net call.sessionKey call.protocol call.request s
  simp only [chatAnswered, Dispatcher.forward]
  generalize dispatch (Forwarder.forward plane.gateway.json) d plane.gateway.billing.accounting
    plane.gateway.net call.request.model call.sessionKey call.protocol call.request s = r at hcalls
  obtain ⟨hsame, hcalls⟩ := hcalls
  have hnoted (acc : TelemetryAcc) (resp : UnifiedResponse) :
      Noted call (acc.setResult r.result resp.usage)
        (plane.chain.runPost plane.gateway.billing r.session resp r.result).pc :=
    (Noted.posted (hs.trans hsame) resp r.result).same (runPost_same _ _ _ _ _)
  cases r.outcome with
  | error e =>
    have hstatus := mapForwardError_status e
    refine ⟨hnoted _ ⟨call.request.model, none⟩, rfl, rfl, hcalls,
      fun h ↦ absurd rfl h, fun _ h ↦ ?_⟩
    exact absurd h (Nat.not_lt.mpr hstatus)
  | ok resp =>
    simp only
    split
    case isTrue =>
      exact ⟨hnoted _ resp, rfl, herr, hcalls, fun _ ↦ .inl rfl,
      fun h ↦ absurd h (show ¬ 400 ≤ 200 by decide)⟩
    case isFalse =>
      exact ⟨hnoted (acc.failed "api_error") resp, rfl, rfl, hcalls, fun _ ↦ .inr rfl,
      fun _ h ↦ absurd h (show ¬ 500 < 500 by decide)⟩

theorem answeredAfterPre_sound (plane : DataPlane σ) (d : Dispatcher) (incoming : Incoming)
    (herr : acc.errType = "") (husage : acc.usage = none) (verdict : Verdict) {s : Session σ}
    (hs : Same (newPluginContext call) s.pc) :
    (answeredAfterPre plane d call incoming acc verdict s).Sound d call incoming acc := by
  cases verdict with
  | pass =>
    rw [answeredAfterPre]
    split
    · exact streamAnswered_sound herr husage hs
    · exact chatAnswered_sound herr hs
  | stop | fail =>
    exact ⟨.silent hs husage, rfl, rfl, List.forall_mem_nil _, fun h ↦ absurd husage h,
      fun _ _ ↦ rfl⟩

/-- **Whatever a request is answered with.** -/
theorem serveAccounted_sound (plane : DataPlane σ) (d : Dispatcher) (call : Call)
    (incoming : Incoming) (herr : acc.errType = "") (husage : acc.usage = none) (world : σ) :
    (serveAccounted plane d call incoming acc world).Sound d call incoming acc := by
  have hpriced : Same (newPluginContext call) (pricedContext d call) := ⟨rfl, rfl⟩
  simp only [serveAccounted]
  split
  case isTrue =>
    exact ⟨.silent hpriced husage, rfl, rfl, List.forall_mem_nil _, fun h ↦ absurd husage h,
      fun _ _ ↦ rfl⟩
  case isFalse =>
    have hpre := hpriced.trans
      (runPre_same plane.gateway.billing plane.chain (pricedContext d call) world)
    generalize plane.chain.runPre plane.gateway.billing (pricedContext d call) world = r at hpre
    have hafter :=
      answeredAfterPre_sound plane d incoming herr husage r.1 (s := ⟨r.2.1, r.2.2, []⟩) hpre
    exact ⟨hafter.noted.same (finalize_same _ _), hafter.start, hafter.errType, hafter.calls,
      hafter.answered, hafter.refused⟩

end Answers

/-! ## What is settled -/

section Settled

variable {σ : Type} {g : Gateway σ} {d : Dispatcher} {chain : Chain} {call : Call} {world : σ}

/-- A request has no reservation and asks the store for nothing, or it is concluded. -/
theorem unreserved_or_concluded (g : Gateway σ) (d : Dispatcher) (chain : Chain)
    (call : Call) (world : σ) : (serveChat g d chain call world).session.finishes = [] ∨
      ∃ snapshot, Concluded g d call snapshot (serveChat g d chain call world) := by
  have hpre := runPre_cases g.billing chain (pricedContext d call) world
  simp only [serveChat]
  split
  case isTrue => exact .inl rfl
  case isFalse =>
    generalize chain.runPre g.billing (pricedContext d call) world = r at hpre
    obtain ⟨verdict, pc, world'⟩ := r
    rcases hpre with ⟨hverdict, -, hfinalize⟩ | ⟨snapshot, reserved, id, stop, blockedBy, hpc⟩
    · have hfinalize' : pc.billingFinalize = false := hfinalize
      simp only [afterPre_of_ne_pass hverdict, finalize, hfinalize', Bool.false_eq_true, if_false]
      exact .inl trivial
    · simp only at hpc
      subst hpc
      exact .inr
        ⟨snapshot, ((reserved_armed id reserved stop blockedBy).afterPre verdict world').finalize.1⟩

/-- Every settlement that the store is asked for is what the context that is left decides, and what
the attempts call for. -/
theorem settled_of_finish {f : Settlement × Except StoreError Unit}
    (hf : f ∈ (serveChat g d chain call world).session.finishes) (live : Dynamic) :
    f.1 = (BillingPlugin.classify live (serveChat g d chain call world).session.pc).2 ∧
      ∃ snapshot, Classified g.json d call snapshot
      (serveChat g d chain call world).attempts f.1 := by
  rcases unreserved_or_concluded g d chain call world with hnone | ⟨snapshot, t,
    hclassified, hsettling⟩
  · rw [hnone] at hf
    exact absurd hf List.not_mem_nil
  · rw [hsettling.finishes f hf, hsettling.decided live]
    exact ⟨rfl, snapshot, hclassified⟩

/-- The usage row of a settlement, in terms of the context that is settled. -/
theorem usage_of_classify {live : Dynamic} {pc : PluginContext} {r : UsageRecord}
    (h : (BillingPlugin.classify live pc).2.usage = some r) :
    ∃ u actual pricing, BillingPlugin.usageOf pc = some u ∧
    r = BillingPlugin.usageRecord pc u actual pricing := by
  simp only [BillingPlugin.classify, BillingPlugin.recordOf] at h
  split at h
  case h_2 => cases h
  case h_1 u pricing husage hpricing =>
    split at h
    case isFalse => cases h
    case isTrue =>
      cases h
      rcases hcost : checkedCost (some u) pricing with e | actual
      · refine ⟨u, 0, pricing, husage, ?_⟩
        simp only [BillingPlugin.priceUsage, husage, hpricing, hcost]
        rfl
      · refine ⟨u, actual, pricing, husage, ?_⟩
        simp only [BillingPlugin.priceUsage, husage, hpricing, hcost]

/-- A known charge comes with a usage row, and no other. -/
theorem usage_isSome_iff (live : Dynamic) (pc : PluginContext) :
    (BillingPlugin.classify live pc).2.usage.isSome ↔
      (BillingPlugin.classify live pc).2.outcome = .known := by
  constructor
  · intro h
    simp only [BillingPlugin.classify, BillingPlugin.recordOf] at h ⊢
    split at h
    case h_1 =>
      split at h
      case isTrue hknown => exact hknown
      case isFalse => cases h
    case h_2 => cases h
  · intro h
    obtain ⟨-, u, pricing, husage, hpricing, -⟩ :=
      ((BillingPlugin.classify_decided live pc).known _).mp ⟨h, rfl⟩
    simp only [BillingPlugin.classify, BillingPlugin.recordOf, husage, hpricing] at h ⊢
    rw [if_pos h]
    rfl

end Settled

/-! ## The three agree -/

/-- A record of a request and a row of the bill that say the same. -/
structure RequestLog.Agrees (log : RequestLog) (u : UsageRecord) : Prop where
  applicationID : u.applicationID = log.applicationID
  environment : u.environment = log.environment
  tenant : u.tenant = log.tenant
  group : u.group = log.group
  apiKeyID : u.apiKeyID = log.apiKeyID
  provider : u.provider = log.provider
  providerEndpoint : u.providerEndpoint = log.providerEndpoint
  model : u.model = log.modelRequested
  promptTokens : u.promptTokens = log.promptTokens
  completionTokens : u.completionTokens = log.completionTokens
  cachedPromptTokens : u.cachedPromptTokens = log.cachedPromptTokens
  requestID : u.requestID = log.requestID
  sessionID : u.sessionID = log.sessionID
  traceID : u.traceID = log.traceID

/-- Who a record is about. -/
def RequestLog.identity (log : RequestLog) : Identity :=
  ⟨log.tenant, log.group, log.apiKeyID, log.applicationID, log.environment⟩

/-- A record that reports no usage. -/
structure RequestLog.Unused (log : RequestLog) : Prop where
  promptTokens : log.promptTokens = 0
  completionTokens : log.completionTokens = 0
  totalTokens : log.totalTokens = 0
  cachedPromptTokens : log.cachedPromptTokens = 0
  cacheHit : log.cacheHit = false

theorem unused_of_usage {acc : TelemetryAcc} (h : acc.usage = none) (identity : Identity)
    (pc : Option PluginContext) : (acc.emit identity pc).Unused := by
  constructor <;> simp [TelemetryAcc.emit, TelemetryAcc.cacheHit, h]

/-- The record of a request agrees with what the context is billed for. -/
theorem Noted.agrees {call : Call} {acc : TelemetryAcc} {pc : PluginContext} (h : Noted call acc pc)
    (identity : Identity) (hmodel : acc.modelRequested = call.request.model)
    (hrequest : acc.requestID = call.requestID) (hsession : acc.sessionID = call.sessionID)
    (htrace : acc.traceID = call.traceID) {u : Usage} (husage : BillingPlugin.usageOf pc = some u)
    (actual : Int) (pricing : Pricing) :
    (acc.emit identity (some pc)).Agrees (BillingPlugin.usageRecord pc u actual pricing) := by
  obtain ⟨hprovider, hendpoint⟩ := h.provider (husage ▸ Option.some_ne_none u)
  have hacc : acc.usage = some u := h.usage.symm.trans husage
  have horigin := h.origin
  simp only [PluginContext.origin, newPluginContext, Origin.mk.injEq] at horigin
  obtain ⟨-, hreq, hid, hsid, htid⟩ := horigin
  constructor
  all_goals simp only [TelemetryAcc.emit, BillingPlugin.usageRecord, Option.elim_some, hacc]
  · exact hprovider
  · exact hendpoint
  · rw [hreq, hmodel]
  · rw [hid, hrequest]
  · rw [hsid, hsession]
  · rw [htid, htrace]

section Handled

variable {σ : Type} (plane : DataPlane σ) (codec : IngressCodec) (d : Option Dispatcher)
  (incoming : Incoming) (world : σ)

/-- The key that a request presents, looked up; `none` where the routes are open. -/
def Authenticated (rec : Option Auth.KeyRecord) (world' : σ) : Prop :=
  match plane.authenticate with
  | none => rec = none ∧ world' = world
  | some authenticate =>
    ∃ key r, bearerToken incoming.header = some key ∧
    authenticate key world = (.accepted r, world') ∧ rec = some r

/-- What has been checked when a request gets to the dispatcher. -/
structure Admitted (rec : Option Auth.KeyRecord) (req : Decoded) (d' : Dispatcher)
    (world' : σ) : Prop where
  authenticated : Authenticated plane incoming world rec world'
  enabled : codec.protocol = "anthropic" → plane.anthropicDisabled world' = false
  decoded : ∃ body, incoming.body = .ok body ∧ codec.decodeRequest body = .ok req
  allowed : ∀ r, rec = some r → r.allowedModels = [] ∨ req.request.model ∈ r.allowedModels
  dispatcher : d = some d'
  vision : reqHasImage req = true → supportsVision plane d' req.request.model = true

/-- **The two ways of a request**: it is refused before there is anything to do for it, or it is
admitted. -/
inductive Handling : Handled σ → Prop
  | refused (world' : σ) (log : Option RequestLog) (answer : ClientAnswer)
      (hlog : ∀ r ∈ log, r.errorType = answer.errType incoming ∧ r.Unused ∧
        ∃ rec, Authenticated plane incoming world rec world' ∧ r.identity = .of rec) :
    Handling (.refused d world' log answer)
  | served {rec : Option Auth.KeyRecord} {req : Decoded} {d' : Dispatcher} {world' : σ}
      (h : Admitted plane codec d incoming world rec req d' world') :
    Handling ((answeredTo plane codec incoming (.of rec) req d' world').handled (.of rec))

variable {plane codec d incoming world} {rec : Option Auth.KeyRecord} {world' : σ}

/-- A refusal that is not recorded. -/
theorem refused_handling (world' : σ) (answer : ClientAnswer) :
    Handling plane codec d incoming world (.refused d world' none answer) :=
  .refused world' none answer fun r hr ↦ absurd hr (Option.not_mem_none r)

theorem handleUndecoded_handling (hauth : Authenticated plane incoming world rec world')
    (err : String) :
    Handling plane codec d incoming world (handleUndecoded d incoming (.of rec) err world') := by
  refine .refused world' _ _ fun r hr ↦ ?_
  cases hr
  exact ⟨rfl, unused_of_usage rfl _ _, rec, hauth, rfl⟩

theorem handleRefused_handling (hauth : Authenticated plane incoming world rec world')
    (req : Decoded) {errType : String} {answer : ClientAnswer}
    (herr : errType = answer.errType incoming) : Handling plane codec d incoming world
      (handleRefused plane codec d incoming (.of rec) req errType answer world') := by
  refine .refused world' _ _ fun r hr ↦ ?_
  cases hr
  exact ⟨herr, unused_of_usage rfl _ _, rec, hauth, rfl⟩

theorem handleDecoded_handling (hauth : Authenticated plane incoming world rec world')
    (henabled : codec.protocol = "anthropic" → plane.anthropicDisabled world' = false)
    {req : Decoded}
    (hdecoded : ∃ body, incoming.body = .ok body ∧ codec.decodeRequest body = .ok req) :
    Handling plane codec d incoming world
    (handleDecoded plane codec d incoming rec req world') := by
  rw [handleDecoded.eq_def]
  split
  case isTrue => exact handleRefused_handling hauth req rfl
  case isFalse hallowed =>
    cases hd : d with
    | none => exact handleRefused_handling hauth req rfl
    | some d' =>
      simp only [handleDispatched]
      split
      case isTrue => exact handleRefused_handling hauth req rfl
      case isFalse hvision =>
        refine .served ⟨hauth, henabled, hdecoded, fun r hr ↦ ?_, rfl, fun himage ↦ ?_⟩
        · rw [hr, Option.any_some, decide_eq_true_iff, Bool.not_eq_false, modelAllowed,
            Bool.or_eq_true, decide_eq_true_iff, List.contains_iff_mem] at hallowed
          exact hallowed
        · rw [not_and, Bool.not_eq_false] at hvision
          exact hvision himage

theorem handleRoute_handling (hauth : Authenticated plane incoming world rec world') :
    Handling plane codec d incoming world (handleRoute plane codec d incoming rec world') := by
  rw [handleRoute]
  split
  case isTrue => exact refused_handling world' _
  case isFalse henabled =>
    rw [not_and, Bool.not_eq_true] at henabled
    rw [handleChat]
    cases hbody : incoming.body with
    | error err => exact handleUndecoded_handling hauth err
    | ok body =>
      cases hdecode : codec.decodeRequest body with
      | error err =>
        simp only [hdecode]
        exact handleUndecoded_handling hauth err
      | ok req =>
        simp only [hdecode]
        exact handleDecoded_handling hauth henabled ⟨body, hbody, hdecode⟩

/-- Every request goes one of the two ways. -/
theorem handle_handling (plane : DataPlane σ) (codec : IngressCodec) (d : Option Dispatcher)
    (incoming : Incoming) (world : σ) :
    Handling plane codec d incoming world (handle plane codec d incoming world) := by
  rw [handle]
  cases hplane : plane.authenticate with
  | none => exact handleRoute_handling (by rw [Authenticated, hplane]; exact ⟨rfl, rfl⟩)
  | some authenticate =>
    simp only
    cases htoken : bearerToken incoming.header with
    | none => exact refused_handling world _
    | some key =>
      simp only
      rcases hanswer : authenticate key world with ⟨answer, world'⟩
      cases answer with
      | accepted rec =>
        refine handleRoute_handling ?_
        rw [Authenticated, hplane]
        exact ⟨key, rec, htoken, hanswer, rfl⟩
      | invalidKey => exact refused_handling world' _
      | keyExpired => exact refused_handling world' _
      | failed => exact refused_handling world' _

variable (plane codec incoming rec world')

theorem answeredTo_sound (req : Decoded) (d' : Dispatcher) :
    (answeredTo plane codec incoming (.of rec) req d' world').Sound d'
    (callOf plane codec incoming (.of rec) req)
      incoming (accOf plane codec incoming req) :=
  serveAccounted_sound plane d' _ incoming rfl rfl world'

/-- A request that is let through is served by `serveChat`. -/
theorem answeredTo_served (req : Decoded) (d' : Dispatcher) :
    (answeredTo plane codec incoming (.of rec) req d' world').served =
      serveChat plane.gateway d' plane.chain (callOf plane codec incoming (.of rec) req) world' :=
  serveAccounted_served rfl _ world'

/-- What a request that is let through is settled with. -/
theorem answeredTo_settled (req : Decoded) (d' : Dispatcher)
    {f : Settlement × Except StoreError Unit}
    (hf : f ∈ (answeredTo plane codec incoming (.of rec) req d' world').served.session.finishes) :
    let served := (answeredTo plane codec incoming (.of rec) req d' world').served
    f.1 = (BillingPlugin.classify .sample served.session.pc).2 ∧
      ∃ snapshot, Classified plane.gateway.json d'
      (callOf plane codec incoming (.of rec) req) snapshot
        served.attempts f.1 := by
  simp only [answeredTo_served] at hf ⊢
  exact settled_of_finish hf .sample

/-- What a request that is let through is settled with, and what its record says of it. -/
theorem answeredTo_agrees (req : Decoded) (d' : Dispatcher)
    {f : Settlement × Except StoreError Unit}
    (hf : f ∈ (answeredTo plane codec incoming (.of rec) req d' world').served.session.finishes)
    {log : RequestLog}
    (hlog : log ∈ ((answeredTo plane codec incoming (.of rec) req d' world').handled
    (.of rec)).recorded) :
    (f.1.usage.isSome ↔ f.1.outcome = .known) ∧ (∀ u ∈ f.1.usage, log.Agrees u) ∧
      (f.1.outcome = .released → log.Unused) := by
  have hsound := answeredTo_sound plane codec incoming rec world' req d'
  obtain ⟨hdecided, -⟩ := answeredTo_settled plane codec incoming rec world' req d' hf
  generalize answeredTo plane codec incoming (.of rec) req d' world' = a at hsound hdecided hlog
  cases hlog
  rw [hdecided]
  refine ⟨usage_isSome_iff _ _, fun u hu ↦ ?_, fun hreleased ↦ ?_⟩
  · obtain ⟨usage, actual, pricing, husage, rfl⟩ := usage_of_classify hu
    exact hsound.noted.agrees _ (congrArg TelemetryAcc.modelRequested hsound.start)
      (congrArg TelemetryAcc.requestID hsound.start) (congrArg TelemetryAcc.sessionID hsound.start)
      (congrArg TelemetryAcc.traceID hsound.start) husage actual pricing
  · obtain ⟨-, hnone⟩ :=
      (BillingPlugin.classify_decided Dynamic.sample a.served.session.pc).released.mp hreleased
    exact unused_of_usage (hsound.noted.usage.symm.trans hnone) _ _

/-- **The recorder, the bill and the client are told the same.**  A request of which no record is
handed over called no upstream and settled nothing.  A record names the error that the client was
given, and the key that the client presented; a charge that is known has a usage row, which says
what the record says, and a reservation is released only if the record reports no usage. -/
theorem audit_agrees (plane : DataPlane σ) (codec : IngressCodec) (d : Option Dispatcher)
    (incoming : Incoming) (world : σ) :
    let h := handle plane codec d incoming world
    (h.recorded = none → h.attempts = [] ∧ h.finishes = []) ∧
      ∀ log ∈ h.recorded,
        log.errorType = h.answer.errType incoming ∧
        (∃ rec world', Authenticated plane incoming world rec world' ∧ log.identity = .of rec) ∧
        ∀ f ∈ h.finishes,
          (f.1.usage.isSome ↔ f.1.outcome = .known) ∧ (∀ u ∈ f.1.usage, log.Agrees u) ∧
            (f.1.outcome = .released → log.Unused) := by
  have hhandling := handle_handling plane codec d incoming world
  generalize handle plane codec d incoming world = h at hhandling
  cases hhandling with
  | refused world' log answer hlog =>
    refine ⟨fun _ ↦ ⟨rfl, rfl⟩, fun r hr ↦ ?_⟩
    obtain ⟨herr, -, rec, hauth, hidentity⟩ := hlog r hr
    exact ⟨herr, ⟨rec, world', hauth, hidentity⟩, List.forall_mem_nil _⟩
  | @served rec req d' world' hadmitted =>
    have hsound := answeredTo_sound plane codec incoming rec world' req d'
    refine ⟨nofun, fun log hlog ↦ ⟨?_, ⟨rec, world', hadmitted.authenticated, ?_⟩, fun f hf ↦ ?_⟩⟩
    · cases hlog
      exact hsound.errType
    · cases hlog
      exact congrArg Origin.identity hsound.noted.origin
    · exact answeredTo_agrees plane codec incoming rec world' req d' hf hlog

/-- **Who is refused does not pay.**  When the client is answered with a 4xx, no upstream was
called, and all that the store is asked for is to release.  And when a charge is known, the client
was given the answer that it paid for, or the codec did not take it. -/
theorem refused_unpaid (plane : DataPlane σ) (codec : IngressCodec) (d : Option Dispatcher)
    (incoming : Incoming) (world : σ) :
    let h := handle plane codec d incoming world
    (400 ≤ h.answer.status → h.answer.status < 500 →
      h.attempts = [] ∧ ∀ f ∈ h.finishes, f.1.outcome = .released) ∧
      ∀ f ∈ h.finishes, f.1.outcome = .known → h.answer.status = 200 ∨ h.answer = encodeError := by
  have hhandling := handle_handling plane codec d incoming world
  generalize handle plane codec d incoming world = h at hhandling
  cases hhandling with
  | refused world' log answer hlog =>
    exact ⟨fun _ _ ↦ ⟨rfl, List.forall_mem_nil _⟩, List.forall_mem_nil _⟩
  | @served rec req d' world' hadmitted =>
    have hsound := answeredTo_sound plane codec incoming rec world' req d'
    refine ⟨fun hge hlt ↦ ?_, fun f hf hknown ↦ hsound.answered ?_⟩
    · -- no attempt can have been charged, since there is none
      have hnone := hsound.refused hge hlt
      refine ⟨hnone, fun f hf ↦ ?_⟩
      obtain ⟨-, snapshot, hclassified⟩ :=
        answeredTo_settled plane codec incoming rec world' req d' hf
      rw [hnone] at hclassified
      exact hclassified.released.mpr ⟨List.forall_mem_nil _, rfl⟩
    · obtain ⟨hdecided, -⟩ := answeredTo_settled plane codec incoming rec world' req d' hf
      rw [hdecided] at hknown
      have hcharge := ((BillingPlugin.classify_decided _ _).known _).mp ⟨hknown, rfl⟩
      rw [← hsound.noted.usage]
      exact hcharge.2.usage_ne_none

/-- A key that may not use a model. -/
example : (handle .sample .sample (some (.sample .sample)) (.sample [107] [110]) 0).answer =
    .error 403 "model_not_permitted" "errors.proxy.modelNotPermitted: model n" := by decide

/-- **Only admitted requests reach an upstream or the accounting store.**  When an upstream was
called or the store was asked to settle, then the key was accepted, the route is switched on, the
key may use the model and the model takes what it is sent.  Every call was then made to a provider
of the route of that very model, with what this provider serves under its name, and what is left is
what `serveChat` leaves. -/
theorem calls_admitted (plane : DataPlane σ) (codec : IngressCodec) (d : Option Dispatcher)
    (incoming : Incoming) (world : σ)
    (h : (handle plane codec d incoming world).attempts ≠ [] ∨
      (handle plane codec d incoming world).finishes ≠ []) :
    ∃ rec req d' world', Admitted plane codec d incoming world rec req d' world' ∧
      (∀ a ∈ (handle plane codec d incoming world).attempts, CallFor d' req.request a) ∧
      let s :=
        serveChat plane.gateway d' plane.chain (callOf plane codec incoming (.of rec) req) world'
      (handle plane codec d incoming world).attempts = s.attempts ∧
        (handle plane codec d incoming world).finishes = s.session.finishes ∧
        (handle plane codec d incoming world).dispatcher = some s.dispatcher ∧
        (handle plane codec d incoming world).world = s.session.world := by
  have hhandling := handle_handling plane codec d incoming world
  generalize handle plane codec d incoming world = handled at hhandling h
  cases hhandling with
  | refused world' log answer hlog =>
    rcases h with h | h
    · exact absurd rfl h
    · exact absurd rfl h
  | @served rec req d' world' hadmitted =>
    have hsound := answeredTo_sound plane codec incoming rec world' req d'
    refine ⟨rec, req, d', world', hadmitted, hsound.calls, ?_⟩
    rw [← answeredTo_served]
    exact ⟨rfl, rfl, rfl, rfl⟩

/-- A key that may. -/
theorem calls_admitted_sample : ∃ rec req d' world',
    Admitted .sample .sample (some (.sample .sample)) (.sample [107] [109]) 0 rec req d' world' ∧
      ∀ a ∈ (handle .sample .sample (some (.sample .sample)) (.sample [107] [109]) 0).attempts,
        CallFor d' req.request a := by
  obtain ⟨rec, req, d', world', hadmitted, hcalls, -⟩ :=
    calls_admitted .sample .sample (some (.sample .sample)) (.sample [107] [109]) 0
    (.inl (by decide))
  exact ⟨rec, req, d', world', hadmitted, hcalls⟩

end Handled

end Voxeltoad
