import Voxeltoad.Adapter.Message
import Voxeltoad.Admin.Response
import Voxeltoad.Auth.Authenticator
import Voxeltoad.Config.Schema
import Voxeltoad.Proxy.Classification
import Voxeltoad.Proxy.SessionKey

/-!
# The handler of the data plane

A request as `Router` of `internal/proxy/router.go` handles it, from its headers to the answer of
the client and the record that its recorder is handed: `authMiddleware`, the switch of
`messagesHandler`, the checks at the head of `serveChat`, and then the life of the request that
`Voxeltoad.Proxy.Request` has, with what `telemetryAcc` keeps of it on the way.  What becomes of the
record is not followed: `RequestLogRepo.Record` inserts it with a statement of 31 columns and 30
placeholders, which no database takes.

The codec decodes and encodes; `Incoming` says whether the encoding succeeds.  Where an answer is an
error, it is what `EncodeError` is given, before the envelope of the protocol is put around it, and
before the Anthropic codec puts a type of its own in place of the error's.  The record has no
durations, no `upstream_request_id` and no `blocked_by`, and spans, metrics and trace payloads are
not modelled here.

`serveAccounted` repeats the branches of `serveChat` to say what each one answers and notes down,
and `serveAccounted_served` is that it leaves the same behind.
-/

set_option autoImplicit false

namespace Voxeltoad

open Admin (AppErr)
open Unmarshal

/-! ## What comes in -/

/-- What a decoder makes of a body: what routing and billing read of it, and its messages. -/
structure Decoded where
  request : UnifiedRequest
  messages : List Message
  deriving Repr

/-- `ingress.Codec`, as far as requests go. -/
structure IngressCodec where
  protocol : String
  decodeRequest : Bytes → Except String Decoded

/-- A request on one of the two routes, and how its connection behaves.  `requestID` is the one the
gateway made up. -/
structure Incoming where
  header : Header
  /-- What `io.ReadAll` returns. -/
  body : Except String Bytes
  /-- What `json.Unmarshal` finds of the affinity fields, errors or not. -/
  affinity : BodyIdentity
  requestID : String
  clientRequestID : String
  traceID : String
  agentType : String
  userAgent : String
  /-- The response writer can flush. -/
  flusher : Bool
  /-- `EncodeResponse` takes what the upstream returned. -/
  encodesResponse : Bool
  /-- `EncodeChunk` takes a chunk, after those before it. -/
  encodesChunk : List Chunk → Chunk → Bool
  /-- The encoded chunk reaches the client. -/
  writes : List Chunk → Chunk → Bool

/-- The bytes of `Bearer `, without their case. -/
def bearerPrefix : Bytes := utf8 "bearer "

/-- `strings.EqualFold` with `Bearer `: no letter of it folds to anything outside ASCII. -/
def isBearer (b : Bytes) : Bool :=
  b.map (fun c ↦ if 65 ≤ c ∧ c ≤ 90 then c + 32 else c) = bearerPrefix

/-- The token of an `Authorization` header. -/
def authorizationToken (h : Bytes) : Option Bytes :=
  if 7 < h.length ∧ isBearer (h.take 7) then
    if trimSpace (h.drop 7) = [] then none else some (trimSpace (h.drop 7))
  else none

/-- **`bearerToken`**: the `Authorization` header, or else `x-api-key`. -/
def bearerToken (h : Header) : Option Bytes :=
  (authorizationToken (h.get "Authorization")).or
    (if trimSpace (h.get "x-api-key") = [] then none else some (trimSpace (h.get "x-api-key")))

/-- `modelAllowed`: no list is no restriction. -/
def modelAllowed (rec : Auth.KeyRecord) (model : String) : Bool :=
  rec.allowedModels = [] || rec.allowedModels.contains model

/-- The parts of a content, as far as `HasImageURL` reads them. -/
def readPartType : Reader String :=
  record fun type ms ↦ field string type ["type"] "type" ms

/-- `HasImageURL`. -/
def Content.hasImageURL (c : Content) : Bool :=
  match c.raw with
  | some (.arr parts) => ((items readPartType "" [] parts).getD []).contains "image_url"
  | _ => false

/-- `reqHasImage`. -/
def reqHasImage (req : Decoded) : Bool := req.messages.any fun m ↦ m.content.hasImageURL

/-! ## What comes out -/

/-- `observability.RequestLog`: what the recorder of requests is handed. -/
structure RequestLog where
  applicationID : Option Int
  environment : String
  tenant : String
  group : String
  apiKeyID : String
  provider : String
  modelRequested : String
  modelResolved : String
  stream : Bool
  promptTokens : Int
  completionTokens : Int
  totalTokens : Int
  errorType : String
  fallback : Bool
  cacheHit : Bool
  cachedPromptTokens : Int
  cacheTier : String
  cacheSource : String
  requestID : String
  clientRequestID : String
  sessionID : String
  traceID : String
  sessionSource : String
  agentType : String
  userAgent : String
  ingressProtocol : String
  providerEndpoint : String
  deriving DecidableEq, Repr

/-- What the client is sent. -/
inductive ClientAnswer where
  /-- `writeCodecErr`. -/
  | error (status : Nat) (errType message : String)
  /-- `http.Error(w, "not implemented", 501)`. -/
  | notImplemented
  /-- The encoded response. -/
  | completion (resp : UnifiedResponse)
  /-- The chunks that were taken, the last of which may not have reached the client, and the
  terminator. -/
  | stream (relayed : List Chunk)
  deriving DecidableEq, Repr

/-- The status line. -/
def ClientAnswer.status : ClientAnswer → Nat
  | .error status _ _ => status
  | .notImplemented => 501
  | .completion _ => 200
  | .stream _ => 200

/-- `writeAppErrCodec`. -/
def writeAppErr (e : AppErr) (ctx : String) : ClientAnswer :=
  .error e.status e.code (if ctx = "" then e.i18n else e.i18n ++ ": " ++ ctx)

/-- The `upstreamError` that `errors.As` finds. -/
def DispatchError.upstreamError : DispatchError → Option UpstreamError
  | .upstream e => some e
  | .mismatch last => last.upstreamError
  | .allFailed last => last.upstreamError
  | _ => none

/-- **`mapForwardError`.** -/
def mapForwardError (e : DispatchError) : Nat × String :=
  match e.upstreamError.map UpstreamError.kind with
  | some .errTimeout => (504, "timeout_error")
  | some .errBuild => (500, "api_error")
  | _ => (502, "upstream_error")

/-- `rejectStatus`. -/
def rejectStatus (pc : PluginContext) : Nat × String :=
  if pc.rejectStatus = 402 then (402, "insufficient_quota")
  else if pc.rejectStatus = 503 then (503, "api_error")
  else (429, "rate_limit_error")

/-! ## Telemetry -/

/-- `telemetryAcc`. -/
structure TelemetryAcc where
  modelRequested : String
  stream : Bool
  provider : String
  providerEndpoint : String
  modelResolved : String
  fallback : Bool
  usage : Option Usage
  errType : String
  requestID : String
  clientRequestID : String
  sessionID : String
  traceID : String
  sessionSource : String
  agentType : String
  userAgent : String
  ingressProtocol : String
  deriving DecidableEq, Repr

namespace TelemetryAcc

/-- `newTelemetryAcc`, with the agent of the request. -/
def new (incoming : Incoming) (sessionID : String) : TelemetryAcc where
  modelRequested := ""
  stream := false
  provider := ""
  providerEndpoint := ""
  modelResolved := ""
  fallback := false
  usage := none
  errType := ""
  requestID := incoming.requestID
  clientRequestID := incoming.clientRequestID
  sessionID := sessionID
  traceID := incoming.traceID
  sessionSource := ""
  agentType := incoming.agentType
  userAgent := incoming.userAgent
  ingressProtocol := ""

variable (a : TelemetryAcc)

/-- `setResult`. -/
def setResult (dr : DispatchResult) (usage : Option Usage) : TelemetryAcc :=
  { a with
    provider := dr.provider
    providerEndpoint := dr.endpoint
    modelResolved := dr.modelResolved
    fallback := dr.fallback
    usage := usage }

/-- An exit with an error. -/
def failed (errType : String) : TelemetryAcc := { a with errType := errType }

/-- Whether the upstream served some of the prompt from its cache. -/
def cacheHit : Bool := a.usage.any fun u ↦ 0 < u.cachedPromptTokens

/-- **`emit`**, as far as the recorder goes: who the request came from is what the plugin context
says, if there is one. -/
def emit (identity : Identity) (pc : Option PluginContext) : RequestLog where
  applicationID := pc.elim identity.applicationID PluginContext.applicationID
  environment := pc.elim identity.environment PluginContext.environment
  tenant := pc.elim identity.tenant PluginContext.tenant
  group := pc.elim identity.group PluginContext.group
  apiKeyID := pc.elim identity.apiKeyID PluginContext.apiKeyID
  provider := a.provider
  modelRequested := a.modelRequested
  modelResolved := a.modelResolved
  stream := a.stream
  promptTokens := a.usage.elim 0 Usage.promptTokens
  completionTokens := a.usage.elim 0 Usage.completionTokens
  totalTokens := a.usage.elim 0 Usage.totalTokens
  errorType := a.errType
  fallback := a.fallback
  cacheHit := a.cacheHit
  cachedPromptTokens := a.usage.elim 0 Usage.cachedPromptTokens
  cacheTier := if a.cacheHit then "upstream" else ""
  cacheSource := if a.cacheHit then a.provider else ""
  requestID := a.requestID
  clientRequestID := a.clientRequestID
  sessionID := a.sessionID
  traceID := a.traceID
  sessionSource := a.sessionSource
  agentType := a.agentType
  userAgent := a.userAgent
  ingressProtocol := a.ingressProtocol
  providerEndpoint := a.providerEndpoint

end TelemetryAcc

/-! ## Relaying -/

/-- What the loop of `streamChatCompletions` keeps, with the error type it notes down. -/
structure Relaying where
  relay : Relay
  errType : String
  deriving DecidableEq, Repr

/-- A chunk reaches the client when it is encoded and written. -/
def Incoming.delivers (incoming : Incoming) (prev : List Chunk) (c : Chunk) : Bool :=
  incoming.encodesChunk prev c && incoming.writes prev c

/-- **The loop of `streamChatCompletions`**, with what becomes of a chunk taken apart. -/
def relayNoted (json : Json) (incoming : Incoming) (r : StreamReader) (s : Relaying) : Relaying :=
  match h : r.recv json with
  | (.error .eof, _) => s
  | (.error .failed, _) =>
      { s with relay := { s.relay with pc := { s.relay.pc with billingUncertain := true } } }
  | (.ok chunk, r') =>
    let relayed : Relay :=
      ⟨s.relay.pc, chunk.usage.or s.relay.lastUsage, s.relay.relayed ++ [chunk]⟩
    if incoming.encodesChunk s.relay.relayed chunk then
      -- A client that went away is no error.
      if incoming.writes s.relay.relayed chunk then
        have : r'.dec.size < r.dec.size := StreamReader.size_recv_lt h
        relayNoted json incoming r' ⟨relayed, s.errType⟩
      else ⟨relayed, s.errType⟩
    else ⟨relayed, "api_error"⟩
termination_by r.dec.size

/-! ## Serving -/

/-- What a request that was let through comes to. -/
structure Answered (σ : Type) where
  served : Served σ
  acc : TelemetryAcc
  answer : ClientAnswer

/-- The data plane, as `Router` is given it. -/
structure DataPlane (σ : Type) where
  gateway : Gateway σ
  chain : Chain
  /-- `Authenticate`; `none` leaves the routes open. -/
  authenticate : Option (Bytes → σ → Auth.Answer × σ)
  /-- `Ingress.AnthropicDisabled` of the settings in force. -/
  anthropicDisabled : σ → Bool
  /-- The models of the configuration the dispatcher was built from, with their capabilities. -/
  catalog : List Config.Model
  extractor : SessionKeyExtractor
  sha256 : Bytes → Vector UInt8 32
  /-- The text of an error of the dispatcher. -/
  errorText : DispatchError → String
  /-- The text of the error of the plugin that failed. -/
  pluginError : String

section Serve

variable {σ : Type} (plane : DataPlane σ) (d : Dispatcher) (call : Call) (incoming : Incoming)

/-- `streamChatCompletions`, and what it answers. -/
def streamAnswered (acc : TelemetryAcc) (s : Session σ) : Answered σ :=
  if call.flusher = false then
    ⟨⟨s, d, []⟩, acc.failed AppErr.streamingUnsupported.code, writeAppErr .streamingUnsupported ""⟩
  else
    let g := plane.gateway
    let r := d.forwardStream g.billing.accounting g.net call.request.model call.sessionKey
      call.protocol call.request s
    match r.outcome with
    | .error e =>
      let (status, errType) := mapForwardError e
      ⟨⟨r.session, r.dispatcher, r.attempts⟩, (acc.failed errType).setResult r.result none,
        .error status errType (plane.errorText e)⟩
    | .ok sr =>
      let t := relayNoted g.json incoming sr ⟨⟨r.session.pc, none, []⟩, acc.errType⟩
      let s := plane.chain.runPost g.billing { r.session with pc := t.relay.pc }
        ⟨call.request.model, t.relay.lastUsage⟩ r.result
      ⟨⟨s, r.dispatcher, r.attempts⟩, (acc.failed t.errType).setResult r.result t.relay.lastUsage,
        .stream t.relay.relayed⟩

/-- The part of `serveChat` that is not streaming, and what it answers. -/
def chatAnswered (acc : TelemetryAcc) (s : Session σ) : Answered σ :=
  let g := plane.gateway
  let r := d.forward g.json g.billing.accounting g.net call.request.model call.sessionKey
    call.protocol call.request s
  match r.outcome with
  | .error e =>
    let (status, errType) := mapForwardError e
    ⟨⟨plane.chain.runPost g.billing r.session ⟨call.request.model, none⟩ r.result,
      r.dispatcher, r.attempts⟩, (acc.failed errType).setResult r.result none,
      .error status errType (plane.errorText e)⟩
  | .ok resp =>
    let served : Served σ :=
      ⟨plane.chain.runPost g.billing r.session resp r.result, r.dispatcher, r.attempts⟩
    let acc := acc.setResult r.result resp.usage
    if incoming.encodesResponse then ⟨served, acc, .completion resp⟩
    else ⟨served, acc.failed "api_error", .error 500 "api_error" "failed to encode response"⟩

/-- What `serveChat` does once Pre has run, and what it answers. -/
def answeredAfterPre (acc : TelemetryAcc) : Verdict → Session σ → Answered σ
  | .pass, s =>
    if call.request.stream then streamAnswered plane d call incoming acc s
    else chatAnswered plane d call incoming acc s
  | .fail, s =>
    ⟨⟨s, d, []⟩, acc.failed AppErr.unexpected.code, writeAppErr .unexpected plane.pluginError⟩
  | .stop, s =>
    let (status, errType) := rejectStatus s.pc
    ⟨⟨s, d, []⟩, acc.failed errType,
      .error status errType ("request blocked by " ++ s.pc.blockedBy)⟩

/-- **`serveChat`** from the prices on, with its answer. -/
def serveAccounted (acc : TelemetryAcc) (world : σ) : Answered σ :=
  let pc := pricedContext d call
  if pc.pricingSnapshot.any (fun snapshot ↦ snapshot.models = []) then
    ⟨⟨⟨pc, world, []⟩, d, []⟩, acc.failed "api_error",
      .error 502 "api_error" "model is not configured"⟩
  else
    let (verdict, pc, world) := plane.chain.runPre plane.gateway.billing pc world
    let answered := answeredAfterPre plane d call incoming acc verdict ⟨pc, world, []⟩
    { answered with
      served :=
        { answered.served with session := finalize plane.gateway answered.served.session } }

end Serve

/-! ## Handling a request -/

/-- `identityFrom`, where the middleware did not run: everything is empty. -/
def Identity.of : Option Auth.KeyRecord → Identity
  | none => ⟨"", "", "", none, ""⟩
  | some rec => ⟨rec.tenant, rec.group, rec.keyID, rec.applicationID, rec.environment⟩

/-- The text of a session key; it is ASCII. -/
def keyText (key : Bytes) : String := String.ofList (key.map fun b ↦ Char.ofNat b.toNat)

/-- The label of a source. -/
def SessionSource.label : SessionSource → String
  | .headerConfig => "header-config"
  | .headerGeneric => "header-generic"
  | .bodySession => "body-session"
  | .bodyMetadata => "body-metadata"
  | .bodyUser => "body-user"
  | .prefixHash => "prefix"

/-- **What a request leaves behind.**  `recorded` is what the recorder was handed. -/
structure Handled (σ : Type) where
  world : σ
  dispatcher : Option Dispatcher
  attempts : List Attempt
  finishes : List (Settlement × Except StoreError Unit)
  recorded : Option RequestLog
  answer : ClientAnswer

section Handle

variable {σ : Type} (plane : DataPlane σ) (codec : IngressCodec) (d : Option Dispatcher)
  (incoming : Incoming)

/-- An exit before there is a dispatcher to use. -/
def Handled.refused (d : Option Dispatcher) (world : σ) (recorded : Option RequestLog)
    (answer : ClientAnswer) : Handled σ :=
  ⟨world, d, [], [], recorded, answer⟩

/-- What a request leaves that was let through, with the record that the deferred `emit` hands
over. -/
def Answered.handled (identity : Identity) (a : Answered σ) : Handled σ where
  world := a.served.session.world
  dispatcher := some a.served.dispatcher
  attempts := a.served.attempts
  finishes := a.served.session.finishes
  recorded := some (a.acc.emit identity (some a.served.session.pc))
  answer := a.answer

/-- `SupportsVision`. -/
def supportsVision (d : Dispatcher) (modelAlias : String) : Bool :=
  d.preparer.isSome &&
    (plane.catalog.find? fun m ↦ m.modelAlias = modelAlias).any fun m ↦
    m.capabilities.contains "vision"

/-- The key of the session, and where it comes from. -/
def sessionOf (req : Decoded) : Option (Bytes × SessionSource) :=
  plane.extractor.key plane.sha256 incoming.header (some req.messages) incoming.affinity

/-- The call that a decoded request makes. -/
def callOf (identity : Identity) (req : Decoded) : Call where
  identity := identity
  requestID := incoming.requestID
  sessionID := (sessionOf plane incoming req).elim "" fun s ↦ keyText s.1
  traceID := incoming.traceID
  request := req.request
  sessionKey := (sessionOf plane incoming req).elim "" fun s ↦ keyText s.1
  protocol := codec.protocol
  flusher := incoming.flusher
  delivers := incoming.delivers

/-- The telemetry of a decoded request. -/
def accOf (req : Decoded) : TelemetryAcc :=
  { TelemetryAcc.new incoming ((sessionOf plane incoming req).elim "" fun s ↦ keyText s.1) with
    modelRequested := req.request.model
    stream := req.request.stream
    sessionSource := (sessionOf plane incoming req).elim "" fun s ↦ s.2.label
    ingressProtocol := codec.protocol }

/-- What a decoded request is answered with once it is let through. -/
def answeredTo (identity : Identity) (req : Decoded) (d : Dispatcher) (world : σ) : Answered σ :=
  serveAccounted plane d (callOf plane codec incoming identity req) incoming
  (accOf plane codec incoming req) world

/-- The exit of `serveChat` on a body that cannot be read or decoded. -/
def handleUndecoded (identity : Identity) (err : String) (world : σ) : Handled σ :=
  .refused d world
    (some (((TelemetryAcc.new incoming "").failed AppErr.invalidRequestBody.code).emit
      identity none))
    (writeAppErr .invalidRequestBody err)

/-- An exit of `serveChat` on a decoded request. -/
def handleRefused (identity : Identity) (req : Decoded) (errType : String)
    (answer : ClientAnswer) (world : σ) : Handled σ :=
  .refused d world
    (some (((accOf plane codec incoming req).failed errType).emit identity
      (some (newPluginContext (callOf plane codec incoming identity req)))))
    answer

/-- `serveChat` from the dispatcher on. -/
def handleDispatched (identity : Identity) (req : Decoded) (d : Dispatcher)
    (world : σ) : Handled σ :=
  if reqHasImage req ∧ supportsVision plane d req.request.model = false then
    handleRefused plane codec (some d) incoming identity req AppErr.unsupportedContent.code
      (writeAppErr .unsupportedContent
        ("model " ++ req.request.model ++ " does not support image input")) world
  else
    (answeredTo plane codec incoming identity req d world).handled identity

/-- `serveChat` on a decoded request. -/
def handleDecoded (rec : Option Auth.KeyRecord) (req : Decoded) (world : σ) : Handled σ :=
  if rec.any fun rec ↦ modelAllowed rec req.request.model = false then
    handleRefused plane codec d incoming (.of rec) req AppErr.modelNotPermitted.code
      (writeAppErr .modelNotPermitted ("model " ++ req.request.model)) world
  else
    match d with
    | none => handleRefused plane codec d incoming (.of rec) req "api_error" .notImplemented world
    | some d => handleDispatched plane codec incoming (.of rec) req d world

/-- `serveChat`, for a request whose key the middleware has looked up. -/
def handleChat (rec : Option Auth.KeyRecord) (world : σ) : Handled σ :=
  match incoming.body with
  | .error err => handleUndecoded d incoming (.of rec) err world
  | .ok body =>
    match codec.decodeRequest body with
    | .error err => handleUndecoded d incoming (.of rec) err world
    | .ok req => handleDecoded plane codec d incoming rec req world

/-- The two routes: `messagesHandler` looks at the switch first. -/
def handleRoute (rec : Option Auth.KeyRecord) (world : σ) : Handled σ :=
  if codec.protocol = "anthropic" ∧ plane.anthropicDisabled world then
    .refused d world none (.error 404 "not_found_error" "anthropic ingress disabled")
  else handleChat plane codec d incoming rec world

/-- **`Router`'s handler for a chat request**, behind `authMiddleware`. -/
def handle (world : σ) : Handled σ :=
  match plane.authenticate with
  | none => handleRoute plane codec d incoming none world
  | some authenticate =>
    match bearerToken incoming.header with
    | none =>
      .refused d world none
      (.error 401 "authentication_error" "missing or malformed Authorization header")
    | some key =>
      match authenticate key world with
      | (.accepted rec, world) => handleRoute plane codec d incoming (some rec) world
      | (.keyExpired, world) =>
          .refused d world none (.error 401 "authentication_error" "api key expired")
      | (_, world) => .refused d world none (.error 401 "authentication_error" "invalid api key")

end Handle

/-- A data plane that takes the key `k`, which may use the model `m` only. -/
def DataPlane.sample : DataPlane Nat where
  gateway := .sample
  chain := ⟨[], []⟩
  authenticate := some fun key n ↦
    (if key = [107] then .accepted ⟨"k", "t", "", "", none, ["m"], none, ""⟩ else .invalidKey, n)
  anthropicDisabled _ := true
  catalog := []
  extractor := ⟨[]⟩
  sha256 _ := Vector.replicate 32 0
  errorText _ := ""
  pluginError := ""

/-- A codec that reads a request for the model whose name is the body. -/
def IngressCodec.sample : IngressCodec where
  protocol := "openai"
  decodeRequest body := .ok ⟨⟨if body = [109] then "m" else "n", false, some 1000000⟩, []⟩

/-- A request for a model, with a key. -/
def Incoming.sample (key body : Bytes) : Incoming where
  header := ⟨[("X-Api-Key", [key])], List.nodup_singleton _,
    List.forall_mem_singleton.mpr (show "X-Api-Key".toList.all isTokenChar = true by decide)⟩
  body := .ok body
  affinity := ⟨[], [], []⟩
  requestID := "r"
  clientRequestID := ""
  traceID := ""
  agentType := ""
  userAgent := ""
  flusher := true
  encodesResponse := true
  encodesChunk _ _ := true
  writes _ _ := true

/-! ## The same request -/

section Same

variable {σ : Type} {plane : DataPlane σ} {d : Dispatcher} {call : Call} {incoming : Incoming}

theorem relayNoted_of_error {json : Json} {r r' : StreamReader} {e : ReadError}
    (h : r.recv json = (.error e, r')) (s : Relaying) : relayNoted json incoming r s =
      { s with relay :=
        { s.relay with
          pc := { s.relay.pc with
            billingUncertain := s.relay.pc.billingUncertain || e = .failed } } } := by
  rw [relayNoted]
  split
  case h_1 heq =>
    cases h.symm.trans heq
    simp
  case h_2 heq =>
    cases h.symm.trans heq
    simp
  case h_3 heq => cases h.symm.trans heq

theorem relayNoted_of_ok {json : Json} {r r' : StreamReader} {c : Chunk}
    (h : r.recv json = (.ok c, r')) (s : Relaying) : relayNoted json incoming r s =
      let relayed : Relay := ⟨s.relay.pc, c.usage.or s.relay.lastUsage, s.relay.relayed ++ [c]⟩
      if incoming.encodesChunk s.relay.relayed c then
        if incoming.writes s.relay.relayed c then relayNoted json incoming r' ⟨relayed, s.errType⟩
        else ⟨relayed, s.errType⟩
      else ⟨relayed, "api_error"⟩ := by
  rw [relayNoted]
  split
  case h_1 heq => cases h.symm.trans heq
  case h_2 heq => cases h.symm.trans heq
  case h_3 heq =>
    cases h.symm.trans heq
    rfl

/-- **The loop**, with and without what it notes down. -/
theorem relayNoted_relay (incoming : Incoming) (json : Json) (r : StreamReader) (s : Relaying) :
    (relayNoted json incoming r s).relay = relay json incoming.delivers r s.relay := by
  induction r using StreamReader.chunks.induct json generalizing s with
  | case1 r e r' hrecv => rw [relayNoted_of_error hrecv, relay_of_error hrecv]
  | case2 r c r' hrecv hlt ih =>
    rw [relayNoted_of_ok hrecv, relay_of_ok hrecv, Incoming.delivers]
    cases incoming.encodesChunk s.relay.relayed c with
    | false => rfl
    | true =>
      cases incoming.writes s.relay.relayed c with
      | false => rfl
      | true => exact ih _

theorem streamAnswered_served (hdelivers : call.delivers = incoming.delivers) (acc : TelemetryAcc)
    (s : Session σ) : (streamAnswered plane d call incoming acc s).served =
      streamChatCompletions plane.gateway d plane.chain call s := by
  simp only [streamAnswered, streamChatCompletions]
  split
  case isTrue => rfl
  case isFalse =>
    cases (d.forwardStream plane.gateway.billing.accounting plane.gateway.net call.request.model
      call.sessionKey call.protocol call.request s).outcome with
    | error e => rfl
    | ok sr => simp only [relayStream, relayNoted_relay, hdelivers]

theorem chatAnswered_served (acc : TelemetryAcc) (s : Session σ) :
    (chatAnswered plane d call incoming acc s).served =
      chatCompletions plane.gateway d plane.chain call s := by
  simp only [chatAnswered, chatCompletions]
  cases (d.forward plane.gateway.json plane.gateway.billing.accounting plane.gateway.net
    call.request.model call.sessionKey call.protocol call.request s).outcome with
  | error e => rfl
  | ok resp =>
    simp only
    split <;> rfl

/-- **The handler serves a request as `serveChat` does.** -/
theorem serveAccounted_served (hdelivers : call.delivers = incoming.delivers)
    (acc : TelemetryAcc) (world : σ) : (serveAccounted plane d call incoming acc world).served =
      serveChat plane.gateway d plane.chain call world := by
  simp only [serveAccounted, serveChat]
  split
  case isTrue => rfl
  case isFalse =>
    have hafter (verdict : Verdict) (s : Session σ) :
        (answeredAfterPre plane d call incoming acc verdict s).served =
          afterPre plane.gateway d plane.chain call verdict s := by
      cases verdict with
      | stop => rfl
      | fail => rfl
      | pass =>
        rw [answeredAfterPre, afterPre]
        split
        · exact streamAnswered_served hdelivers acc s
        · exact chatAnswered_served acc s
    simp only [hafter]

end Same

end Voxeltoad
