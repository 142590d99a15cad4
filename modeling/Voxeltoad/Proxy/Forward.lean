import Voxeltoad.Adapter.Stream

/-!
# One upstream attempt

`internal/proxy/forward.go`: a `Forwarder` sends a request to one endpoint and classifies what comes
back.  An `Exchange` is what the network and the upstream did with the request.  `forward` and
`forwardStream` are the two ways of reading it; they differ in when they look at the status, since
the non-streaming one reads the body first.
-/

set_option autoImplicit false

namespace Voxeltoad

/-- What happened to a request that was handed to a forwarder. -/
inductive Exchange where
  /-- The upstream request could not be built; nothing was sent. -/
  | buildFailed
  /-- The client could not send it, or received no response. -/
  | transportFailed (timeout : Bool)
  | answered (status : Nat) (body : Body)
  deriving DecidableEq, Repr

/-! ## Errors -/

/-- `errKind`. -/
inductive ErrKind where
  | errBuild
  | errUpstream4xx
  | errUpstream5xx
  | errTimeout
  deriving DecidableEq, Repr

/-- `upstreamError`.  The body is there when the upstream answered with an error status. -/
structure UpstreamError where
  kind : ErrKind
  body : Option Bytes
  deriving DecidableEq, Repr

/-- `Retryable`: timeouts and upstream 5xx are, build errors and upstream 4xx are not. -/
def UpstreamError.retryable (e : UpstreamError) : Bool :=
  match e.kind with
  | .errTimeout => true
  | .errUpstream5xx => true
  | _ => false

/-- `classifyTransportErr`. -/
def classifyTransportErr (timeout : Bool) : ErrKind :=
  if timeout then .errTimeout else .errUpstream5xx

/-- `classifyUpstreamStatus`. -/
def classifyUpstreamStatus (status : Nat) : ErrKind :=
  if 500 ≤ status then .errUpstream5xx else .errUpstream4xx

/-! ## Forwarders -/

/-- `Forwarder`. -/
structure Forwarder where
  adapter : AdapterKind
  deriving DecidableEq, Repr

namespace Forwarder

/-- **`Forward`.** -/
def forward (json : Json) (f : Forwarder) : Exchange → Except UpstreamError UnifiedResponse
  | .buildFailed => .error ⟨.errBuild, none⟩
  | .transportFailed timeout => .error ⟨classifyTransportErr timeout, none⟩
  | .answered status body =>
    match body.ending with
    | .failed timeout => .error ⟨classifyTransportErr timeout, none⟩
    | .eof =>
      if 400 ≤ status then .error ⟨classifyUpstreamStatus status, some body.bytes⟩
      else match json.response f.adapter body.bytes with
        -- A body that cannot be parsed is a provider protocol fault.
        | none => .error ⟨.errUpstream5xx, none⟩
        | some resp => .ok resp

/-- **`ForwardStream`**: the stream is open once the status has been checked. -/
def forwardStream (f : Forwarder) : Exchange → Except UpstreamError StreamReader
  | .buildFailed => .error ⟨.errBuild, none⟩
  | .transportFailed timeout => .error ⟨classifyTransportErr timeout, none⟩
  | .answered status body =>
    if 400 ≤ status then .error ⟨classifyUpstreamStatus status, some body.bytes⟩
    else .ok (parseStream f.adapter body)

end Forwarder

/-! ## What may have been charged -/

/-- An explicit rejection, or a request that could not be built: the test of
`accountUpstreamResult`. -/
def UpstreamError.definite (e : UpstreamError) : Bool :=
  e.kind = .errBuild ∨ (e.kind = .errUpstream4xx ∧ e.body ≠ none)

/-- **What the test is for.**  An exchange may have been charged unless nothing was sent, or the
upstream refused the request with a 4xx.  A non-streaming attempt has been refused only once the
whole answer is there. -/
def Exchange.mayCharge (stream : Bool) : Exchange → Bool
  | .buildFailed => false
  | .transportFailed _ => true
  | .answered status body =>
    ¬ (400 ≤ status ∧ status < 500 ∧ (stream ∨ body.ending = .eof))

/-- A way of reading exchanges whose definite errors are the exchanges that cannot have been
charged. -/
def Faithful {α : Type} (stream : Bool) (send : Forwarder → Exchange → Except UpstreamError α) :
    Prop :=
  ∀ f x, x.mayCharge stream = false ↔ ∃ e, send f x = .error e ∧ e.definite = true

theorem definite_of_transport (timeout : Bool) :
    (⟨classifyTransportErr timeout, none⟩ : UpstreamError).definite = false := by
  cases timeout <;> rfl

theorem definite_of_status {status : Nat} (body : Bytes) :
    (⟨classifyUpstreamStatus status, some body⟩ : UpstreamError).definite = true ↔
      status < 500 := by
  simp only [UpstreamError.definite, classifyUpstreamStatus]
  split <;> simp <;> omega

theorem forward_faithful (json : Json) : Faithful false (Forwarder.forward json) := by
  intro f x
  rcases x with _ | timeout | ⟨status, ⟨bytes, _ | timeout⟩⟩
  · exact ⟨fun _ ↦ ⟨_, rfl, rfl⟩, fun _ ↦ rfl⟩
  · simp [Exchange.mayCharge, Forwarder.forward, definite_of_transport]
  · by_cases hs : 400 ≤ status
    · simp [Exchange.mayCharge, Forwarder.forward, hs, definite_of_status]
    · simp only [Exchange.mayCharge, Forwarder.forward, hs]
      cases json.response f.adapter bytes <;> simp [UpstreamError.definite]
  · simp [Exchange.mayCharge, Forwarder.forward, definite_of_transport]

theorem forwardStream_faithful : Faithful true Forwarder.forwardStream := by
  intro f x
  rcases x with _ | timeout | ⟨status, body⟩
  · exact ⟨fun _ ↦ ⟨_, rfl, rfl⟩, fun _ ↦ rfl⟩
  · simp [Exchange.mayCharge, Forwarder.forwardStream, definite_of_transport]
  · by_cases hs : 400 ≤ status
    · simp [Exchange.mayCharge, Forwarder.forwardStream, hs, definite_of_status]
    · simp [Exchange.mayCharge, Forwarder.forwardStream, hs]

end Voxeltoad
