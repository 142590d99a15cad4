import Mathlib.Data.List.Infix
import Voxeltoad.Proxy.Dispatcher

/-!
# The two failover loops

The loops of `Forward` and `ForwardStream` in `internal/proxy/dispatcher.go`, one beside the other
as they stand there (`Failover.forward`, `Failover.forwardStream`).  What they deal with is a
parameter: the forwarders, the preparer, the accounting hook, the breaker, and the calls.  A call
answers with whatever it likes, and all of them may move the world on, so nothing is assumed of the
outcomes.

The two agree (`Failover.forwardStream_eq`).  What one candidate can do to a loop is said once
(`Failover.Visit`), and from it follows what a whole loop does (`Failover.forward_ran`): which
candidates are tried, what the breaker is told, and how the loop ends.  The loop that
`Dispatcher.lean` runs is the same one again (`Failover.tryCandidates_eq`).
-/

set_option autoImplicit false

namespace Voxeltoad

namespace Failover

/-! ## What is observed -/

/-- What the breaker is told. -/
inductive Mark where
  | success (key : EndpointKey)
  | failure (key : EndpointKey)
  deriving DecidableEq, Repr

inductive DispatchAction where
  | skipped
  | attempted
  deriving DecidableEq, Repr

inductive SkipReason where
  | noForwarder
  | prepareFailed
  deriving DecidableEq, Repr

inductive SelectionOutcome where
  | selected
  | retryableFailure
  | terminalFailure
  deriving DecidableEq, Repr

/-- `DispatchStepEvent`. -/
structure DispatchStepEvent where
  ordinal : Nat
  provider : String
  endpoint : String
  action : DispatchAction
  skipReason : Option SkipReason
  selectionOutcome : Option SelectionOutcome
  errorType : String
  upstreamRequestID : String
  durationMs : Nat
  deriving DecidableEq, Repr

/-- A candidate is skipped. -/
def DispatchStepEvent.skip (i : Nat) (key : EndpointKey) (reason : SkipReason) :
    DispatchStepEvent :=
  ⟨i, key.provider, key.endpoint, .skipped, some reason, none, "", "", 0⟩

/-- A candidate was attempted. -/
def DispatchStepEvent.attempt (i : Nat) (key : EndpointKey) (outcome : SelectionOutcome)
    (errorType upstreamID : String) (durationMs : Nat) : DispatchStepEvent :=
  ⟨i, key.provider, key.endpoint, .attempted, none, some outcome, errorType, upstreamID, durationMs⟩

/-- `errorClass`. -/
def errorClass (e : UpstreamError) : String :=
  match e.kind with
  | .errTimeout => "timeout"
  | .errUpstream4xx => "upstream_4xx"
  | .errUpstream5xx => "upstream_5xx"
  | .errBuild => "build_error"

/-! ## What a loop deals with -/

/-- What the dispatcher asks for while it tries the candidates of one request.  `σ` is the state of
everything that can change meanwhile, `φ` a forwarder. -/
structure Env (σ φ : Type) where
  forwarders : EndpointKey → Option φ
  prepare : EndpointKey → Except DispatchError UnifiedRequest
  beforeUpstream : σ → Except StoreError Unit × σ
  accountResult : Option UpstreamError → σ → σ
  markSuccess : EndpointKey → σ → σ
  markFailure : EndpointKey → σ → σ

/-- What comes back from a call. -/
structure Answer (σ α : Type) where
  outcome : Except UpstreamError α
  durationMs : Nat
  world : σ

/-- A method of a forwarder. -/
abbrev Call (σ φ α : Type) := EndpointKey → φ → UnifiedRequest → σ → Answer σ α

/-- A call that was made, with the id of the response. -/
structure Tried where
  index : Nat
  key : EndpointKey
  req : UnifiedRequest
  outcome : Except UpstreamError String
  durationMs : Nat

/-- `DispatchResult`, with the id of the response. -/
structure Result extends DispatchResult where
  upstreamRequestID : String
  deriving DecidableEq, Repr

/-- `DispatchResult{}`, with a retry count. -/
def Result.zero (retryCount : Nat) : Result := ⟨.zero retryCount, ""⟩

/-- The result of the attempt at position `i`. -/
def Result.of (i : Nat) (key : EndpointKey) (preq : UnifiedRequest) (upstreamID : String) :
    Result :=
  ⟨⟨key.provider, key.endpoint, preq.model, 0 < i, i⟩, upstreamID⟩

/-- What a loop carries, and a record of what it did. -/
structure State (σ : Type) where
  world : σ
  lastErr : Option DispatchError
  configMismatches : Nat
  tried : List Tried
  marks : List Mark
  steps : List DispatchStepEvent

section Loops

variable {σ φ α β : Type}

namespace State

def start (world : σ) : State σ := ⟨world, none, 0, [], [], []⟩

/-- `observeStep`. -/
def observeStep (s : State σ) (e : DispatchStepEvent) : State σ :=
  { s with steps := s.steps ++ [e] }

/-- A call came back: `accountUpstreamResult`. -/
def called (env : Env σ φ) (upstreamID : α → String) (i : Nat) (key : EndpointKey)
    (preq : UnifiedRequest) (answer : Answer σ α) (s : State σ) : State σ :=
  let err := match answer.outcome with
    | .ok _ => none
    | .error e => some e
  { s with
    world := env.accountResult err answer.world
    tried := s.tried ++ [⟨i, key, preq, answer.outcome.map upstreamID, answer.durationMs⟩] }

/-- `MarkSuccess`. -/
def markSuccess (env : Env σ φ) (key : EndpointKey) (s : State σ) : State σ :=
  { s with world := env.markSuccess key s.world, marks := s.marks ++ [.success key] }

/-- `MarkFailure`. -/
def markFailure (env : Env σ φ) (key : EndpointKey) (s : State σ) : State σ :=
  { s with world := env.markFailure key s.world, marks := s.marks ++ [.failure key] }

end State

/-! ## The loops -/

/-- **The loop of `Forward`.** -/
def forward (env : Env σ φ) (call : Call σ φ α) (upstreamRequestID : α → String) (total : Nat) :
    Nat → List EndpointKey → State σ → State σ × Result × Except DispatchError α
  | _, [], s => (s, .zero total, .error (failoverExhausted s.lastErr s.configMismatches total))
  | i, key :: keys, s =>
    match env.forwarders key with
    | none =>
      let s := { s with lastErr := some (.noForwarder key) }
      let s := s.observeStep (.skip i key .noForwarder)
      forward env call upstreamRequestID total (i + 1) keys s
    | some fwd =>
      match env.prepare key with
      | .error err =>
        let s := { s with lastErr := some err, configMismatches := s.configMismatches + 1 }
        let s := s.observeStep (.skip i key .prepareFailed)
        forward env call upstreamRequestID total (i + 1) keys s
      | .ok preq =>
        match env.beforeUpstream s.world with
        | (.error err, world) => ({ s with world := world }, .zero 0, .error (.refused err))
        | (.ok (), world) =>
          let answer := call key fwd preq world
          let s := s.called env upstreamRequestID i key preq answer
          match answer.outcome with
          | .ok resp =>
            let s := (s.markSuccess env key).observeStep
              (.attempt i key .selected "" (upstreamRequestID resp) answer.durationMs)
            (s, .of i key preq (upstreamRequestID resp), .ok resp)
          | .error err =>
            let s := { s with lastErr := some (.upstream err) }
            if err.retryable = false then
              let s := s.observeStep
                (.attempt i key .terminalFailure (errorClass err) "" answer.durationMs)
              (s, .of i key preq "", .error (.upstream err))
            else
              let s := (s.markFailure env key).observeStep
                (.attempt i key .retryableFailure (errorClass err) "" answer.durationMs)
              forward env call upstreamRequestID total (i + 1) keys s

/-- **The loop of `ForwardStream`**: a call that succeeds returns the stream and the id. -/
def forwardStream (env : Env σ φ) (call : Call σ φ (β × String)) (total : Nat) :
    Nat → List EndpointKey → State σ → State σ × Result × Except DispatchError (β × String)
  | _, [], s => (s, .zero total, .error (failoverExhausted s.lastErr s.configMismatches total))
  | i, key :: keys, s =>
    match env.forwarders key with
    | none =>
      let s := { s with lastErr := some (.noForwarder key) }
      let s := s.observeStep (.skip i key .noForwarder)
      forwardStream env call total (i + 1) keys s
    | some fwd =>
      match env.prepare key with
      | .error err =>
        let s := { s with lastErr := some err, configMismatches := s.configMismatches + 1 }
        let s := s.observeStep (.skip i key .prepareFailed)
        forwardStream env call total (i + 1) keys s
      | .ok preq =>
        match env.beforeUpstream s.world with
        | (.error err, world) => ({ s with world := world }, .zero 0, .error (.refused err))
        | (.ok (), world) =>
          let answer := call key fwd preq world
          let s := s.called env Prod.snd i key preq answer
          match answer.outcome with
          | .ok (sr, upstreamID) =>
            let s := (s.markSuccess env key).observeStep
              (.attempt i key .selected "" upstreamID answer.durationMs)
            (s, .of i key preq upstreamID, .ok (sr, upstreamID))
          | .error err =>
            let s := { s with lastErr := some (.upstream err) }
            if err.retryable = false then
              let s := s.observeStep
                (.attempt i key .terminalFailure (errorClass err) "" answer.durationMs)
              (s, .of i key preq "", .error (.upstream err))
            else
              let s := (s.markFailure env key).observeStep
                (.attempt i key .retryableFailure (errorClass err) "" answer.durationMs)
              forwardStream env call total (i + 1) keys s

/-- The two loops are the same. -/
theorem forwardStream_eq (env : Env σ φ) (call : Call σ φ (β × String)) (total i : Nat)
    (keys : List EndpointKey) (s : State σ) :
    forwardStream env call total i keys s = forward env call Prod.snd total i keys s := by
  induction keys generalizing i s with
  | nil => rfl
  | cons key keys ih =>
    simp only [forwardStream, forward, ih]
    split
    · rfl
    · split
      · rfl
      · split
        · rfl
        · split
          · rename_i answer
            simp only [answer]
          · rename_i answer
            simp only [answer]

/-! ## One candidate -/

/-- **The steps of a loop.**  What one candidate does to what the loop carries, and whether the loop
ends with it. -/
inductive Visit (env : Env σ φ) (call : Call σ φ α) (upstreamID : α → String) (i : Nat)
    (key : EndpointKey) (s : State σ) : State σ → Option (Result × Except DispatchError α) → Prop
  | noForwarder (hf : env.forwarders key = none) :
    Visit env call upstreamID i key s
      { s with
        lastErr := some (.noForwarder key)
        steps := s.steps ++ [.skip i key .noForwarder] } none
  | notPrepared {fwd : φ} {err : DispatchError} (hf : env.forwarders key = some fwd)
      (hp : env.prepare key = .error err) :
    Visit env call upstreamID i key s
      { s with
        lastErr := some err
        configMismatches := s.configMismatches + 1
        steps := s.steps ++ [.skip i key .prepareFailed] } none
  | refused {fwd : φ} {preq : UnifiedRequest} {err : StoreError} {world : σ}
      (hf : env.forwarders key = some fwd) (hp : env.prepare key = .ok preq)
      (hb : env.beforeUpstream s.world = (.error err, world)) :
    Visit env call upstreamID i key s { s with world := world }
    (some (.zero 0, .error (.refused err)))
  | won {fwd : φ} {preq : UnifiedRequest} {world : σ} {resp : α}
      (hf : env.forwarders key = some fwd) (hp : env.prepare key = .ok preq)
      (hb : env.beforeUpstream s.world = (.ok (), world))
      (hc : (call key fwd preq world).outcome = .ok resp) :
    Visit env call upstreamID i key s
      (((s.called env upstreamID i key preq (call key fwd preq world)).markSuccess env
        key).observeStep
        (.attempt i key .selected "" (upstreamID resp) (call key fwd preq world).durationMs))
      (some (.of i key preq (upstreamID resp), .ok resp))
  | failed {fwd : φ} {preq : UnifiedRequest} {world : σ} {err : UpstreamError}
      (hf : env.forwarders key = some fwd) (hp : env.prepare key = .ok preq)
      (hb : env.beforeUpstream s.world = (.ok (), world))
      (hc : (call key fwd preq world).outcome = .error err) (hr : err.retryable = false) :
    Visit env call upstreamID i key s
      (({ s.called env upstreamID i key preq (call key fwd preq world) with
        lastErr := some (.upstream err) }).observeStep
        (.attempt i key .terminalFailure (errorClass err) "" (call key fwd preq world).durationMs))
      (some (.of i key preq "", .error (.upstream err)))
  | retried {fwd : φ} {preq : UnifiedRequest} {world : σ} {err : UpstreamError}
      (hf : env.forwarders key = some fwd) (hp : env.prepare key = .ok preq)
      (hb : env.beforeUpstream s.world = (.ok (), world))
      (hc : (call key fwd preq world).outcome = .error err) (hr : err.retryable = true) :
    Visit env call upstreamID i key s
      ((({ s.called env upstreamID i key preq (call key fwd preq world) with
        lastErr := some (.upstream err) }).markFailure env key).observeStep
        (.attempt i key .retryableFailure (errorClass err) "" (call key fwd preq world).durationMs))
      none

section Visits

variable {env : Env σ φ} {call : Call σ φ α} {upstreamID : α → String} {total i : Nat}
  {key : EndpointKey} {keys : List EndpointKey} {s : State σ}

/-- The loop goes through the candidates. -/
theorem forward_cons (env : Env σ φ) (call : Call σ φ α) (upstreamID : α → String) (total i : Nat)
    (key : EndpointKey) (keys : List EndpointKey) (s : State σ) :
    ∃ s' ended, Visit env call upstreamID i key s s' ended ∧
      forward env call upstreamID total i (key :: keys) s =
        match ended with
        | some out => (s', out)
        | none => forward env call upstreamID total (i + 1) keys s' := by
  cases hf : env.forwarders key with
  | none => exact ⟨_, _, .noForwarder hf, by rw [forward, hf]; rfl⟩
  | some fwd =>
    cases hp : env.prepare key with
    | error err => exact ⟨_, _, .notPrepared hf hp, by rw [forward, hf, hp]; rfl⟩
    | ok preq =>
      rcases hb : env.beforeUpstream s.world with ⟨err | _, world⟩
      · exact ⟨_, _, .refused hf hp hb, by rw [forward, hf, hp, hb]⟩
      · cases hc : (call key fwd preq world).outcome with
        | ok resp =>
          refine ⟨_, _, .won hf hp hb hc, ?_⟩
          simp only [forward, hf, hp, hb, hc]
        | error err =>
          cases hr : err.retryable with
          | false =>
            refine ⟨_, _, .failed hf hp hb hc hr, ?_⟩
            simp only [forward, hf, hp, hb, hc, hr, if_true]
          | true =>
            refine ⟨_, _, .retried hf hp hb hc hr, ?_⟩
            simp only [forward, hf, hp, hb, hc, hr, Bool.true_eq_false, if_false]

end Visits

/-! ## What a loop does -/

/-- The candidates that are not skipped, from position `i` on: those with a forwarder that can be
prepared. -/
def candidates (env : Env σ φ) (i : Nat) (keys : List EndpointKey) :
    List (Nat × EndpointKey × UnifiedRequest) :=
  (keys.zipIdx i).filterMap fun (key, i) ↦
    match env.forwarders key, env.prepare key with
    | some _, .ok preq => some (i, key, preq)
    | _, _ => none

/-- A candidate that has a forwarder and fails at prepare. -/
def failedAtPrepare (env : Env σ φ) (key : EndpointKey) : Bool :=
  match env.forwarders key, env.prepare key with
  | some _, .error _ => true
  | _, _ => false

namespace Tried

def candidate (t : Tried) : Nat × EndpointKey × UnifiedRequest := (t.index, t.key, t.req)

/-- What the breaker is told about an attempt. -/
def mark (t : Tried) : Option Mark :=
  match t.outcome with
  | .ok _ => some (.success t.key)
  | .error err => if err.retryable then some (.failure t.key) else none

/-- What is observed of an attempt. -/
def step (t : Tried) : DispatchStepEvent :=
  match t.outcome with
  | .ok id => .attempt t.index t.key .selected "" id t.durationMs
  | .error err =>
    .attempt t.index t.key (if err.retryable then .retryableFailure else .terminalFailure)
      (errorClass err) "" t.durationMs

/-- The attempt failed, and another one may follow. -/
def Retryable (t : Tried) : Prop := ∃ err, t.outcome = .error err ∧ err.retryable = true

/-- The attempt was a call that the accounting hook had allowed. -/
def Made (env : Env σ φ) (call : Call σ φ α) (upstreamID : α → String) (t : Tried) : Prop :=
  ∃ fwd before world, env.forwarders t.key = some fwd ∧
    env.beforeUpstream before = (.ok (), world) ∧
    (call t.key fwd t.req world).outcome.map upstreamID = t.outcome

/-- The attempt that a call is. -/
def of (call : Call σ φ α) (upstreamID : α → String) (i : Nat) (key : EndpointKey) (fwd : φ)
    (preq : UnifiedRequest) (world : σ) : Tried :=
  ⟨i, key, preq, (call key fwd preq world).outcome.map upstreamID,
    (call key fwd preq world).durationMs⟩

section Outcomes

variable {t : Tried} {id : String} {err : UpstreamError}

@[simp] theorem action_step (t : Tried) : t.step.action = .attempted := by
  rw [step]
  split <;> rfl

theorem mark_won (h : t.outcome = .ok id) : t.mark = some (.success t.key) := by
  rw [mark, h]

theorem step_won (h : t.outcome = .ok id) :
    t.step = .attempt t.index t.key .selected "" id t.durationMs := by
  rw [step, h]

theorem mark_failed (h : t.outcome = .error err) (hr : err.retryable = false) : t.mark = none := by
  simp [mark, h, hr]

theorem step_failed (h : t.outcome = .error err) (hr : err.retryable = false) :
    t.step = .attempt t.index t.key .terminalFailure (errorClass err) "" t.durationMs := by
  simp [step, h, hr]

theorem mark_retried (h : t.outcome = .error err) (hr : err.retryable = true) :
    t.mark = some (.failure t.key) := by
  simp [mark, h, hr]

theorem step_retried (h : t.outcome = .error err) (hr : err.retryable = true) :
    t.step = .attempt t.index t.key .retryableFailure (errorClass err) "" t.durationMs := by
  simp [step, h, hr]

end Outcomes

section Calls

variable {env : Env σ φ} {call : Call σ φ α} {upstreamID : α → String} {i : Nat}
  {key : EndpointKey} {fwd : φ} {preq : UnifiedRequest} {before world : σ}

theorem made_of (hf : env.forwarders key = some fwd)
    (hb : env.beforeUpstream before = (.ok (), world)) :
    (of call upstreamID i key fwd preq world).Made env call upstreamID :=
  ⟨fwd, before, world, hf, hb, rfl⟩

theorem outcome_of_ok {resp : α} (hc : (call key fwd preq world).outcome = .ok resp) :
    (of call upstreamID i key fwd preq world).outcome = .ok (upstreamID resp) := by
  rw [of, hc]
  rfl

theorem outcome_of_error {err : UpstreamError}
    (hc : (call key fwd preq world).outcome = .error err) :
    (of call upstreamID i key fwd preq world).outcome = .error err := by
  rw [of, hc]
  rfl

end Calls

end Tried

/-- **How a loop ends** that goes through `cands`: with the first attempt that succeeds, with the
first one that must not be repeated, with the first refusal of the accounting hook, or when all have
been tried.  `empty` says that there was no candidate at all. -/
inductive Ending (env : Env σ φ) (upstreamID : α → String) (total : Nat)
    (cands : List (Nat × EndpointKey × UnifiedRequest)) (empty : Prop) (configMismatches : Nat) :
    List Tried → Result × Except DispatchError α → Prop
  | won {before : List Tried} {t : Tried} {resp : α} (hbefore : ∀ t ∈ before, t.Retryable)
      (hin : (before ++ [t]).map Tried.candidate <+: cands)
      (ht : t.outcome = .ok (upstreamID resp)) :
    Ending env upstreamID total cands empty configMismatches (before ++ [t])
      (.of t.index t.key t.req (upstreamID resp), .ok resp)
  | failed {before : List Tried} {t : Tried} {err : UpstreamError}
      (hbefore : ∀ t ∈ before, t.Retryable) (hin : (before ++ [t]).map Tried.candidate <+: cands)
      (ht : t.outcome = .error err) (hr : err.retryable = false) :
    Ending env upstreamID total cands empty configMismatches (before ++ [t])
      (.of t.index t.key t.req "", .error (.upstream err))
  | refused {tried : List Tried} {err : StoreError} {before world : σ}
      (hbefore : ∀ t ∈ tried, t.Retryable) (hin : tried.map Tried.candidate <+: cands)
      (hnext : tried.length < cands.length) (hb : env.beforeUpstream before = (.error err, world)) :
    Ending env upstreamID total cands empty configMismatches tried (.zero 0, .error (.refused err))
  | exhausted {tried : List Tried} {last : Option DispatchError}
      (hbefore : ∀ t ∈ tried, t.Retryable) (hall : tried.map Tried.candidate = cands)
      (hlast : last = none ↔ empty) :
    Ending env upstreamID total cands empty configMismatches tried
      (.zero total, .error (failoverExhausted last configMismatches total))

/-- What a loop over `keys` from position `i` on leaves of the state `s`: `tried` are the attempts
it made, and `steps` is what was observed of it. -/
structure Ran (env : Env σ φ) (call : Call σ φ α) (upstreamID : α → String) (total i : Nat)
    (keys : List EndpointKey) (s : State σ) (out : State σ × Result × Except DispatchError α)
    (tried : List Tried) (steps : List DispatchStepEvent) : Prop where
  triedEq : out.1.tried = s.tried ++ tried
  made : ∀ t ∈ tried, t.Made env call upstreamID
  marksEq : out.1.marks = s.marks ++ tried.filterMap Tried.mark
  stepsEq : out.1.steps = s.steps ++ steps
  attempted : (steps.filter fun e ↦ e.action = .attempted) = tried.map Tried.step
  ending : Ending env upstreamID total (candidates env i keys) (keys = [] ∧ s.lastErr = none)
    (s.configMismatches + keys.countP (failedAtPrepare env)) tried out.2

section Runs

variable {env : Env σ φ} {call : Call σ φ α} {upstreamID : α → String} {total i : Nat}
  {key : EndpointKey} {keys : List EndpointKey} {s s' : State σ}
  {out : State σ × Result × Except DispatchError α} {tried : List Tried}
  {steps : List DispatchStepEvent}

theorem candidates_cons_of_skipped (keys : List EndpointKey) (i : Nat)
    (h : ∀ fwd preq, env.forwarders key = some fwd → env.prepare key ≠ .ok preq) :
    candidates env i (key :: keys) = candidates env (i + 1) keys := by
  rw [candidates, List.zipIdx_cons, List.filterMap_cons_none]
  · rfl
  · show (match env.forwarders key, env.prepare key with
      | some _, .ok preq => some (i, key, preq)
      | _, _ => none) = none
    split
    · rename_i fwd preq hf hp
      exact absurd hp (h fwd preq hf)
    · rfl

theorem candidates_cons (keys : List EndpointKey) (i : Nat) {fwd : φ} {preq : UnifiedRequest}
    (hf : env.forwarders key = some fwd)
    (hp : env.prepare key = .ok preq) :
    candidates env i (key :: keys) = (i, key, preq) :: candidates env (i + 1) keys := by
  rw [candidates, List.zipIdx_cons, List.filterMap_cons_some]
  · rfl
  · show (match env.forwarders key, env.prepare key with
      | some _, .ok preq => some (i, key, preq)
      | _, _ => none) = _
    rw [hf, hp]

/-- An attempt that may be followed by another one comes before them. -/
theorem Ending.cons {cands : List (Nat × EndpointKey × UnifiedRequest)} {empty : Prop}
    {mismatches : Nat} {ended : Result × Except DispatchError α} {t : Tried} (ht : t.Retryable)
    (h : Ending env upstreamID total cands empty mismatches tried ended) :
    Ending env upstreamID total (t.candidate :: cands) empty mismatches (t :: tried) ended := by
  have hin' : ∀ {l : List Tried}, l.map Tried.candidate <+: cands →
      (t :: l).map Tried.candidate <+: t.candidate :: cands := by
    intro l hl
    exact List.cons_prefix_cons.mpr ⟨rfl, hl⟩
  have hretryable : ∀ {l : List Tried}, (∀ t ∈ l, t.Retryable) → ∀ t' ∈ t :: l, t'.Retryable :=
    fun hl ↦ List.forall_mem_cons.mpr ⟨ht, hl⟩
  cases h with
  | won hbefore hin ht' =>
    rw [← List.cons_append]
    exact .won (hretryable hbefore) (hin' hin) ht'
  | failed hbefore hin ht' hr =>
    rw [← List.cons_append]
    exact .failed (hretryable hbefore) (hin' hin) ht' hr
  | refused hbefore hin hnext hb =>
    exact .refused (hretryable hbefore) (hin' hin) (Nat.succ_lt_succ hnext) hb
  | exhausted hbefore hall hlast =>
    exact .exhausted (hretryable hbefore) (by rw [List.map_cons, hall]) hlast

/-- After a candidate there was one. -/
theorem empty_cons (key : EndpointKey) (keys : List EndpointKey) (s : State σ)
    (err : DispatchError) :
    (keys = [] ∧ some err = none) = (key :: keys = [] ∧ s.lastErr = none) := by
  simp

/-- A candidate that the loop goes on after. -/
theorem Ran.next (hvisit : Visit env call upstreamID i key s s' none)
    (h : Ran env call upstreamID total (i + 1) keys s' out tried steps) :
    ∃ tried steps, Ran env call upstreamID total i (key :: keys) s out tried steps := by
  have hending := h.ending
  cases hvisit with
  | noForwarder hf =>
    refine ⟨tried, .skip i key .noForwarder :: steps, h.triedEq, h.made, h.marksEq, ?_, ?_, ?_⟩
    · exact h.stepsEq.trans (List.append_assoc ..)
    · exact h.attempted
    · have hno : ¬ failedAtPrepare env key = true := by simp [failedAtPrepare, hf]
      have hskip : ∀ fwd preq, env.forwarders key = some fwd → env.prepare key ≠ .ok preq := by
        intro fwd preq hf'
        rw [hf] at hf'
        cases hf'
      rw [candidates_cons_of_skipped keys i hskip, List.countP_cons_of_neg hno,
        ← empty_cons key keys s (.noForwarder key)]
      exact hending
  | notPrepared hf hp =>
    rename_i fwd err
    refine ⟨tried, .skip i key .prepareFailed :: steps, h.triedEq, h.made, h.marksEq, ?_, ?_, ?_⟩
    · exact h.stepsEq.trans (List.append_assoc ..)
    · exact h.attempted
    · have hyes : failedAtPrepare env key = true := by rw [failedAtPrepare, hf, hp]
      have hcount : s.configMismatches + 1 + keys.countP (failedAtPrepare env) =
          s.configMismatches + (keys.countP (failedAtPrepare env) + 1) := by omega
      have hskip : ∀ fwd preq, env.forwarders key = some fwd → env.prepare key ≠ .ok preq := by
        intro _ preq _ hp'
        rw [hp] at hp'
        cases hp'
      rw [candidates_cons_of_skipped keys i hskip, List.countP_cons_of_pos hyes, ← hcount,
        ← empty_cons key keys s err]
      exact hending
  | retried hf hp hb hc hr =>
    rename_i fwd preq world err
    have hout : (Tried.of call upstreamID i key fwd preq world).outcome = .error err :=
      Tried.outcome_of_error hc
    refine ⟨.of call upstreamID i key fwd preq world :: tried,
      (Tried.of call upstreamID i key fwd preq world).step :: steps, ?_, ?_, ?_, ?_, ?_, ?_⟩
    · exact h.triedEq.trans (List.append_assoc ..)
    · exact List.forall_mem_cons.mpr ⟨Tried.made_of hf hb, h.made⟩
    · rw [List.filterMap_cons_some (Tried.mark_retried hout hr)]
      exact h.marksEq.trans (List.append_assoc ..)
    · rw [Tried.step_retried hout hr]
      exact h.stepsEq.trans (List.append_assoc ..)
    · rw [List.filter_cons_of_pos (by simp), h.attempted, List.map_cons]
    · have hno : ¬ failedAtPrepare env key = true := by simp [failedAtPrepare, hf, hp]
      rw [candidates_cons keys i hf hp, List.countP_cons_of_neg hno,
        ← empty_cons key keys s (.upstream err)]
      exact Ending.cons ⟨err, hout, hr⟩ hending

/-- A candidate that the loop ends with. -/
theorem Ran.stop {ended : Result × Except DispatchError α} (keys : List EndpointKey)
    (hvisit : Visit env call upstreamID i key s s' (some ended)) :
    ∃ tried steps, Ran env call upstreamID total i (key :: keys) s (s', ended) tried steps := by
  cases hvisit with
  | refused hf hp hb =>
    refine ⟨[], [], by simp, by simp, by simp, by simp, rfl, ?_⟩
    rw [candidates_cons keys i hf hp]
    exact .refused (by simp) (List.nil_prefix) (Nat.succ_pos _) hb
  | won hf hp hb hc =>
    rename_i fwd preq world resp
    have hout : (Tried.of call upstreamID i key fwd preq world).outcome = .ok (upstreamID resp) :=
      Tried.outcome_of_ok hc
    refine ⟨[.of call upstreamID i key fwd preq world],
      [(Tried.of call upstreamID i key fwd preq world).step], rfl, ?_, ?_, ?_, ?_, ?_⟩
    · exact List.forall_mem_singleton.mpr (Tried.made_of hf hb)
    · rw [List.filterMap_cons_some (Tried.mark_won hout)]
      rfl
    · rw [Tried.step_won hout]
      rfl
    · exact List.filter_eq_self.mpr (by simp)
    · have hnil : ∀ t ∈ ([] : List Tried), t.Retryable := by simp
      rw [candidates_cons keys i hf hp]
      exact .won hnil (List.cons_prefix_cons.mpr ⟨rfl, List.nil_prefix⟩) hout
  | failed hf hp hb hc hr =>
    rename_i fwd preq world err
    have hout : (Tried.of call upstreamID i key fwd preq world).outcome = .error err :=
      Tried.outcome_of_error hc
    refine ⟨[.of call upstreamID i key fwd preq world],
      [(Tried.of call upstreamID i key fwd preq world).step], rfl, ?_, ?_, ?_, ?_, ?_⟩
    · exact List.forall_mem_singleton.mpr (Tried.made_of hf hb)
    · rw [List.filterMap_cons_none (Tried.mark_failed hout hr)]
      exact (List.append_nil _).symm
    · rw [Tried.step_failed hout hr]
      rfl
    · exact List.filter_eq_self.mpr (by simp)
    · have hnil : ∀ t ∈ ([] : List Tried), t.Retryable := by simp
      rw [candidates_cons keys i hf hp]
      exact .failed hnil (List.cons_prefix_cons.mpr ⟨rfl, List.nil_prefix⟩) hout hr

/-- **What a loop does.** -/
theorem forward_ran (env : Env σ φ) (call : Call σ φ α) (upstreamID : α → String) (total i : Nat)
    (keys : List EndpointKey) (s : State σ) :
    ∃ tried steps, Ran env call upstreamID total i keys s
      (forward env call upstreamID total i keys s) tried steps := by
  induction keys generalizing i s with
  | nil => exact ⟨[], [], by simp [forward], by simp, by simp [forward], by simp [forward], rfl,
      .exhausted (by simp) rfl (by simp)⟩
  | cons key keys ih =>
    obtain ⟨s', ended, hvisit, hforward⟩ := forward_cons env call upstreamID total i key keys s
    rw [hforward]
    cases ended with
    | some ended => exact Ran.stop keys hvisit
    | none =>
      obtain ⟨tried, steps, h⟩ := ih (i + 1) s'
      exact Ran.next hvisit h

/-- A candidate that fails at prepare is not tried. -/
theorem candidates_of_failedAtPrepare (h : ∀ key ∈ keys, failedAtPrepare env key = true) :
    candidates env i keys = [] := by
  induction keys generalizing i with
  | nil => rfl
  | cons key keys ih =>
    have hkey := h key (List.mem_cons_self ..)
    have hskip : ∀ fwd preq, env.forwarders key = some fwd → env.prepare key ≠ .ok preq := by
      intro fwd preq hf hp
      simp [failedAtPrepare, hf, hp] at hkey
    rw [candidates_cons_of_skipped keys i hskip]
    exact ih fun key hmem ↦ h key (List.mem_cons_of_mem _ hmem)

/-- **A configuration mismatch**: there is a candidate, and every one fails at prepare. -/
theorem mismatch_iff (env : Env σ φ) (call : Call σ φ α) (upstreamID : α → String)
    (keys : List EndpointKey) (world : σ) :
    (∃ last, (forward env call upstreamID keys.length 0 keys (.start world)).2.2 =
        .error (.mismatch last)) ↔
      keys ≠ [] ∧ ∀ key ∈ keys, failedAtPrepare env key = true := by
  obtain ⟨tried, steps, h⟩ := forward_ran env call upstreamID keys.length 0 keys (.start world)
  have hending := h.ending
  have hzero : (State.start world).configMismatches + keys.countP (failedAtPrepare env) =
      keys.countP (failedAtPrepare env) := Nat.zero_add _
  rw [hzero] at hending
  generalize forward env call upstreamID keys.length 0 keys (.start world) = out at hending ⊢
  obtain ⟨s', result, ended⟩ := out
  constructor
  · rintro ⟨last, hlast⟩
    obtain rfl : ended = _ := hlast
    generalize hres : (result, (.error (.mismatch last) : Except DispatchError α)) = res at hending
    cases hending with
    | won => cases hres
    | failed => cases hres
    | refused => cases hres
    | exhausted hbefore hall hlast =>
      rename_i last'
      have herr := (Prod.mk.inj hres).2
      cases last' with
      | none => simp [failoverExhausted] at herr
      | some err =>
        simp only [failoverExhausted] at herr
        split at herr
        · rename_i hcount
          exact ⟨List.ne_nil_of_length_pos hcount.2, List.countP_eq_length.mp hcount.1⟩
        · cases herr
  · rintro ⟨hne, hall⟩
    have hcount := List.countP_eq_length.mpr hall
    have hpos : 0 < keys.length := List.length_pos_iff.mpr hne
    rw [candidates_of_failedAtPrepare hall, hcount] at hending
    cases hending with
    | won _ hin => exact absurd (List.prefix_nil.mp hin) (by simp)
    | failed _ hin => exact absurd (List.prefix_nil.mp hin) (by simp)
    | refused _ _ hnext => exact absurd hnext (Nat.not_lt_zero _)
    | exhausted hbefore htried hlast =>
      rename_i last
      cases last with
      | none => exact absurd (hlast.mp rfl).1 hne
      | some err =>
        refine ⟨err, ?_⟩
        show Except.error (failoverExhausted (some err) keys.length keys.length) = _
        rw [failoverExhausted, if_pos ⟨rfl, hpos⟩]

end Runs

/-! ## The same outcomes -/

/-- An answer with the id in place of the response. -/
def Answer.ids (upstreamID : α → String) (answer : Answer σ α) : Answer σ String :=
  ⟨answer.outcome.map upstreamID, answer.durationMs, answer.world⟩

/-- A loop does not look at a response, but for its id. -/
theorem forward_ids (env : Env σ φ) (call : Call σ φ α) (upstreamID : α → String) (total i : Nat)
    (keys : List EndpointKey) (s : State σ) :
    let out := forward env call upstreamID total i keys s
    forward env (fun key fwd preq world ↦ (call key fwd preq world).ids upstreamID) id
    total i keys s =
      (out.1, out.2.1, out.2.2.map upstreamID) := by
  induction keys generalizing i s with
  | nil => rfl
  | cons key keys ih =>
    have hcalled : ∀ (preq : UnifiedRequest) (answer : Answer σ α),
        s.called env id i key preq (answer.ids upstreamID) =
          s.called env upstreamID i key preq answer := by
      intro preq answer
      rcases answer with ⟨outcome | outcome, durationMs, world⟩ <;> rfl
    simp only [forward, hcalled, ih]
    cases env.forwarders key with
    | none => rfl
    | some fwd =>
      cases env.prepare key with
      | error err => rfl
      | ok preq =>
        rcases env.beforeUpstream s.world with ⟨err | _, world⟩
        · rfl
        · simp only [Answer.ids]
          cases (call key fwd preq world).outcome with
          | ok resp => rfl
          | error err =>
            cases hr : err.retryable with
            | false => simp [Except.map, hr]
            | true => simp [Except.map, hr]

/-- **For the same outcomes the two loops do the same.** -/
theorem forward_forwardStream {env : Env σ φ} {call : Call σ φ α}
    {callStream : Call σ φ (β × String)} {upstreamID : α → String}
    (h : ∀ key fwd preq world, (callStream key fwd preq world).ids Prod.snd =
      (call key fwd preq world).ids upstreamID) (total i : Nat) (keys : List EndpointKey)
      (s : State σ) :
    let out := forward env call upstreamID total i keys s
    let outStream := forwardStream env callStream total i keys s
    outStream.1 = out.1 ∧ outStream.2.1 = out.2.1 ∧
      outStream.2.2.map Prod.snd = out.2.2.map upstreamID := by
  have hids := forward_ids env call upstreamID total i keys s
  have hidsStream := forward_ids env callStream Prod.snd total i keys s
  simp only [h] at hidsStream
  have heq := hidsStream.symm.trans hids
  rw [forwardStream_eq]
  exact ⟨(Prod.mk.inj heq).1, Prod.mk.inj (Prod.mk.inj heq).2⟩

/-! ## The loop of the dispatcher -/

/-- What a dispatcher's loop deals with.  What `tryCandidates` carries is the world here, but for
the last error and the count, which the loop keeps itself. -/
def ofDispatcher (d : Dispatcher) (store : AccountingStore σ) (net : Upstreams σ)
    (req : UnifiedRequest) : Env (Trying σ) Forwarder where
  forwarders := d.forwarders
  prepare := d.prepare req
  beforeUpstream t :=
    let (allowed, world) := beforeAccountedUpstream store t.pc t.world
    (allowed, { t with world := world })
  accountResult err t :=
    { t with pc := accountUpstreamResult ((err.map Except.error).getD (.ok ())) t.pc }
  markSuccess key t := { t with breaker := t.breaker.markSuccess key }
  markFailure key t :=
    { t with breaker := t.breaker.markFailure (net.now t.world) (net.now t.world) key }

/-- A call of a forwarder sends the request out. -/
def exchangeCall (send : Forwarder → Exchange → Except UpstreamError α) (net : Upstreams σ) :
    Call (Trying σ) Forwarder α := fun key fwd preq t ↦
  let (x, world) := net.exchange key preq t.world
  ⟨send fwd x, 0, { t with world := world, attempts := t.attempts ++ [⟨key, preq, x⟩] }⟩

/-- What `tryCandidates` carries. -/
def State.trying (s : State (Trying σ)) : Trying σ :=
  { s.world with lastErr := s.lastErr, configMismatches := s.configMismatches }

section Dispatchers

variable (send : Forwarder → Exchange → Except UpstreamError α) (d : Dispatcher)
  (store : AccountingStore σ) (net : Upstreams σ) (req : UnifiedRequest)

/-- What the accounting hook of a dispatcher allows. -/
theorem beforeUpstream_eq {t t' : Trying σ} {allowed : Except StoreError Unit}
    (hb : (ofDispatcher d store net req).beforeUpstream t = (allowed, t')) :
    ∃ world, beforeAccountedUpstream store t.pc t.world = (allowed, world) ∧
      t' = { t with world := world } := by
  obtain ⟨rfl, rfl⟩ := Prod.mk.inj hb
  exact ⟨_, rfl, rfl⟩

/-- The answer of an exchange. -/
theorem exchangeCall_eq {key : EndpointKey} {preq : UnifiedRequest} {t : Trying σ} {x : Exchange}
    {world : σ} (hx : net.exchange key preq t.world = (x, world)) (fwd : Forwarder) :
    exchangeCall send net key fwd preq t =
      ⟨send fwd x, 0, { t with world := world, attempts := t.attempts ++ [⟨key, preq, x⟩] }⟩ := by
  rw [exchangeCall, hx]

theorem tryCandidate_eq {upstreamID : α → String} {i : Nat} {key : EndpointKey}
    {s s' : State (Trying σ)} {ended : Option (Result × Except DispatchError α)}
    (hvisit :
      Visit (ofDispatcher d store net req) (exchangeCall send net) upstreamID i key s s' ended) :
    tryCandidate send d store net req i key s.trying =
      (s'.trying, ended.map fun r ↦ (r.2, r.1.toDispatchResult)) := by
  cases hvisit with
  | noForwarder hf =>
    have hf : d.forwarders key = none := hf
    rw [tryCandidate, hf]
    rfl
  | notPrepared hf hp =>
    rename_i fwd err
    have hf : d.forwarders key = some fwd := hf
    have hp : d.prepare req key = .error err := hp
    rw [tryCandidate, hf, hp]
    rfl
  | refused hf hp hb =>
    rename_i fwd preq err t
    have hf : d.forwarders key = some fwd := hf
    have hp : d.prepare req key = .ok preq := hp
    obtain ⟨world, hhook, rfl⟩ := beforeUpstream_eq d store net req hb
    simp only [tryCandidate, hf, hp, State.trying, hhook]
    rfl
  | won hf hp hb hc =>
    rename_i fwd preq t resp
    have hf : d.forwarders key = some fwd := hf
    have hp : d.prepare req key = .ok preq := hp
    obtain ⟨world, hhook, rfl⟩ := beforeUpstream_eq d store net req hb
    rcases hx : net.exchange key preq world with ⟨x, world'⟩
    have hcall := exchangeCall_eq send net (t := { s.world with world := world }) hx fwd
    rw [hcall] at hc ⊢
    have hc : send fwd x = .ok resp := hc
    simp only [tryCandidate, hf, hp, State.trying, hhook, callUpstream, hx, hc]
    rfl
  | failed hf hp hb hc hr =>
    rename_i fwd preq t err
    have hf : d.forwarders key = some fwd := hf
    have hp : d.prepare req key = .ok preq := hp
    obtain ⟨world, hhook, rfl⟩ := beforeUpstream_eq d store net req hb
    rcases hx : net.exchange key preq world with ⟨x, world'⟩
    have hcall := exchangeCall_eq send net (t := { s.world with world := world }) hx fwd
    rw [hcall] at hc ⊢
    have hc : send fwd x = .error err := hc
    simp only [tryCandidate, hf, hp, State.trying, hhook, callUpstream, hx, hc, hr,
      Bool.false_eq_true, if_false]
    rfl
  | retried hf hp hb hc hr =>
    rename_i fwd preq t err
    have hf : d.forwarders key = some fwd := hf
    have hp : d.prepare req key = .ok preq := hp
    obtain ⟨world, hhook, rfl⟩ := beforeUpstream_eq d store net req hb
    rcases hx : net.exchange key preq world with ⟨x, world'⟩
    have hcall := exchangeCall_eq send net (t := { s.world with world := world }) hx fwd
    rw [hcall] at hc ⊢
    have hc : send fwd x = .error err := hc
    simp only [tryCandidate, hf, hp, State.trying, hhook, callUpstream, hx, hc, hr, if_true]
    rfl

/-- **`tryCandidates` is the loop.** -/
theorem tryCandidates_eq (upstreamID : α → String) (total i : Nat) (keys : List EndpointKey)
    (s : State (Trying σ)) :
    let out :=
      forward (ofDispatcher d store net req) (exchangeCall send net) upstreamID total i keys s
    tryCandidates send d store net req total i keys s.trying =
      (out.1.trying, out.2.2, out.2.1.toDispatchResult) := by
  induction keys generalizing i s with
  | nil => rfl
  | cons key keys ih =>
    obtain ⟨s', ended, hvisit, hforward⟩ := forward_cons (ofDispatcher d store net req)
      (exchangeCall send net) upstreamID total i key keys s
    rw [hforward, tryCandidates, tryCandidate_eq send d store net req hvisit]
    cases ended with
    | some ended => rfl
    | none => exact ih (i + 1) s'

end Dispatchers

end Loops

/-! ## Failover -/

/-- **The failover loops.**  Both try the candidates that can be prepared in order, up to the first
attempt that does not fail or must not be repeated and up to the first refusal of the accounting
hook; the breaker is told of the attempts and of nothing else; and the result says where the loop
ended.  For the same outcomes they do the same.  They end with a configuration mismatch just when
there is a candidate and every one fails at prepare. -/
theorem failover_loops {σ φ α β : Type} (env : Env σ φ) (call : Call σ φ α)
    (callStream : Call σ φ (β × String)) (upstreamID : α → String)
    (keys : List EndpointKey) (world : σ) :
    let out := forward env call upstreamID keys.length 0 keys (.start world)
    let outStream := forwardStream env callStream keys.length 0 keys (.start world)
    Ran env call upstreamID keys.length 0 keys (.start world) out out.1.tried out.1.steps ∧
    Ran env callStream Prod.snd keys.length 0 keys (.start world) outStream outStream.1.tried
      outStream.1.steps ∧
    ((∀ key fwd preq world, (callStream key fwd preq world).ids Prod.snd =
        (call key fwd preq world).ids upstreamID) →
      outStream.1 = out.1 ∧ outStream.2.1 = out.2.1 ∧
        outStream.2.2.map Prod.snd = out.2.2.map upstreamID) ∧
    ((∃ last, out.2.2 = .error (.mismatch last)) ↔
      keys ≠ [] ∧ ∀ key ∈ keys, failedAtPrepare env key = true) ∧
    ((∃ last, outStream.2.2 = .error (.mismatch last)) ↔
      keys ≠ [] ∧ ∀ key ∈ keys, failedAtPrepare env key = true) := by
  have hran : ∀ {γ : Type} (call : Call σ φ γ) (upstreamID : γ → String),
      Ran env call upstreamID keys.length 0 keys (.start world)
        (forward env call upstreamID keys.length 0 keys (.start world))
        (forward env call upstreamID keys.length 0 keys (.start world)).1.tried
        (forward env call upstreamID keys.length 0 keys (.start world)).1.steps := by
    intro γ call upstreamID
    obtain ⟨tried, steps, h⟩ := forward_ran env call upstreamID keys.length 0 keys (.start world)
    have htried := h.triedEq.trans (List.nil_append tried)
    have hsteps := h.stepsEq.trans (List.nil_append steps)
    rw [htried, hsteps]
    exact h
  intro out outStream
  have hstream : outStream = forward env callStream Prod.snd keys.length 0 keys (.start world) :=
    forwardStream_eq ..
  refine ⟨hran call upstreamID, ?_,
    fun h ↦ forward_forwardStream h keys.length 0 keys (.start world),
    mismatch_iff env call upstreamID keys world, ?_⟩
  · rw [hstream]
    exact hran callStream Prod.snd
  · rw [hstream]
    exact mismatch_iff env callStream Prod.snd keys world

/-- The first of two candidates fails with a 5xx and the second one answers: the streaming loop
returns what the other one returns, and the breaker is told of both. -/
theorem failover_loops_sample :
    let a : EndpointKey := ⟨"a", "default"⟩
    let b : EndpointKey := ⟨"b", "default"⟩
    let env : Env Unit Unit :=
      ⟨fun _ ↦ some (), fun _ ↦ .ok ⟨"m", false, none⟩, fun _ ↦ (.ok (), ()),
      fun _ _ ↦ (), fun _ _ ↦ (), fun _ _ ↦ ()⟩
    let call : Call Unit Unit String := fun key _ _ _ ↦
      ⟨if key = a then .error ⟨.errUpstream5xx, none⟩ else .ok "id", 0, ()⟩
    let callStream : Call Unit Unit (Unit × String) := fun key _ _ _ ↦
      ⟨if key = a then .error ⟨.errUpstream5xx, none⟩ else .ok ((), "id"), 0, ()⟩
    let outStream := forwardStream env callStream 2 0 [a, b] (.start ())
    outStream.2.1 = (forward env call id 2 0 [a, b] (.start ())).2.1 ∧
      outStream.2.1 = ⟨⟨"b", "default", "m", true, 1⟩, "id"⟩ ∧
      outStream.1.marks = [.failure a, .success b] := by
  intro a b env call callStream outStream
  have hsame : ∀ key fwd preq world, (callStream key fwd preq world).ids Prod.snd =
      (call key fwd preq world).ids id := by
    intro key fwd preq world
    by_cases hkey : key = a <;> simp [callStream, call, Answer.ids, hkey, Except.map]
  have hresult := ((failover_loops env call callStream id [a, b] ()).2.2.1 hsame).2.1
  exact ⟨hresult, rfl, rfl⟩

/-- With no candidate at all the error is not a mismatch, although every candidate fails at prepare;
and the result of a refusal does not count the candidates before it. -/
theorem failover_loops_corner :
    let env : Env Unit Unit := ⟨fun key ↦ if key.provider = "b" then some () else none,
      fun _ ↦ .ok ⟨"m", false, none⟩, fun _ ↦ (.error .unavailable, ()), fun _ _ ↦ (), fun _ _ ↦ (),
      fun _ _ ↦ ()⟩
    let call : Call Unit Unit String := fun _ _ _ _ ↦ ⟨.ok "id", 0, ()⟩
    let out := forward env call id 2 0 [⟨"a", "default"⟩, ⟨"b", "default"⟩] (.start ())
    (¬ ∀ (env : Env Unit Unit) (keys : List EndpointKey),
      (∃ last, (forward env call id keys.length 0 keys (.start ())).2.2 = .error (.mismatch last)) ↔
        ∀ key ∈ keys, failedAtPrepare env key = true) ∧
    ((candidates env 0 [⟨"a", "default"⟩, ⟨"b", "default"⟩]).map Prod.fst = [1] ∧
      out.2.2 = .error (.refused .unavailable) ∧ out.2.1.retryCount = 0 ∧
      out.2.1.fallback = false) := by
  intro env call out
  refine ⟨fun hall ↦ ?_, ?_, ?_, ?_, ?_⟩
  · obtain ⟨last, hlast⟩ := (hall env []).mpr (by simp)
    cases hlast
  · decide
  · rfl
  · rfl
  · rfl

end Failover

end Voxeltoad
