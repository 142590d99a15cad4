import Voxeltoad.Adapter.Claude
import Voxeltoad.Config.Schema
import Voxeltoad.Ingress.Codec
import Voxeltoad.Lib.Run

/-!
# What the trace ledger is given of a response

`telemetryAcc` of `internal/proxy/telemetry.go`, as far as responses go: the body of a response, up
to a cap, and the reason it stopped for.  Of a stream, the body is taken frame by frame, in the loop
of `streamChatCompletions` (`relayTraced`).

The body is exact: the first bytes of all the frames together, as many as the cap allows.  The
reason is taken down after the cap has been looked at, so a frame that begins where the cap has been
reached leaves none.  `stream_captured_iff` says when the reason is nevertheless the right one.
-/

set_option autoImplicit false

namespace Voxeltoad

open Config

/-! ## Capturing -/

/-- `tracePayloadAcc`, the part that is about the response. -/
structure TracePayloadAcc where
  responseRaw : Bytes
  errorRaw : Bytes
  statusCode : Int
  stopReason : String
  deriving DecidableEq, Repr

/-- What a request begins with. -/
def TracePayloadAcc.empty : TracePayloadAcc := ⟨[], [], 0, ""⟩

/-- `traceSettings`: whether to capture, and how many bytes.  Without settings, capture is off. -/
def traceSettings : Option GatewaySettings → Bool × Int
  | none => (false, 0)
  | some s => (s.trace.capturePayloadEnabled, int64 (s.trace.maxBodyKB * 1024))

/-- `capBytes`. -/
def capBytes (b : Bytes) (n : Int) : Bytes :=
  if n ≤ 0 ∨ b.length ≤ n then b else b.take n.toNat

namespace TracePayloadAcc

variable (settings : Option GatewaySettings) (acc : TracePayloadAcc)

/-- `captureResponse`. -/
def captureResponse (resp : Option Adapter.UnifiedResponse) (statusCode : Int) : TracePayloadAcc :=
  let (enabled, maxBodyBytes) := traceSettings settings
  if !enabled then acc
  else
    match resp with
    | none => { acc with statusCode := statusCode }
    | some r =>
      { acc with
        responseRaw := capBytes r.raw maxBodyBytes
        stopReason := match r.choices with
          | [] => acc.stopReason
          | choice :: _ => choice.finishReason
        statusCode := statusCode }

/-- **`captureStreamChunk`.** -/
def captureStreamChunk (frame : Bytes) (finishReason : String) : TracePayloadAcc :=
  let (enabled, maxBodyBytes) := traceSettings settings
  if !enabled || frame.length = 0 then acc
  else if maxBodyBytes > 0 ∧ acc.responseRaw.length ≥ maxBodyBytes then acc
  else
    let room :=
      if maxBodyBytes > 0 then
        let remaining := maxBodyBytes - acc.responseRaw.length
        if remaining < frame.length then frame.take remaining.toNat else frame
      else frame
    { acc with
      responseRaw := acc.responseRaw ++ room
      stopReason := if finishReason ≠ "" then finishReason else acc.stopReason
      -- The headers of a stream have been sent before its chunks.
      statusCode := 200 }

/-- `captureError`. -/
def captureError (statusCode : Int) (errBody : Bytes) : TracePayloadAcc :=
  let (enabled, maxBodyBytes) := traceSettings settings
  if !enabled then acc
  else { acc with errorRaw := capBytes errBody maxBodyBytes, statusCode := statusCode }

end TracePayloadAcc

/-- A frame that is relayed: the settings there are when it is captured, its bytes, and the finish
reason of its chunk. -/
structure WireFrame where
  settings : Option GatewaySettings
  wire : Bytes
  finishReason : String
  deriving DecidableEq, Repr

/-- The frames of a stream, one after the other. -/
def captureStream (acc : TracePayloadAcc) (frames : List WireFrame) : TracePayloadAcc :=
  frames.foldl (fun acc f ↦ acc.captureStreamChunk f.settings f.wire f.finishReason) acc

/-- All that is relayed. -/
def transcript (frames : List WireFrame) : Bytes := frames.flatMap WireFrame.wire

/-- The last finish reason that is not empty. -/
def lastReason? (frames : List WireFrame) : Option String :=
  (frames.map WireFrame.finishReason).reverse.find? fun reason ↦ reason ≠ ""

/-- The frames that are not empty and begin before the cap, when `start` bytes have been relayed
before. -/
def beforeCap (cap : Int) : Nat → List WireFrame → List WireFrame
  | _, [] => []
  | start, f :: fs =>
    let rest := beforeCap cap (start + f.wire.length) fs
    if f.wire ≠ [] ∧ (cap ≤ 0 ∨ start < cap) then f :: rest else rest

/-! ## The body and the reason -/

section Capture

variable {cap : Int} {acc : TracePayloadAcc} {f : WireFrame} {frames : List WireFrame}
  {before : Bytes}

theorem capBytes_of_nonpos (h : cap ≤ 0) (b : Bytes) : capBytes b cap = b := if_pos (.inl h)

theorem capBytes_eq_take (h : 0 < cap) (b : Bytes) : capBytes b cap = b.take cap.toNat := by
  rw [capBytes]
  split
  · rw [List.take_of_length_le (by omega)]
  · rfl

theorem lastReason?_cons (f : WireFrame) (frames : List WireFrame) :
    lastReason? (f :: frames) =
      (lastReason? frames).or (if f.finishReason ≠ "" then some f.finishReason else none) := by
  rw [lastReason?, List.map_cons, List.reverse_cons, List.find?_append, lastReason?]
  by_cases h : f.finishReason = "" <;> simp [h]

/-- **One frame** adds to the body what the cap leaves room for.  It leaves its reason if it is not
empty and begins before the cap. -/
theorem captureStreamChunk_eq (h : acc.responseRaw = capBytes before cap)
    (hsettings : traceSettings f.settings = (true, cap)) :
    (acc.captureStreamChunk f.settings f.wire f.finishReason).responseRaw =
        capBytes (before ++ f.wire) cap ∧
      (acc.captureStreamChunk f.settings f.wire f.finishReason).stopReason =
        if (f.wire ≠ [] ∧ (cap ≤ 0 ∨ before.length < cap)) ∧ f.finishReason ≠ "" then f.finishReason
        else acc.stopReason := by
  rw [TracePayloadAcc.captureStreamChunk, hsettings]
  dsimp only
  by_cases hempty : f.wire = []
  · simp [hempty, h]
  have hlength : f.wire.length ≠ 0 := by simpa using hempty
  rcases le_or_gt cap 0 with hcap | hcap
  · -- There is no cap.
    rw [if_neg (by simpa using hlength), if_neg (by omega), if_neg (by omega), h,
      capBytes_of_nonpos hcap, capBytes_of_nonpos hcap]
    refine ⟨rfl, ?_⟩
    by_cases hreason : f.finishReason = "" <;> simp [hempty, hcap, hreason]
  rw [capBytes_eq_take hcap] at h ⊢
  have hraw : acc.responseRaw.length = min cap.toNat before.length := by rw [h, List.length_take]
  rw [if_neg (by simpa using hlength)]
  rcases le_or_gt cap before.length with hfull | hroom
  · -- The cap has been reached.
    rw [if_pos (by omega), h, List.take_append_of_le_length (by omega)]
    exact ⟨rfl, by rw [if_neg (by omega)]⟩
  · have hbefore : before.take cap.toNat = before := List.take_of_length_le (by omega)
    have hremaining : (cap - before.length).toNat = cap.toNat - before.length := by omega
    rw [if_neg (by omega), if_pos hcap, h, hbefore, hremaining, List.take_append, hbefore]
    refine ⟨?_, ?_⟩
    · dsimp only
      split
      · rfl
      · rw [List.take_of_length_le (by omega)]
    · by_cases hreason : f.finishReason = "" <;> simp [hempty, hroom, hreason]

/-- **A whole stream**: the body is what the cap leaves of the transcript, and the reason is the
last one among the frames that begin before the cap. -/
theorem captureStream_eq (h : acc.responseRaw = capBytes before cap)
    (hsettings : ∀ f ∈ frames, traceSettings f.settings = (true, cap)) :
    (captureStream acc frames).responseRaw = capBytes (before ++ transcript frames) cap ∧
      (captureStream acc frames).stopReason =
        (lastReason? (beforeCap cap before.length frames)).getD acc.stopReason := by
  induction frames generalizing acc before with
  | nil => exact ⟨by rw [transcript, List.flatMap_nil, List.append_nil]; exact h, rfl⟩
  | cons f fs ih =>
    obtain ⟨hf, hfs⟩ := List.forall_mem_cons.mp hsettings
    obtain ⟨hraw, hreason⟩ := captureStreamChunk_eq h hf
    obtain ⟨hbody, hstop⟩ := ih hraw hfs
    refine ⟨?_, ?_⟩
    · rw [transcript, List.flatMap_cons, ← List.append_assoc]
      exact hbody
    · rw [captureStream, List.foldl_cons]
      refine hstop.trans ?_
      rw [hreason, List.length_append, beforeCap]
      split
      · rename_i hboth
        rw [if_pos hboth.1, lastReason?_cons, if_pos hboth.2]
        cases lastReason? (beforeCap cap (before.length + f.wire.length) fs) <;> rfl
      · rename_i hnot
        split
        · rename_i hbegins
          rw [lastReason?_cons, if_neg fun hr ↦ hnot ⟨hbegins, hr⟩, Option.or_none]
        · rfl

end Capture

/-- What is captured of a whole stream: its body up to the cap, and the reason it stopped for. -/
def Captures (cap : Int) (frames : List WireFrame) : Prop :=
  (captureStream .empty frames).responseRaw = capBytes (transcript frames) cap ∧
    (captureStream .empty frames).stopReason = (lastReason? frames).getD ""

theorem lastReason?_ne {frames : List WireFrame} {reason : String}
    (h : lastReason? frames = some reason) : reason ≠ "" := by
  simpa using List.find?_some h

/-- The reason that is recorded tells whether there was one. -/
theorem lastReason?_inj {frames frames' : List WireFrame} :
    (lastReason? frames).getD "" = (lastReason? frames').getD "" ↔
      lastReason? frames = lastReason? frames' := by
  refine ⟨fun heq ↦ ?_, congrArg (Option.getD · "")⟩
  cases h : lastReason? frames with
  | none =>
    cases h' : lastReason? frames' with
    | none => rfl
    | some reason' =>
      rw [h, h'] at heq
      exact absurd heq.symm (lastReason?_ne h')
  | some reason =>
    cases h' : lastReason? frames' with
    | none =>
      rw [h, h'] at heq
      exact absurd heq (lastReason?_ne h)
    | some reason' =>
      rw [h, h'] at heq
      exact congrArg some heq

/-- **When the capture of a stream is right.**  The body always is.  The reason is, if and only if
the last one among the frames that are not empty and begin before the cap is the last one of all. -/
theorem stream_captured_iff (cap : Int) (frames : List WireFrame)
    (hsettings : ∀ f ∈ frames, traceSettings f.settings = (true, cap)) :
    (captureStream .empty frames).responseRaw = capBytes (transcript frames) cap ∧
      (Captures cap frames ↔ lastReason? (beforeCap cap 0 frames) = lastReason? frames) := by
  have hstart : TracePayloadAcc.empty.responseRaw = capBytes [] cap := by
    rw [capBytes, List.take_nil, ite_self]
    rfl
  obtain ⟨hbody, hreason⟩ := captureStream_eq hstart hsettings
  rw [List.nil_append] at hbody
  refine ⟨hbody, ?_⟩
  rw [Captures, hreason]
  exact (and_iff_right hbody).trans lastReason?_inj

/-- Settings with a cap of 1 KB. -/
def oneKB : Option GatewaySettings := some ⟨⟨true, 1, 0⟩, false⟩

/-- A short stream is captured whole. -/
theorem stream_captured_iff_sample :
    Captures 1024 [⟨oneKB, [100, 10, 10], ""⟩, ⟨oneKB, [101, 10, 10], "stop"⟩] := by
  have hiff :=
    (stream_captured_iff 1024 [⟨oneKB, [100, 10, 10], ""⟩, ⟨oneKB, [101, 10, 10], "stop"⟩]
    (by decide)).2
  exact hiff.mpr (by decide)

/-- The first frame fills the cap, and the reason comes with the second. -/
theorem reason_lost :
    ¬∀ (cap : Int) (frames : List WireFrame),
    (∀ f ∈ frames, traceSettings f.settings = (true, cap)) →
      Captures cap frames := by
  intro hall
  have hcaptures := hall 1024 [⟨oneKB, List.replicate 1024 100, ""⟩, ⟨oneKB, [101, 10, 10], "stop"⟩]
    (by decide +kernel)
  exact absurd hcaptures.2 (by decide +kernel)

/-! ## The cap -/

/-- A call of one of the capture methods. -/
inductive Capture where
  | response (resp : Option Adapter.UnifiedResponse) (statusCode : Int)
  | chunk (frame : Bytes) (finishReason : String)
  | error (statusCode : Int) (errBody : Bytes)

/-- A call, under the settings there are when it is made. -/
def TracePayloadAcc.capture (acc : TracePayloadAcc) :
    Option GatewaySettings × Capture → TracePayloadAcc
  | (settings, .response resp statusCode) => acc.captureResponse settings resp statusCode
  | (settings, .chunk frame finishReason) => acc.captureStreamChunk settings frame finishReason
  | (settings, .error statusCode errBody) => acc.captureError settings statusCode errBody

/-- No body is longer than the cap. -/
structure TracePayloadAcc.Capped (cap : Int) (acc : TracePayloadAcc) : Prop where
  responseRaw : acc.responseRaw.length ≤ cap
  errorRaw : acc.errorRaw.length ≤ cap

theorem capBytes_length {cap : Int} (h : 0 < cap) (b : Bytes) : (capBytes b cap).length ≤ cap := by
  rw [capBytes_eq_take h, List.length_take]
  omega

theorem TracePayloadAcc.Capped.capture {cap : Int} (hcap : 0 < cap) {acc : TracePayloadAcc}
    (h : acc.Capped cap) {c : Option GatewaySettings × Capture} (hc : (traceSettings c.1).2 = cap) :
    (acc.capture c).Capped cap := by
  obtain ⟨settings, capture⟩ := c
  have hsettings : traceSettings settings = ((traceSettings settings).1, cap) := Prod.ext rfl hc
  cases capture with
  | response resp statusCode =>
    rw [TracePayloadAcc.capture, captureResponse, hsettings]
    dsimp only
    split
    · exact h
    · split
      · exact ⟨h.responseRaw, h.errorRaw⟩
      · exact ⟨capBytes_length hcap _, h.errorRaw⟩
  | chunk frame finishReason =>
    rw [TracePayloadAcc.capture, captureStreamChunk, hsettings]
    dsimp only
    split
    · exact h
    · split
      · exact h
      · refine ⟨?_, h.errorRaw⟩
        have hraw := h.responseRaw
        dsimp only
        rw [List.length_append]
        split
        · rw [List.length_take]
          omega
        · omega
  | error statusCode errBody =>
    rw [TracePayloadAcc.capture, captureError, hsettings]
    dsimp only
    split
    · exact h
    · exact ⟨h.responseRaw, capBytes_length hcap _⟩

/-- **No body outgrows the cap**, whatever is captured, and in whatever order. -/
theorem captures_capped {cap : Int} (hcap : 0 < cap)
    (captures : List (Option GatewaySettings × Capture))
    (hsettings : ∀ c ∈ captures, (traceSettings c.1).2 = cap) :
    (Run.run TracePayloadAcc.capture .empty captures).Capped cap := by
  have hempty : (0 : Int) ≤ cap := by omega
  exact Run.invariant_along (fun _ _ hc h ↦ h.capture hcap hc) (Run.along_of_forall hsettings _)
    ⟨hempty, hempty⟩

/-! ## The loop that relays -/

/-- What the loop keeps, with the encoder and the trace. -/
structure Traced (σ : Type) where
  encoder : σ
  relay : Relay
  tracePL : TracePayloadAcc

section Loop

variable {σ : Type} (codec : StreamCodec σ) (json : Json) (delivers : List Chunk → Chunk → Bool)
  (settings : List Chunk → Option GatewaySettings)

/-- **The loop of `streamChatCompletions`**, with what it captures.  `settings prev` are the
settings there are when `prev` have been relayed. -/
def relayTraced (r : StreamReader) (s : Traced σ) : Traced σ :=
  match h : r.recv json with
  | (.error .eof, _) => s
  | (.error .failed, _) =>
    { s with relay := { s.relay with pc := { s.relay.pc with billingUncertain := true } } }
  | (.ok chunk, r') =>
    let wire := codec.encodeChunk s.encoder chunk
    let s' : Traced σ :=
      ⟨wire.2, ⟨s.relay.pc, chunk.usage.or s.relay.lastUsage, s.relay.relayed ++ [chunk]⟩,
        s.tracePL.captureStreamChunk (settings s.relay.relayed) wire.1 chunk.finishReason⟩
    -- A frame is captured whether or not the client is still there to take it.
    if delivers s.relay.relayed chunk then
      have : r'.dec.size < r.dec.size := StreamReader.size_recv_lt h
      relayTraced r' s'
    else s'
termination_by r.dec.size

/-- The frames of the chunks `cs`, when `prev` have been relayed before. -/
def wireFrames (encoder : σ) (prev : List Chunk) : List Chunk → List WireFrame
  | [] => []
  | c :: cs =>
    ⟨settings prev, (codec.encodeChunk encoder c).1, c.finishReason⟩ ::
      wireFrames (codec.encodeChunk encoder c).2 (prev ++ [c]) cs

variable {codec json delivers settings}

theorem relayTraced_of_ok {r r' : StreamReader} {s : Traced σ} {c : Chunk}
    (h : r.recv json = (.ok c, r')) : relayTraced codec json delivers settings r s =
      let s' : Traced σ :=
        ⟨(codec.encodeChunk s.encoder c).2,
          ⟨s.relay.pc, c.usage.or s.relay.lastUsage, s.relay.relayed ++ [c]⟩,
          s.tracePL.captureStreamChunk (settings s.relay.relayed) (codec.encodeChunk s.encoder c).1
            c.finishReason⟩
      if delivers s.relay.relayed c then relayTraced codec json delivers settings r' s'
          else s' := by
  rw [relayTraced]
  split <;> simp_all

theorem relayTraced_of_error {r r' : StreamReader} {s : Traced σ} {e : ReadError}
    (h : r.recv json = (.error e, r')) :
    (relayTraced codec json delivers settings r s).relay = relay json delivers r s.relay ∧
      (relayTraced codec json delivers settings r s).tracePL = s.tracePL := by
  rw [relay_of_error h, relayTraced]
  split
  · rename_i heq
    cases h.symm.trans heq
    simp
  · rename_i heq
    cases h.symm.trans heq
    simp
  · rename_i heq
    cases h.symm.trans heq

/-- **The loop captures the frames it relays**, and relays what it relays without the trace. -/
theorem relayTraced_eq (r : StreamReader) (s : Traced σ) :
    (relayTraced codec json delivers settings r s).relay = relay json delivers r s.relay ∧
      (relayTraced codec json delivers settings r s).tracePL =
        captureStream s.tracePL (wireFrames codec settings s.encoder s.relay.relayed
          (taken delivers s.relay.relayed (r.chunks json).1)) := by
  induction r using StreamReader.chunks.induct json generalizing s with
  | case1 r e r' hrecv =>
    rw [StreamReader.chunks_of_error hrecv]
    exact relayTraced_of_error hrecv
  | case2 r c r' hrecv hlt ih =>
    rw [relayTraced_of_ok hrecv, relay_of_ok hrecv, StreamReader.chunks_of_ok hrecv,
      taken, wireFrames]
    dsimp only
    split
    · exact ih _
    · exact ⟨rfl, rfl⟩

/-- The frames of a stream are written one after the other. -/
theorem transcript_wireFrames (encoder : σ) (prev cs : List Chunk) :
    transcript (wireFrames codec settings encoder prev cs) = (codec.encodeChunks encoder cs).1 := by
  induction cs generalizing encoder prev with
  | nil => rfl
  | cons c cs ih =>
    rw [wireFrames, transcript, List.flatMap_cons, StreamCodec.encodeChunks_cons]
    exact congrArg _ (ih _ _)

end Loop

end Voxeltoad
