import Voxeltoad.Adapter.Sse
import Voxeltoad.Billing.Plugin

/-!
# Upstream streams

The stream readers of `internal/adapter/openai` and `internal/adapter/claude`: `Recv` pulls events
from the SSE decoder and returns unified chunks.  Both end with `io.EOF` on their protocol's end
marker *and* at the end of the body.

`encoding/json` is a parameter (`Json`): for each payload the adapters unmarshal, what it is read
as, or `none` when it is refused.
-/

set_option autoImplicit false

namespace Voxeltoad

/-- The upstream protocols. -/
inductive AdapterKind where
  | openai
  | claude
  deriving DecidableEq, Repr

/-! ## Payloads -/

/-- `wireStreamUsage`. -/
structure WireStreamUsage where
  promptTokens : Int
  completionTokens : Int
  totalTokens : Int
  cachedTokens : Option Int
  deriving DecidableEq, Repr

/-- `FunctionCallDelta`. -/
structure FunctionCallDelta where
  name : String
  arguments : String
  deriving DecidableEq, Repr

/-- `ToolCallDelta`, and `wireStreamToolCallDelta` of the adapter. -/
structure ToolCallDelta where
  index : Int
  id : String
  type : String
  function : FunctionCallDelta
  deriving DecidableEq, Repr

/-- A choice of a `wireStreamChunk`. -/
structure WireStreamChoice where
  role : String
  content : String
  toolCalls : List ToolCallDelta
  finishReason : String
  deriving DecidableEq, Repr

/-- `wireStreamChunk`. -/
structure WireStreamChunk where
  id : String
  model : String
  choices : List WireStreamChoice
  usage : Option WireStreamUsage
  deriving DecidableEq, Repr

/-- A `message_start` event. -/
structure MessageStart where
  id : String
  model : String
  inputTokens : Int
  cacheCreationInputTokens : Int
  cacheReadInputTokens : Int
  deriving DecidableEq, Repr

/-- A `message_delta` event. -/
structure MessageDelta where
  stopReason : String
  outputTokens : Int
  deriving DecidableEq, Repr

/-- `json.Unmarshal` on the payloads of the adapters. -/
structure Json where
  streamChunk : Bytes → Option WireStreamChunk
  messageStart : Bytes → Option MessageStart
  /-- The text of a `content_block_delta` event. -/
  contentBlockDelta : Bytes → Option String
  messageDelta : Bytes → Option MessageDelta
  /-- `ParseResponse` of each adapter. -/
  response : AdapterKind → Bytes → Option UnifiedResponse

/-- A payload that reports a million completion tokens. -/
def payloadOne : Bytes := utf8 "\x7b\"usage\":\x7b\"completion_tokens\":1000000\x7d\x7d"

/-- A payload that reports two million. -/
def payloadTwo : Bytes := utf8 "\x7b\"usage\":\x7b\"completion_tokens\":2000000\x7d\x7d"

/-- `json.Unmarshal` on the two payloads; everything else is refused. -/
def Json.sample : Json where
  streamChunk bytes :=
    if bytes = payloadOne then some ⟨"", "", [], some ⟨0, 1000000, 0, none⟩⟩
    else if bytes = payloadTwo then some ⟨"", "", [], some ⟨0, 2000000, 0, none⟩⟩
    else none
  messageStart _ := none
  contentBlockDelta _ := none
  messageDelta _ := none
  response _ bytes :=
    if bytes = payloadOne then some ⟨"", some ⟨0, 1000000, 0, 0⟩⟩
    else if bytes = payloadTwo then some ⟨"", some ⟨0, 2000000, 0, 0⟩⟩
    else none

/-- `adapter.Chunk`. -/
structure Chunk where
  id : String
  model : String
  deltaRole : String
  deltaContent : String
  deltaToolCalls : List ToolCallDelta
  finishReason : String
  usage : Option Usage
  raw : Bytes
  rawProtocol : String
  deriving DecidableEq, Repr

/-- The usage of an OpenAI chunk. -/
def WireStreamUsage.toUsage (u : WireStreamUsage) : Usage :=
  ⟨u.promptTokens, u.completionTokens, u.totalTokens, u.cachedTokens.getD 0⟩

/-- The chunk of an OpenAI payload: its first choice, with the payload itself as the raw frame. -/
def WireStreamChunk.toChunk (wc : WireStreamChunk) (raw : Bytes) : Chunk :=
  let choice := wc.choices.head?.getD ⟨"", "", [], ""⟩
  { id := wc.id
    model := wc.model
    deltaRole := choice.role
    deltaContent := choice.content
    deltaToolCalls := choice.toolCalls
    finishReason := choice.finishReason
    usage := wc.usage.map WireStreamUsage.toUsage
    raw := raw
    rawProtocol := "openai" }

/-- `mapStopReason`. -/
def mapStopReason (s : String) : String :=
  if s = "end_turn" ∨ s = "stop_sequence" then "stop"
  else if s = "max_tokens" then "length"
  else if s = "tool_use" then "tool_calls"
  else s

/-- `usageOf`: cache reads and writes are part of the prompt. -/
def claudeUsage (input cacheCreation cacheRead output : Int) : Usage :=
  let prompt := int64 (input + cacheCreation + cacheRead)
  ⟨prompt, output, int64 (prompt + output), cacheRead⟩

/-- `reassembleSSEFrame`. -/
def reassembleSSEFrame (ev : Event) : Bytes :=
  (if ev.event = [] then [] else utf8 "event: " ++ ev.event ++ [10]) ++
  (if ev.id = [] then [] else utf8 "id: " ++ ev.id ++ [10]) ++
  (ev.data.splitOn 10).flatMap (fun line ↦ utf8 "data: " ++ line ++ [10]) ++ [10]

/-! ## Readers -/

/-- `adapter.StreamReader`.  The token counts are those the Claude reader buffers from
`message_start`. -/
structure StreamReader where
  adapter : AdapterKind
  dec : Decoder
  inputToks : Int
  cacheCreationToks : Int
  cacheReadToks : Int
  deriving DecidableEq, Repr

/-- `ParseStream`. -/
def parseStream (adapter : AdapterKind) (body : Body) : StreamReader :=
  ⟨adapter, newDecoder body, 0, 0, 0⟩

namespace StreamReader

variable (json : Json)

/-- What one event means to the OpenAI reader. -/
def openAIEvent (ev : Event) (r : StreamReader) : Except ReadError Chunk × StreamReader :=
  if ev.data = utf8 "[DONE]" then (.error .eof, r)
  else match json.streamChunk ev.data with
    | none => (.error .failed, r)
    | some wc => (.ok (wc.toChunk ev.data), r)

/-- `Recv` of the OpenAI adapter. -/
def recvOpenAI (r : StreamReader) : Except ReadError Chunk × StreamReader :=
  match r.dec.next with
  | (.error e, dec) => (.error e, { r with dec := dec })
  | (.ok ev, dec) => openAIEvent json ev { r with dec := dec }

/-- What one event means to the Claude reader: `none` is an event it ignores. -/
def claudeEvent (ev : Event) (r : StreamReader) :
    Option (Except ReadError Chunk × StreamReader) :=
  let frame : Chunk := ⟨"", "", "", "", [], "", none, reassembleSSEFrame ev, "anthropic"⟩
  if ev.event = utf8 "message_start" then
    match json.messageStart ev.data with
    | none => some (.error .failed, r)
    | some m =>
      some (.ok { frame with id := m.id, model := m.model, deltaRole := "assistant" },
        { r with inputToks := m.inputTokens, cacheCreationToks := m.cacheCreationInputTokens,
                 cacheReadToks := m.cacheReadInputTokens })
  else if ev.event = utf8 "content_block_delta" then
    match json.contentBlockDelta ev.data with
    | none => some (.error .failed, r)
    | some text => some (.ok { frame with deltaContent := text }, r)
  else if ev.event = utf8 "message_delta" then
    match json.messageDelta ev.data with
    | none => some (.error .failed, r)
    | some m =>
      some (.ok { frame with
          finishReason := mapStopReason m.stopReason
          usage := some
            (claudeUsage r.inputToks r.cacheCreationToks r.cacheReadToks m.outputTokens) }, r)
  else if ev.event = utf8 "message_stop" then some (.error .eof, r)
  else if ev.event = utf8 "content_block_start" ∨ ev.event = utf8 "content_block_stop" then
    some (.ok frame, r)
  else none

/-- `Recv` of the Claude adapter: events without a meaning are skipped. -/
def recvClaude (r : StreamReader) : Except ReadError Chunk × StreamReader :=
  match h : r.dec.next with
  | (.error e, dec) => (.error e, { r with dec := dec })
  | (.ok ev, dec) =>
    match claudeEvent json ev { r with dec := dec } with
    | some result => result
    | none =>
      have : dec.size < r.dec.size := Decoder.size_next_lt h
      recvClaude { r with dec := dec }
termination_by r.dec.size

/-- **`Recv`.** -/
def recv (r : StreamReader) : Except ReadError Chunk × StreamReader :=
  match r.adapter with
  | .openai => recvOpenAI json r
  | .claude => recvClaude json r

/-- What one event means to a reader. -/
def event (ev : Event) (r : StreamReader) : Option (Except ReadError Chunk × StreamReader) :=
  match r.adapter with
  | .openai => some (openAIEvent json ev r)
  | .claude => claudeEvent json ev r

variable {json}

/-! ### One event at a time -/

theorem dec_of_event {ev : Event} {r r' : StreamReader} {c : Except ReadError Chunk}
    (h : event json ev r = some (c, r')) : r'.dec = r.dec := by
  simp only [event, openAIEvent, claudeEvent] at h
  repeat' split at h
  all_goals
    cases h
    try rfl

/-- What an event means does not depend on the events to come. -/
theorem event_dec (ev : Event) (r : StreamReader) (dec : Decoder) :
    event json ev { r with dec := dec } =
      (event json ev r).map fun p ↦ (p.1, { p.2 with dec := dec }) := by
  rcases r with ⟨adapter, dec₀, inputToks, cacheCreationToks, cacheReadToks⟩
  cases adapter with
  | openai =>
    simp only [event, openAIEvent]
    repeat' split
    all_goals rfl
  | claude =>
    simp only [event, claudeEvent]
    repeat' split
    all_goals rfl

theorem recv_of_error {r : StreamReader} {e : ReadError} {dec : Decoder}
    (h : r.dec.next = (.error e, dec)) : recv json r = (.error e, { r with dec := dec }) := by
  rw [recv]
  split
  · rw [recvOpenAI, h]
  · rw [recvClaude]
    split <;> simp_all

theorem recv_of_ok {r : StreamReader} {ev : Event} {dec : Decoder}
    (h : r.dec.next = (.ok ev, dec)) :
    recv json r = (event json ev { r with dec := dec }).getD (recv json { r with dec := dec }) := by
  rcases r with ⟨adapter, dec₀, inputToks, cacheCreationToks, cacheReadToks⟩
  cases adapter with
  | openai => simp only [recv, event, recvOpenAI, h, Option.getD_some]
  | claude =>
    simp only [recv, event]
    rw [recvClaude]
    split
    · simp_all
    · rename_i ev' dec' h'
      obtain ⟨rfl, rfl⟩ : ev' = ev ∧ dec' = dec := by simp_all
      cases claudeEvent json ev' ⟨.claude, dec', inputToks, cacheCreationToks, cacheReadToks⟩ with
      | none => rfl
      | some result => rfl

/-- A call that returns a chunk makes the reader smaller. -/
theorem size_recv_lt {r r' : StreamReader} {c : Chunk} (h : recv json r = (.ok c, r')) :
    r'.dec.size < r.dec.size := by
  induction hn : r.dec.size using Nat.strongRecOn generalizing r with
  | ind n ih =>
    subst hn
    rcases hnext : r.dec.next with ⟨e | ev, dec⟩
    · rw [recv_of_error hnext] at h
      cases h
    have hlt := Decoder.size_next_lt hnext
    rw [recv_of_ok hnext] at h
    rcases hev : event json ev { r with dec := dec } with _ | result
    · rw [hev, Option.getD_none] at h
      exact Nat.lt_trans (ih dec.size hlt h rfl) hlt
    · rw [hev, Option.getD_some] at h
      rw [dec_of_event (h ▸ hev)]
      exact hlt

end StreamReader

end Voxeltoad
