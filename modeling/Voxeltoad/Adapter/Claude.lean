import Mathlib.Algebra.BigOperators.Group.List.Basic
import Voxeltoad.Adapter.Encode
import Voxeltoad.Adapter.Message
import Voxeltoad.Proxy.Stream

/-!
# Claude responses

`internal/adapter/claude`: `ParseResponse`, and the payloads that its stream reader unmarshals.

A message can come whole or as a stream.  Its usage is then in two events, the tokens of the prompt
at the start and those of the answer at the end, and its text comes in pieces.  `Claude.Message` is
a message as Anthropic defines it, `Claude.Message.Body` the JSON of it, and
`Claude.Message.Carries` the events of a stream that carries it.  `claude_stream_agrees` says that
what the reader returns for the stream adds up to what `ParseResponse` makes of the message, as long
as no line is too long for the scanner.
-/

set_option autoImplicit false

namespace Voxeltoad

open Unmarshal

namespace Adapter

/-- `Choice`. -/
structure Choice where
  index : Int
  message : Message
  finishReason : String
  deriving Repr

/-- `UnifiedResponse`. -/
structure UnifiedResponse where
  id : String
  model : String
  choices : List Choice
  usage : Option Usage
  upstreamRequestID : String
  raw : Bytes
  rawProtocol : String
  deriving Repr

end Adapter

namespace Claude

/-! ## Responses -/

/-- `wireResponse.Usage`. -/
structure WireUsage where
  inputTokens : Int
  outputTokens : Int
  cacheCreationInputTokens : Int
  cacheReadInputTokens : Int
  deriving DecidableEq, Repr

def WireUsage.names : List String :=
  ["input_tokens", "output_tokens", "cache_creation_input_tokens", "cache_read_input_tokens"]

def WireUsage.read : Reader WireUsage :=
  record fun u ms ↦ do
    let inputTokens ← field int u.inputTokens names "input_tokens" ms
    let outputTokens ← field int u.outputTokens names "output_tokens" ms
    let cacheCreationInputTokens ←
      field int u.cacheCreationInputTokens names "cache_creation_input_tokens" ms
    let cacheReadInputTokens ← field int u.cacheReadInputTokens names "cache_read_input_tokens" ms
    return ⟨inputTokens, outputTokens, cacheCreationInputTokens, cacheReadInputTokens⟩

/-- `wireResponse`. -/
structure WireResponse where
  id : String
  model : String
  content : List ContentPart
  stopReason : String
  usage : WireUsage
  requestID : String
  deriving DecidableEq, Repr

def WireResponse.names : List String :=
  ["id", "model", "content", "stop_reason", "usage", "request_id"]

def WireResponse.read : Reader WireResponse :=
  record fun r ms ↦ do
    let id ← field string r.id names "id" ms
    let model ← field string r.model names "model" ms
    let content ← field (slice ContentPart.read ⟨"", ""⟩) r.content names "content" ms
    let stopReason ← field string r.stopReason names "stop_reason" ms
    let usage ← field WireUsage.read r.usage names "usage" ms
    let requestID ← field string r.requestID names "request_id" ms
    return ⟨id, model, content, stopReason, usage, requestID⟩

/-- **`ParseResponse`.** -/
def parseResponse (body : Bytes) : Option Adapter.UnifiedResponse := do
  let v ← JsonValue.unmarshal body
  let wr ← WireResponse.read ⟨"", "", [], "", ⟨0, 0, 0, 0⟩, ""⟩ v
  let text := String.join ((wr.content.filter fun b ↦ b.type = "text").map ContentPart.text)
  return {
    id := wr.id
    model := wr.model
    choices := [⟨0, ⟨"assistant", Content.ofText text, "", [], ""⟩, mapStopReason wr.stopReason⟩]
    usage := some (claudeUsage wr.usage.inputTokens wr.usage.cacheCreationInputTokens
      wr.usage.cacheReadInputTokens wr.usage.outputTokens)
    upstreamRequestID := wr.requestID
    raw := body
    rawProtocol := "anthropic" }

/-! ## Events -/

def startUsageNames : List String :=
  ["input_tokens", "cache_creation_input_tokens", "cache_read_input_tokens"]

/-- The usage in a `message_start` event. -/
def startUsage : Reader MessageStart :=
  record fun m ms ↦ do
    let inputTokens ← field int m.inputTokens startUsageNames "input_tokens" ms
    let cacheCreationInputTokens ←
      field int m.cacheCreationInputTokens startUsageNames "cache_creation_input_tokens" ms
    let cacheReadInputTokens ←
      field int m.cacheReadInputTokens startUsageNames "cache_read_input_tokens" ms
    return ⟨m.id, m.model, inputTokens, cacheCreationInputTokens, cacheReadInputTokens⟩

def startNames : List String := ["id", "model", "usage"]

/-- The message in a `message_start` event. -/
def startMessage : Reader MessageStart :=
  record fun m ms ↦ do
    let id ← field string m.id startNames "id" ms
    let model ← field string m.model startNames "model" ms
    field startUsage { m with id := id, model := model } startNames "usage" ms

/-- The payload of `message_start`. -/
def messageStart (data : Bytes) : Option MessageStart :=
  (JsonValue.unmarshal data).bind
    (record (fun m ms ↦ field startMessage m ["message"] "message" ms) ⟨"", "", 0, 0, 0⟩)

/-- The payload of `content_block_delta`. -/
def contentBlockDelta (data : Bytes) : Option String :=
  (JsonValue.unmarshal data).bind
    (record (fun text ms ↦ field (record fun text ms ↦ field string text ["text"] "text" ms) text
      ["delta"] "delta" ms) "")

/-- The payload of `message_delta`. -/
def messageDelta (data : Bytes) : Option MessageDelta :=
  (JsonValue.unmarshal data).bind (record (fun m ms ↦ do
      let stopReason ← field (record fun s ms ↦ field string s ["stop_reason"] "stop_reason" ms)
        m.stopReason ["delta", "usage"] "delta" ms
      let outputTokens ← field (record fun n ms ↦ field int n ["output_tokens"] "output_tokens" ms)
        m.outputTokens ["delta", "usage"] "usage" ms
      return ⟨stopReason, outputTokens⟩) ⟨"", 0⟩)

end Claude

/-- `json.Unmarshal` on the payloads of the Claude adapter, written out. -/
def Json.withClaude (json : Json) : Json where
  streamChunk := json.streamChunk
  messageStart := Claude.messageStart
  contentBlockDelta := Claude.contentBlockDelta
  messageDelta := Claude.messageDelta
  response
    | .claude, body => (Claude.parseResponse body).map fun r ↦ ⟨r.model, r.usage⟩
    | .openai, body => json.response .openai body

namespace Claude

/-! ## Messages -/

/-- A number of tokens. -/
abbrev Count : Type := { n : Int // 0 ≤ n ∧ n < 2 ^ 63 }

/-- A block of a message: a text, or something else (a tool call, a thought). -/
inductive Block where
  | text (s : String)
  | other
  deriving DecidableEq, Repr

/-- The text of a block. -/
def Block.said : Block → String
  | text s => s
  | other => ""

/-- A message.  `stopReason` is empty where it has none. -/
structure Message where
  id : String
  model : String
  content : List Block
  stopReason : String
  inputTokens : Count
  outputTokens : Count
  cacheCreationInputTokens : Count
  cacheReadInputTokens : Count
  deriving DecidableEq, Repr

namespace Message

/-- What a message says. -/
def text (m : Message) : String := String.join (m.content.map Block.said)

/-- The usage of a message. -/
def usage (m : Message) : Usage :=
  claudeUsage m.inputTokens.1 m.cacheCreationInputTokens.1 m.cacheReadInputTokens.1 m.outputTokens.1

end Message

/-! ### In JSON -/

/-- A member that is a text; the empty one may be left out. -/
def Says (ms : List (String × JsonValue)) (name s : String) : Prop :=
  ms.lookup name = some (.str s) ∨ s = "" ∧ (ms.lookup name = none ∨ ms.lookup name = some .null)

/-- A member that is a number of tokens; zero may be left out. -/
def Counts (ms : List (String × JsonValue)) (name : String) (n : Count) : Prop :=
  ms.lookup name = some (.num n.1) ∨
    n.1 = 0 ∧ (ms.lookup name = none ∨ ms.lookup name = some .null)

/-- The JSON of a block. -/
def Block.Json : Block → JsonValue → Prop
  | .text s, v => ∃ ms, v = .obj ms ∧ Exact ContentPart.names ms ∧
      ms.lookup "type" = some (.str "text") ∧ ms.lookup "text" = some (.str s)
  | .other, v => ∃ ms type s, v = .obj ms ∧ Exact ContentPart.names ms ∧
      ms.lookup "type" = some (.str type) ∧ type ≠ "text" ∧ Says ms "text" s

/-- The JSON of a message: an object with these members, and any others. -/
structure Message.Json (m : Message) (ms : List (String × JsonValue)) : Prop where
  exact : Exact WireResponse.names ms
  id : Says ms "id" m.id
  model : Says ms "model" m.model
  content :
    ∃ blocks, ms.lookup "content" = some (.arr blocks) ∧ List.Forall₂ Block.Json m.content blocks
  stopReason : Says ms "stop_reason" m.stopReason
  usage : ∃ us, ms.lookup "usage" = some (.obj us) ∧ Exact WireUsage.names us ∧
    Counts us "input_tokens" m.inputTokens ∧ Counts us "output_tokens" m.outputTokens ∧
    Counts us "cache_creation_input_tokens" m.cacheCreationInputTokens ∧
    Counts us "cache_read_input_tokens" m.cacheReadInputTokens
  requestID : ∃ s, Says ms "request_id" s

/-- The body of a response. -/
def Message.Body (m : Message) (body : Bytes) : Prop :=
  ∃ ms, JsonValue.unmarshal body = some (.obj ms) ∧ m.Json ms

/-! ### Reading -/

section Reading

variable {names : List String} {name : String} {ms : List (String × JsonValue)}

theorem Says.field {s : String} (h : Says ms name s) (hexact : Exact names ms)
    (hname : name ∈ names) : field string "" names name ms = some s := by
  rw [field_of_exact string "" hexact hname]
  rcases h with h | ⟨rfl, h | h⟩ <;> rw [h] <;> rfl

theorem Counts.field {n : Count} (h : Counts ms name n) (hexact : Exact names ms)
    (hname : name ∈ names) : field int 0 names name ms = some n.1 := by
  have hrange : -2 ^ 63 ≤ n.1 ∧ n.1 < 2 ^ 63 := ⟨by have := n.2.1; omega, n.2.2⟩
  rw [field_of_exact int 0 hexact hname]
  rcases h with h | ⟨hzero, h | h⟩
  · rw [h]
    exact if_pos hrange
  · rw [h, hzero]
  · rw [h, hzero]
    rfl

end Reading

/-- The blocks that are read, and what they say. -/
theorem items_content {content : List Block} {blocks : List JsonValue}
    (h : List.Forall₂ Block.Json content blocks) :
    ∃ parts, items ContentPart.read ⟨"", ""⟩ [] blocks = some parts ∧
      String.join ((parts.filter fun b ↦ b.type = "text").map ContentPart.text) =
        String.join (content.map Block.said) := by
  induction h with
  | nil => exact ⟨[], rfl, rfl⟩
  | @cons b v content blocks hb _ ih =>
    obtain ⟨parts, hitems, htext⟩ := ih
    have hread : ∃ part, ContentPart.read ⟨"", ""⟩ v = some part ∧
        String.join (([part].filter fun b ↦ b.type = "text").map ContentPart.text) = b.said := by
      cases b with
      | text s =>
        obtain ⟨ms, rfl, hexact, htype, hs⟩ := hb
        have htype' := Says.field (.inl htype) hexact (show "type" ∈ ContentPart.names by decide)
        have hs' := Says.field (.inl hs) hexact (show "text" ∈ ContentPart.names by decide)
        refine ⟨⟨"text", s⟩, ?_, by simp [Block.said]⟩
        simp only [ContentPart.read, record, htype', hs']
        rfl
      | other =>
        obtain ⟨ms, type, s, rfl, hexact, htype, hne, hs⟩ := hb
        have htype' := Says.field (.inl htype) hexact (show "type" ∈ ContentPart.names by decide)
        have hs' := hs.field hexact (show "text" ∈ ContentPart.names by decide)
        refine ⟨⟨type, s⟩, ?_, by simp [Block.said, hne]⟩
        simp only [ContentPart.read, record, htype', hs']
        rfl
    obtain ⟨part, hpart, hsaid⟩ := hread
    refine ⟨part :: parts, ?_, ?_⟩
    · simp only [items, List.head?_nil, Option.getD_none, hpart, List.tail_nil, hitems]
      rfl
    · rw [← List.singleton_append, List.filter_append, List.map_append,
        String.join_append, hsaid, htext, List.map_cons, String.join_cons]

/-- **What `ParseResponse` makes of a message.** -/
theorem parseResponse_body {m : Message} {body : Bytes} (h : m.Body body) :
    ∃ requestID, parseResponse body = some
      { id := m.id
        model := m.model
        choices :=
          [⟨0, ⟨"assistant", Content.ofText m.text, "", [], ""⟩, mapStopReason m.stopReason⟩]
        usage := some m.usage
        upstreamRequestID := requestID
        raw := body
        rawProtocol := "anthropic" } := by
  obtain ⟨ms, hbody, hjson⟩ := h
  obtain ⟨blocks, hcontent, hblocks⟩ := hjson.content
  obtain ⟨parts, hitems, htext⟩ := items_content hblocks
  obtain ⟨us, husage, hexact, hinput, houtput, hcreation, hread⟩ := hjson.usage
  obtain ⟨requestID, hrequest⟩ := hjson.requestID
  refine ⟨requestID, ?_⟩
  have hid := hjson.id.field hjson.exact (show "id" ∈ WireResponse.names by decide)
  have hmodel := hjson.model.field hjson.exact (show "model" ∈ WireResponse.names by decide)
  have hstop :=
    hjson.stopReason.field hjson.exact (show "stop_reason" ∈ WireResponse.names by decide)
  have hrequest' := hrequest.field hjson.exact (show "request_id" ∈ WireResponse.names by decide)
  have hparts :
      field (slice ContentPart.read ⟨"", ""⟩) [] WireResponse.names "content" ms = some parts := by
    rw [field_of_exact _ _ hjson.exact (by decide), hcontent]
    exact hitems
  have husage' : field WireUsage.read ⟨0, 0, 0, 0⟩ WireResponse.names "usage" ms = some
      ⟨m.inputTokens.1, m.outputTokens.1, m.cacheCreationInputTokens.1,
        m.cacheReadInputTokens.1⟩ := by
    rw [field_of_exact _ _ hjson.exact (by decide), husage]
    simp only [WireUsage.read, record, hinput.field hexact (show _ ∈ WireUsage.names by decide),
      houtput.field hexact (show _ ∈ WireUsage.names by decide),
      hcreation.field hexact (show _ ∈ WireUsage.names by decide),
      hread.field hexact (show _ ∈ WireUsage.names by decide)]
    rfl
  simp only [parseResponse, hbody, WireResponse.read, record, hid, hmodel, hparts, hstop,
    husage', hrequest', Option.bind_eq_bind, Option.bind_some, Option.pure_def, htext]
  rfl

/-! ## Streams -/

/-- The event types that the reader knows; `ping` and all others are skipped. -/
def eventTypes : List String :=
  ["message_start", "content_block_start", "content_block_delta", "content_block_stop",
    "message_delta", "message_stop"]

/-- An event that is not skipped. -/
def known (ev : Event) : Bool := eventTypes.any fun type ↦ ev.event = utf8 type

/-- An event of a type, whose payload is an object. -/
def Payload (ev : Event) (type : String) (ms : List (String × JsonValue)) : Prop :=
  ev.event = utf8 type ∧ JsonValue.unmarshal ev.data = some (.obj ms)

/-- The `message_start` of a message: its id, its model and the tokens of the prompt. -/
def IsStart (m : Message) (ev : Event) : Prop :=
  ∃ ms inner us, Payload ev "message_start" ms ∧ Exact ["message"] ms ∧
    ms.lookup "message" = some (.obj inner) ∧ Exact startNames inner ∧ Says inner "id" m.id ∧
    Says inner "model" m.model ∧ inner.lookup "usage" = some (.obj us) ∧ Exact startUsageNames us ∧
    Counts us "input_tokens" m.inputTokens ∧
    Counts us "cache_creation_input_tokens" m.cacheCreationInputTokens ∧
    Counts us "cache_read_input_tokens" m.cacheReadInputTokens

/-- A `content_block_delta` with a piece of text, or one of another type, which has none. -/
def IsDelta (piece : String) (ev : Event) : Prop :=
  ∃ ms ds type, Payload ev "content_block_delta" ms ∧ Exact ["delta"] ms ∧
    ms.lookup "delta" = some (.obj ds) ∧ Exact ["text"] ds ∧ ds.lookup "type" = some (.str type) ∧
    ds.lookup "text" = (if type = "text_delta" then some (.str piece) else none) ∧
    (type ≠ "text_delta" → piece = "")

/-- The events of a block: its start, its deltas and its stop. -/
def IsBlock (b : Block) (evs : List Event) : Prop :=
  ∃ start pieces deltas stop, evs = start :: deltas ++ [stop] ∧
    start.event = utf8 "content_block_start" ∧ List.Forall₂ IsDelta pieces deltas ∧
    stop.event = utf8 "content_block_stop" ∧ String.join pieces = b.said

/-- The `message_delta` at the end: the stop reason and the tokens of the answer. -/
def IsEnd (m : Message) (ev : Event) : Prop :=
  ∃ ms ds us, Payload ev "message_delta" ms ∧ Exact ["delta", "usage"] ms ∧
    ms.lookup "delta" = some (.obj ds) ∧ Exact ["stop_reason"] ds ∧
    Says ds "stop_reason" m.stopReason ∧
    ms.lookup "usage" = some (.obj us) ∧ Exact ["output_tokens"] us ∧
    Counts us "output_tokens" m.outputTokens

/-- **A stream carries a message**: but for the events that are skipped, it is `message_start`, the
blocks, `message_delta` and `message_stop`. -/
def Message.Carries (m : Message) (evs : List Event) : Prop :=
  ∃ start blocks delta stop, evs.filter known = start :: blocks.flatten ++ [delta, stop] ∧
    IsStart m start ∧ List.Forall₂ IsBlock m.content blocks ∧ IsEnd m delta ∧
    stop.event = utf8 "message_stop"

/-- What the chunks of a stream add up to. -/
structure Folded where
  text : String
  finishReason : String
  id : String
  model : String
  usage : Option Usage
  deriving DecidableEq, Repr

/-- The text in its pieces, the last finish reason and usage, and the first id and model. -/
def fold (chunks : List Chunk) : Folded where
  text := String.join (chunks.map Chunk.deltaContent)
  finishReason := ((chunks.map Chunk.finishReason).reverse.find? fun s ↦ s ≠ "").getD ""
  id := ((chunks.map Chunk.id).find? fun s ↦ s ≠ "").getD ""
  model := ((chunks.map Chunk.model).find? fun s ↦ s ≠ "").getD ""
  usage := lastUsage chunks

/-- A chunk of a block: nothing but a piece of text. -/
structure IsPiece (piece : String) (c : Chunk) : Prop where
  deltaContent : c.deltaContent = piece
  finishReason : c.finishReason = ""
  id : c.id = ""
  model : c.model = ""
  usage : c.usage = none

section Decode

variable {json : Json} {r : StreamReader} {ending : ReadError}

theorem event_of_not_known {ev : Event} (h : known ev = false) (hr : r.adapter = .claude) :
    r.event json ev = none := by
  have hne : ∀ type ∈ eventTypes, ev.event ≠ utf8 type := by
    intro type htype
    simpa using List.any_eq_false.mp h type htype
  have hstart := hne "message_start" (by decide)
  have hblockStart := hne "content_block_start" (by decide)
  have hblockDelta := hne "content_block_delta" (by decide)
  have hblockStop := hne "content_block_stop" (by decide)
  have hdelta := hne "message_delta" (by decide)
  have hstop := hne "message_stop" (by decide)
  simp only [StreamReader.event, hr, StreamReader.claudeEvent, if_neg hstart, if_neg hblockDelta,
    if_neg hdelta, if_neg hstop, if_neg (not_or.mpr ⟨hblockStart, hblockStop⟩)]

theorem event_adapter {ev : Event} {c : Chunk} {r' : StreamReader}
    (h : r.event json ev = some (.ok c, r')) : r'.adapter = r.adapter := by
  simp only [StreamReader.event, StreamReader.openAIEvent, StreamReader.claudeEvent] at h
  repeat' split at h
  all_goals
    cases h
    try rfl

/-- Events that are skipped do not matter. -/
theorem decode_filter (hr : r.adapter = .claude) (evs : List Event) :
    r.decode json ending (evs.filter known) = r.decode json ending evs := by
  induction evs generalizing r with
  | nil => rfl
  | cons ev evs ih =>
    by_cases hknown : known ev = true
    · rw [List.filter_cons_of_pos hknown, StreamReader.decode, StreamReader.decode]
      rcases hev : r.event json ev with _ | ⟨e | c, r'⟩
      · exact ih hr
      · rfl
      · simp only [ih ((event_adapter hev).trans hr)]
    · rw [List.filter_cons_of_neg hknown, StreamReader.decode,
        event_of_not_known (Bool.eq_false_iff.mpr hknown) hr]
      exact ih hr

/-! ### What the events mean -/

theorem messageStart_of_isStart {m : Message} {ev : Event} (h : IsStart m ev) :
    messageStart ev.data = some ⟨m.id, m.model, m.inputTokens.1, m.cacheCreationInputTokens.1,
      m.cacheReadInputTokens.1⟩ := by
  obtain ⟨ms, inner, us, ⟨-, hdata⟩, hexact, hinner, hexactInner, hid, hmodel, husage,
    hexactUsage, hinput, hcreation, hread⟩ := h
  have husage' : ∀ id model, field startUsage ⟨id, model, 0, 0, 0⟩ startNames "usage" inner = some
      ⟨id, model, m.inputTokens.1, m.cacheCreationInputTokens.1, m.cacheReadInputTokens.1⟩ := by
    intro id model
    rw [field_of_exact _ _ hexactInner (by decide), husage]
    simp only [startUsage, record, hinput.field hexactUsage (show _ ∈ startUsageNames by decide),
      hcreation.field hexactUsage (show _ ∈ startUsageNames by decide),
      hread.field hexactUsage (show _ ∈ startUsageNames by decide)]
    rfl
  rw [messageStart, hdata, Option.bind_some]
  simp only [record, field_of_exact _ _ hexact (List.mem_singleton_self _), hinner, startMessage,
    hid.field hexactInner (show _ ∈ startNames by decide),
    hmodel.field hexactInner (show _ ∈ startNames by decide), husage', Option.bind_eq_bind,
    Option.bind_some]

theorem contentBlockDelta_of_isDelta {piece : String} {ev : Event} (h : IsDelta piece ev) :
    contentBlockDelta ev.data = some piece := by
  obtain ⟨ms, ds, type, ⟨-, hdata⟩, hexact, hdelta, hexactDelta, -, htext, hempty⟩ := h
  have hsays : Says ds "text" piece := by
    by_cases htype : type = "text_delta"
    · rw [if_pos htype] at htext
      exact .inl htext
    · rw [if_neg htype] at htext
      exact .inr ⟨hempty htype, .inl htext⟩
  rw [contentBlockDelta, hdata, Option.bind_some]
  simp only [record, field_of_exact _ _ hexact (List.mem_singleton_self _), hdelta,
    hsays.field hexactDelta (List.mem_singleton_self _)]

theorem messageDelta_of_isEnd {m : Message} {ev : Event} (h : IsEnd m ev) :
    messageDelta ev.data = some ⟨m.stopReason, m.outputTokens.1⟩ := by
  obtain ⟨ms, ds, us, ⟨-, hdata⟩, hexact, hdelta, hexactDelta, hstop, husage,
    hexactUsage, houtput⟩ := h
  rw [messageDelta, hdata, Option.bind_some]
  simp only [record, field_of_exact _ _ hexact (show "delta" ∈ ["delta", "usage"] by decide),
    field_of_exact _ _ hexact (show "usage" ∈ ["delta", "usage"] by decide), hdelta, husage,
    hstop.field hexactDelta (List.mem_singleton_self _),
    houtput.field hexactUsage (List.mem_singleton_self _)]
  rfl

/-- The reader at the start of a message. -/
def started (r : StreamReader) (m : Message) : StreamReader :=
  { r with
    inputToks := m.inputTokens.1
    cacheCreationToks := m.cacheCreationInputTokens.1
    cacheReadToks := m.cacheReadInputTokens.1 }

theorem event_start {m : Message} {ev : Event} (h : IsStart m ev) (hr : r.adapter = .claude) :
    ∃ c : Chunk, r.event json.withClaude ev = some (.ok c, started r m) ∧ c.deltaContent = "" ∧
      c.finishReason = "" ∧ c.id = m.id ∧ c.model = m.model ∧ c.usage = none := by
  have hread : json.withClaude.messageStart ev.data = some _ := messageStart_of_isStart h
  obtain ⟨ms, inner, us, ⟨htype, -⟩, -⟩ := h
  simp only [StreamReader.event, started, hr, StreamReader.claudeEvent, if_pos htype, hread]
  refine ⟨_, rfl, ?_⟩
  exact ⟨rfl, rfl, rfl, rfl, rfl⟩

theorem event_delta {piece : String} {ev : Event} (h : IsDelta piece ev)
    (hr : r.adapter = .claude) :
    ∃ c : Chunk, r.event json.withClaude ev = some (.ok c, r) ∧ IsPiece piece c := by
  have hread : json.withClaude.contentBlockDelta ev.data = some _ := contentBlockDelta_of_isDelta h
  obtain ⟨ms, ds, type, ⟨htype, -⟩, -⟩ := h
  have hstart : ev.event ≠ utf8 "message_start" := htype ▸ by decide
  simp only [StreamReader.event, hr, StreamReader.claudeEvent, if_neg hstart, if_pos htype, hread]
  exact ⟨_, rfl, ⟨rfl, rfl, rfl, rfl, rfl⟩⟩

theorem event_boundary {ev : Event}
    (h : ev.event = utf8 "content_block_start" ∨ ev.event = utf8 "content_block_stop")
    (hr : r.adapter = .claude) :
    ∃ c : Chunk, r.event json.withClaude ev = some (.ok c, r) ∧ IsPiece "" c := by
  have hne : ev.event ≠ utf8 "message_start" ∧ ev.event ≠ utf8 "content_block_delta" ∧
      ev.event ≠ utf8 "message_delta" ∧ ev.event ≠ utf8 "message_stop" := by
    rcases h with h | h <;> rw [h] <;> decide
  simp only [StreamReader.event, hr, StreamReader.claudeEvent, if_neg hne.1, if_neg hne.2.1,
    if_neg hne.2.2.1, if_neg hne.2.2.2, if_pos h]
  exact ⟨_, rfl, ⟨rfl, rfl, rfl, rfl, rfl⟩⟩

theorem event_end {m : Message} {ev : Event} (h : IsEnd m ev) (hr : r.adapter = .claude) :
    ∃ c : Chunk, (started r m).event json.withClaude ev = some (.ok c, started r m) ∧
    c.deltaContent = "" ∧
      c.finishReason = mapStopReason m.stopReason ∧ c.id = "" ∧ c.model = "" ∧
      c.usage = some m.usage := by
  have hread : json.withClaude.messageDelta ev.data = some _ := messageDelta_of_isEnd h
  obtain ⟨ms, ds, us, ⟨htype, -⟩, -⟩ := h
  have hstart : ev.event ≠ utf8 "message_start" := htype ▸ by decide
  have hdelta : ev.event ≠ utf8 "content_block_delta" := htype ▸ by decide
  have hr' : (started r m).adapter = .claude := hr
  simp only [StreamReader.event, hr', StreamReader.claudeEvent, if_neg hstart,
    if_neg hdelta, if_pos htype, hread]
  refine ⟨_, rfl, ?_⟩
  exact ⟨rfl, rfl, rfl, rfl, rfl⟩

theorem event_stop {ev : Event} (h : ev.event = utf8 "message_stop") (hr : r.adapter = .claude) :
    r.event json.withClaude ev = some (.error .eof, r) := by
  have hne : ev.event ≠ utf8 "message_start" ∧ ev.event ≠ utf8 "content_block_delta" ∧
      ev.event ≠ utf8 "message_delta" := by
    rw [h]
    decide
  simp only [StreamReader.event, hr, StreamReader.claudeEvent, if_neg hne.1, if_neg hne.2.1,
    if_neg hne.2.2, if_pos h]

/-- Events that each mean a piece of text. -/
theorem decode_pieces {pieces : List String} {evs : List Event}
    (h : List.Forall₂ (fun piece ev ↦ ∃ c : Chunk,
      r.event json.withClaude ev = some (.ok c, r) ∧ IsPiece piece c) pieces evs)
      (rest : List Event) :
    ∃ cs, List.Forall₂ IsPiece pieces cs ∧ r.decode json.withClaude ending (evs ++ rest) =
      (cs ++ (r.decode json.withClaude ending rest).1,
        (r.decode json.withClaude ending rest).2) := by
  induction h with
  | nil => exact ⟨[], .nil, rfl⟩
  | cons hev _ ih =>
    obtain ⟨c, hc, hpiece⟩ := hev
    obtain ⟨cs, hpieces, hdecode⟩ := ih
    refine ⟨c :: cs, .cons hpiece hpieces, ?_⟩
    rw [List.cons_append, StreamReader.decode, hc]
    simp only [hdecode]
    rfl

/-- The pieces of the blocks of a message. -/
theorem pieces_of_blocks {content : List Block} {blocks : List (List Event)}
    (h : List.Forall₂ IsBlock content blocks) (hr : r.adapter = .claude) :
    ∃ pieces, List.Forall₂ (fun piece ev ↦ ∃ c : Chunk,
        r.event json.withClaude ev = some (.ok c, r) ∧ IsPiece piece c) pieces blocks.flatten ∧
      String.join pieces = String.join (content.map Block.said) := by
  induction h with
  | nil => exact ⟨[], .nil, rfl⟩
  | cons hblock _ ih =>
    obtain ⟨start, pieces, deltas, stop, rfl, hstart, hdeltas, hstop, hjoin⟩ := hblock
    obtain ⟨rest, hrest, hjoinRest⟩ := ih
    refine ⟨"" :: pieces ++ [""] ++ rest, ?_, ?_⟩
    · rw [List.flatten_cons]
      refine List.rel_append (List.rel_append (.cons (event_boundary (.inl hstart) hr) ?_) ?_) hrest
      · exact hdeltas.imp fun _ _ h ↦ event_delta h hr
      · exact .cons (event_boundary (.inr hstop) hr) .nil
    · simp [String.join_append, String.join_cons, hjoin, hjoinRest]

/-! ### The whole stream -/

/-- The first of the texts that is not empty, when most are empty. -/
theorem find_ne_empty {s : String} {l : List String} (h : ∀ t ∈ l, t = "") :
    ((s :: l).find? fun t ↦ t ≠ "").getD "" = s := by
  have hnone : l.find? (fun t ↦ t ≠ "") = none :=
    List.find?_eq_none.mpr fun t ht ↦ by simp [h t ht]
  rw [List.find?_cons, hnone]
  by_cases hs : s = ""
  · simp [hs]
  · simp [hs]

theorem pieces_of_chunks {pieces : List String} {cs : List Chunk}
    (h : List.Forall₂ IsPiece pieces cs) :
    cs.map Chunk.deltaContent = pieces ∧ ∀ c ∈ cs, c.finishReason = "" ∧ c.id = "" ∧
    c.model = "" := by
  induction h with
  | nil => exact ⟨rfl, fun c hc ↦ absurd hc List.not_mem_nil⟩
  | cons hpiece _ ih =>
    obtain ⟨hpieces, hplain⟩ := ih
    rw [List.map_cons, hpieces, hpiece.deltaContent]
    exact ⟨rfl, List.forall_mem_cons.mpr ⟨⟨hpiece.finishReason, hpiece.id, hpiece.model⟩, hplain⟩⟩

/-- The chunks of a message add up to it. -/
theorem fold_message {m : Message} {pieces : List String} {first last : Chunk} {cs : List Chunk}
    (hfirst : first.deltaContent = "" ∧ first.finishReason = "" ∧ first.id = m.id ∧
      first.model = m.model ∧
      first.usage = none)
    (hcs : List.Forall₂ IsPiece pieces cs) (hjoin : String.join pieces = m.text)
    (hlast : last.deltaContent = "" ∧ last.finishReason = mapStopReason m.stopReason ∧
      last.id = "" ∧
      last.model = "" ∧ last.usage = some m.usage) :
    fold (first :: cs ++ [last]) =
      ⟨m.text, mapStopReason m.stopReason, m.id, m.model, some m.usage⟩ := by
  obtain ⟨hpieces, hplain⟩ := pieces_of_chunks hcs
  obtain ⟨htext, hreason, hid, hmodel, -⟩ := hfirst
  obtain ⟨htext', hreason', hid', hmodel', husage'⟩ := hlast
  have hreasons : ∀ t ∈ ((first :: cs).map Chunk.finishReason).reverse, t = "" := by
    intro t ht
    obtain ⟨c, hc, rfl⟩ := List.mem_map.mp (List.mem_reverse.mp ht)
    rcases List.mem_cons.mp hc with rfl | hc
    · exact hreason
    · exact (hplain c hc).1
  have hids : ∀ t ∈ (cs ++ [last]).map Chunk.id, t = "" := by
    simpa [hid', or_imp, forall_and] using fun c hc ↦ (hplain c hc).2.1
  have hmodels : ∀ t ∈ (cs ++ [last]).map Chunk.model, t = "" := by
    simpa [hmodel', or_imp, forall_and] using fun c hc ↦ (hplain c hc).2.2
  have htexts : (first :: cs ++ [last]).map Chunk.deltaContent = "" :: pieces ++ [""] := by
    simp [htext, htext', hpieces]
  have hreverse : ((first :: cs ++ [last]).map Chunk.finishReason).reverse =
      mapStopReason m.stopReason :: ((first :: cs).map Chunk.finishReason).reverse := by
    simp [hreason']
  have husage : lastUsage (first :: cs ++ [last]) = some m.usage := by
    rw [lastUsage, List.filterMap_append, List.filterMap_cons_some husage', List.filterMap_nil,
      List.getLast?_append, List.getLast?_singleton, Option.some_or]
  have hidList : (first :: cs ++ [last]).map Chunk.id = m.id :: (cs ++ [last]).map Chunk.id :=
    congrArg (· :: _) hid
  have hmodelList :
      (first :: cs ++ [last]).map Chunk.model = m.model :: (cs ++ [last]).map Chunk.model :=
    congrArg (· :: _) hmodel
  rw [fold, husage, htexts, hreverse, find_ne_empty hreasons, hidList,
    find_ne_empty hids, hmodelList, find_ne_empty hmodels]
  simp [String.join_append, String.join_cons, hjoin]

variable (json r ending) in
/-- **A stream is read as the message that it carries.** -/
theorem decode_carries {m : Message} {evs : List Event} (h : m.Carries evs)
    (hr : r.adapter = .claude) : ∃ chunks, r.decode json.withClaude ending evs = (chunks, .eof) ∧
      fold chunks = ⟨m.text, mapStopReason m.stopReason, m.id, m.model, some m.usage⟩ := by
  obtain ⟨start, blocks, delta, stop, hevs, hstart, hblocks, hdelta, hstop⟩ := h
  have hr' : (started r m).adapter = .claude := hr
  obtain ⟨first, hfirst, hfirstChunk⟩ := event_start hstart hr
  obtain ⟨last, hlast, hlastChunk⟩ := event_end hdelta hr
  obtain ⟨pieces, hpieces, hjoin⟩ := pieces_of_blocks hblocks hr'
  obtain ⟨cs, hcs, hdecode⟩ : ∃ cs, List.Forall₂ IsPiece pieces cs ∧
      (started r m).decode json.withClaude ending (blocks.flatten ++ [delta, stop]) = _ :=
    decode_pieces hpieces [delta, stop]
  have hend : (started r m).decode json.withClaude ending [delta, stop] = ([last], .eof) := by
    rw [StreamReader.decode, hlast]
    simp only [StreamReader.decode, event_stop hstop hr']
  refine ⟨first :: cs ++ [last], ?_, fold_message hfirstChunk hcs hjoin hlastChunk⟩
  rw [← decode_filter hr, hevs, List.cons_append, StreamReader.decode, hfirst]
  simp only [hdecode, hend]
  rfl

end Decode

/-- The reader's chunks for a stream add up to what `ParseResponse` makes of a body, and end with
`io.EOF`. -/
def Agrees (json : Json) (body : Bytes) (sse : Body) : Prop :=
  ∃ resp choice, parseResponse body = some resp ∧ resp.choices = [choice] ∧
    ((parseStream .claude sse).chunks json.withClaude).2 = .eof ∧
    fold ((parseStream .claude sse).chunks json.withClaude).1 =
      ⟨choice.message.content.text, choice.finishReason, resp.id, resp.model, resp.usage⟩

end Claude

/-- **Streaming agrees with not streaming**: for a message and the frames of a stream that carries
it, however their bytes arrive, as long as no line is too long. -/
theorem claude_stream_agrees (json : Json) (m : Claude.Message) (body : Bytes) (hbody : m.Body body)
    (evs : List Event) (hevs : m.Carries evs) (hplain : ∀ ev ∈ evs, ev.Plain)
    (hlimit : ∀ ev ∈ evs, ∀ line ∈ splitLines [] (encode ev), line.length < maxTokenSize)
    (reads : List Bytes) (hreads : reads.flatten = evs.flatMap encode) :
    Claude.Agrees json body ⟨reads.flatten, .eof⟩ := by
  obtain ⟨requestID, hparse⟩ := Claude.parseResponse_body hbody
  have hdrain := newDecoder_encode hplain hlimit
  rw [← hreads, Decoder.drain_eq] at hdrain
  obtain ⟨hevents, hending⟩ := Prod.mk.inj hdrain
  obtain ⟨chunks, hchunks, hfold⟩ :=
    Claude.decode_carries json (parseStream .claude ⟨reads.flatten, .eof⟩) .eof hevs rfl
  have hall :
      (parseStream .claude ⟨reads.flatten, .eof⟩).chunks json.withClaude = (chunks, .eof) := by
    rw [StreamReader.chunks_eq_decode]
    show StreamReader.decode _ (newDecoder ⟨reads.flatten, .eof⟩).ending _
      (newDecoder ⟨reads.flatten, .eof⟩).events = _
    rw [hevents, hending, hchunks]
  refine ⟨_, _, hparse, rfl, congrArg Prod.snd hall, ?_⟩
  rw [hall, hfold]
  rfl

/-! ### A message with one text -/

namespace Claude

/-- An event with a JSON object. -/
def frame (type : String) (data : List (String × JsonValue)) : Event :=
  ⟨utf8 type, [], JsonValue.marshal (.obj data)⟩

theorem plain_frame {type : String} (htype : 10 ∉ utf8 type ∧ 13 ∉ utf8 type)
    (data : List (String × JsonValue)) : (frame type data).Plain where
  event := htype
  id := ⟨List.not_mem_nil, List.not_mem_nil⟩
  data := fun h ↦ absurd (JsonValue.marshal_line _ _ h) (by decide)

theorem payload_frame (type : String) (data : List (String × JsonValue)) :
    Payload (frame type data) type data :=
  ⟨rfl, JsonValue.unmarshal_marshal _⟩

def Message.sample (s : String) : Message :=
  ⟨"msg_1", "claude-sonnet", [.text s], "end_turn", ⟨10, by decide⟩, ⟨5, by decide⟩, ⟨0, by decide⟩,
    ⟨3, by decide⟩⟩

/-- The message as the body of a response. -/
def sampleBody (s : String) : Bytes :=
  JsonValue.marshal
  (.obj [("id", .str "msg_1"), ("type", .str "message"), ("model", .str "claude-sonnet"),
    ("content", .arr [.obj [("type", .str "text"), ("text", .str s)]]),
    ("stop_reason", .str "end_turn"),
    ("usage", .obj [("input_tokens", .num 10), ("cache_read_input_tokens", .num 3),
      ("output_tokens", .num 5)])])

theorem sampleBody_body (s : String) : (Message.sample s).Body (sampleBody s) := by
  refine ⟨_, JsonValue.unmarshal_marshal _, ?_⟩
  constructor
  case exact => exact of_decide_eq_true rfl
  case id => exact .inl rfl
  case model => exact .inl rfl
  case content => exact ⟨_, rfl, .cons ⟨_, rfl, of_decide_eq_true rfl, rfl, rfl⟩ .nil⟩
  case stopReason => exact .inl rfl
  case usage =>
    exact ⟨_, rfl, of_decide_eq_true rfl, .inl rfl, .inl rfl, .inr ⟨rfl, .inl rfl⟩, .inl rfl⟩
  case requestID => exact ⟨"", .inr ⟨rfl, .inl rfl⟩⟩

def sampleStart : Event :=
  frame "message_start" [("type", .str "message_start"), ("message", .obj [("id", .str "msg_1"),
    ("model", .str "claude-sonnet"), ("content", .arr []), ("stop_reason", .null), ("usage",
      .obj [("input_tokens", .num 10), ("cache_read_input_tokens", .num 3),
        ("output_tokens", .num 1)])])]

def sampleBlockStart : Event :=
  frame "content_block_start" [("type", .str "content_block_start"), ("index", .num 0)]

def sampleDelta (piece : String) : Event :=
  frame "content_block_delta" [("type", .str "content_block_delta"), ("index", .num 0),
    ("delta", .obj [("type", .str "text_delta"), ("text", .str piece)])]

def sampleBlockStop : Event :=
  frame "content_block_stop" [("type", .str "content_block_stop"), ("index", .num 0)]

def sampleEnd : Event :=
  frame "message_delta"
  [("type", .str "message_delta"), ("delta", .obj [("stop_reason", .str "end_turn")]),
    ("usage", .obj [("output_tokens", .num 5)])]

def sampleStop : Event := frame "message_stop" [("type", .str "message_stop")]

/-- The message as a stream, with its text in pieces, and a `ping`. -/
def sampleStream (pieces : List String) : List Event :=
  sampleStart :: frame "ping" [("type", .str "ping")] :: sampleBlockStart ::
  pieces.map sampleDelta ++
    [sampleBlockStop, sampleEnd, sampleStop]

theorem sampleStart_isStart (s : String) : IsStart (.sample s) sampleStart :=
  ⟨_, _, _, payload_frame .., of_decide_eq_true rfl, rfl, of_decide_eq_true rfl, .inl rfl,
    .inl rfl, rfl, of_decide_eq_true rfl, .inl rfl, .inr ⟨rfl, .inl rfl⟩, .inl rfl⟩

theorem not_known_ping : known (frame "ping" [("type", .str "ping")]) = false := by decide

theorem sampleDelta_isDelta (piece : String) : IsDelta piece (sampleDelta piece) :=
  ⟨_, _, "text_delta", payload_frame .., of_decide_eq_true rfl, rfl,
    of_decide_eq_true rfl, rfl, rfl, fun h ↦ absurd rfl h⟩

theorem sampleStream_carries {pieces : List String} {s : String} (h : String.join pieces = s) :
    (Message.sample s).Carries (sampleStream pieces) := by
  have hdeltas : List.Forall₂ IsDelta pieces (pieces.map sampleDelta) := by
    clear h
    induction pieces with
    | nil => exact .nil
    | cons piece pieces ih => exact .cons (sampleDelta_isDelta piece) ih
  have hknown : (pieces.map sampleDelta).filter known = pieces.map sampleDelta := by
    refine List.filter_eq_self.mpr fun ev hev ↦ ?_
    obtain ⟨piece, -, rfl⟩ := List.mem_map.mp hev
    show eventTypes.any (fun type ↦ utf8 "content_block_delta" = utf8 type) = true
    decide
  refine ⟨sampleStart, [sampleBlockStart :: pieces.map sampleDelta ++ [sampleBlockStop]],
    sampleEnd, sampleStop, ?_, sampleStart_isStart s,
    .cons ⟨_, pieces, _, _, rfl, rfl, hdeltas, rfl, h⟩ .nil, ?_, rfl⟩
  · have hfixed :
        known sampleStart = true ∧ known sampleBlockStart = true ∧ known sampleBlockStop = true ∧
        known sampleEnd = true ∧ known sampleStop = true := by decide
    simp only [sampleStream, List.cons_append, List.filter_cons, List.filter_append, hknown,
      not_known_ping, hfixed, List.filter_nil, if_true, Bool.false_eq_true, if_false]
    simp
  · exact ⟨_, _, _, payload_frame .., of_decide_eq_true rfl, rfl, of_decide_eq_true rfl,
      .inl rfl, rfl, of_decide_eq_true rfl, .inl rfl⟩

theorem plain_sampleStream (pieces : List String) : ∀ ev ∈ sampleStream pieces, ev.Plain := by
  intro ev hev
  simp only [sampleStream, List.cons_append, List.mem_cons, List.mem_append, List.mem_map,
    List.not_mem_nil, or_false] at hev
  rcases hev with rfl | rfl | rfl | ⟨piece, -, rfl⟩ | rfl | rfl | rfl <;>
    exact plain_frame (by decide) _

end Claude

open Claude in
/-- The text in two pieces, and the bytes one at a time. -/
theorem claude_stream_agrees_sample : Agrees .sample (sampleBody "Hello")
    ⟨(((sampleStream ["Hel", "lo"]).flatMap encode).map fun b ↦ [b]).flatten, .eof⟩ := by
  refine claude_stream_agrees .sample (.sample "Hello") _ (sampleBody_body "Hello")
    (sampleStream ["Hel", "lo"]) (sampleStream_carries (by decide)) (plain_sampleStream _)
    (by decide +kernel) _ ?_
  rw [← List.flatMap_def, List.flatMap_singleton']

namespace Claude

/-! ### A line that is too long -/

theorem length_le_flatMap {α β : Type} {f : α → List β} (h : ∀ a, 1 ≤ (f a).length) (as : List α) :
    as.length ≤ (as.flatMap f).length := by
  have hsum :=
    List.length_le_sum_of_one_le (as.map fun a ↦ (f a).length)
    (List.forall_mem_map.mpr fun a _ ↦ h a)
  rwa [List.length_map, ← List.length_flatMap] at hsum

theorem length_le_quoted (cs : List Char) : cs.length ≤ (JsonText.quoted cs).length := by
  have hescape : ∀ c, 1 ≤ (JsonText.escape c).length := by
    intro c
    rw [JsonText.escape]
    split_ifs <;> simp
  have hflat := length_le_flatMap hescape cs
  rw [JsonText.quoted, List.length_append]
  omega

theorem length_text_le_marshal (v : JsonValue) : v.text.length ≤ v.marshal.length := by
  refine length_le_flatMap (fun c ↦ ?_) v.text
  rw [String.length_utf8EncodeChar]
  exact Char.utf8Size_pos c

theorem length_le_sampleDelta (s : String) : s.toList.length ≤ (sampleDelta s).data.length := by
  have hquoted := length_le_quoted s.toList
  have hmarshal :=
    length_text_le_marshal (.obj [("type", .str "content_block_delta"), ("index", .num 0),
    ("delta", .obj [("type", .str "text_delta"), ("text", .str s)])])
  refine Nat.le_trans ?_ hmarshal
  simp only [JsonValue.text, JsonValue.fieldsText, List.length_append, List.length_cons]
  omega

/-- A frame whose line is too long: the decoder returns the events before it, and fails. -/
theorem drain_cut {evs : List Event} (h : ∀ ev ∈ evs, ev.Plain) {type : Bytes} (htype : 13 ∉ type) :
    (⟨evs.flatMap encodeLines ++ [fieldLine "event" type], .failed, .empty⟩ : Decoder).drain =
      (evs, .failed) := by
  induction evs with
  | nil =>
    have hnext : (⟨[fieldLine "event" type], .failed, .empty⟩ : Decoder).next =
        (.error .failed, ⟨[], .failed, Frame.empty.read (fieldLine "event" type)⟩) :=
      nextEvent_fieldLine (by decide) htype
    exact Decoder.drain_of_error hnext
  | cons ev evs ih =>
    obtain ⟨hev, hevs⟩ := List.forall_mem_cons.mp h
    have hnext : (⟨(ev :: evs).flatMap encodeLines ++ [fieldLine "event" type], .failed, .empty⟩ :
        Decoder).next =
        (.ok ev, ⟨evs.flatMap encodeLines ++ [fieldLine "event" type], .failed, .empty⟩) := by
      rw [List.flatMap_cons, List.append_assoc]
      exact nextEvent_encode hev
    rw [Decoder.drain_of_ok hnext, ih hevs]

/-- What comes before the text. -/
def sampleFront : List Event :=
  [sampleStart, frame "ping" [("type", .str "ping")], sampleBlockStart]

theorem front_short : ∀ line ∈ sampleFront.flatMap encodeLines ++
    [fieldLine "event" (utf8 "content_block_delta")], line.length < maxTokenSize := by
  decide +kernel

/-- The decoder of a stream whose text is too long for a line. -/
theorem newDecoder_long {s : String} (hs : maxTokenSize ≤ s.toList.length) :
    newDecoder ⟨(sampleStream [s]).flatMap encode, .eof⟩ =
      ⟨sampleFront.flatMap encodeLines ++ [fieldLine "event" (utf8 "content_block_delta")], .failed,
        .empty⟩ := by
  have hdata : 10 ∉ (sampleDelta s).data :=
    fun h ↦ absurd (JsonValue.marshal_line _ _ h) (by decide)
  have hlong : ¬ (fieldLine "data" (sampleDelta s).data).length < maxTokenSize := by
    have hlength := length_le_sampleDelta s
    rw [fieldLine, List.length_append]
    omega
  have hlines : splitLines [] ((sampleStream [s]).flatMap encode) =
      (sampleFront.flatMap encodeLines ++ [fieldLine "event" (utf8 "content_block_delta")]) ++
        fieldLine "data" (sampleDelta s).data :: [] ::
        [sampleBlockStop, sampleEnd, sampleStop].flatMap
          encodeLines := by
    have hsplit : (sampleDelta s).data.splitOn 10 = [(sampleDelta s).data] :=
      List.splitOn_eq_singleton hdata
    have hdelta : encodeLines (sampleDelta s) =
        [fieldLine "event" (utf8 "content_block_delta"),
          fieldLine "data" (sampleDelta s).data, []] := by
      have hname : utf8 "content_block_delta" ≠ [] := by decide
      rw [encodeLines, hsplit, if_neg (show (sampleDelta s).event ≠ [] from hname)]
      rfl
    rw [splitLines_encode (plain_sampleStream [s])]
    simp only [sampleStream, sampleFront, List.map_cons, List.map_nil, List.flatMap_cons,
      List.flatMap_nil, List.cons_append, List.nil_append, List.append_nil,
      List.append_assoc, hdelta]
  have hall : ¬ ((splitLines [] ((sampleStream [s]).flatMap encode)).all
      fun line ↦ line.length < maxTokenSize) = true := by
    rw [hlines, List.all_append, List.all_cons, decide_eq_false hlong]
    simp
  have htake : (splitLines [] ((sampleStream [s]).flatMap encode)).takeWhile
      (fun line ↦ line.length < maxTokenSize) =
        sampleFront.flatMap encodeLines ++ [fieldLine "event" (utf8 "content_block_delta")] := by
    rw [hlines,
      List.takeWhile_append_of_pos (fun line hline ↦ decide_eq_true (front_short line hline)),
      List.takeWhile_cons_of_neg (by simpa using hlong), List.append_nil]
  have hstrip : (sampleFront.flatMap encodeLines ++
      [fieldLine "event" (utf8 "content_block_delta")]).map stripCR =
        sampleFront.flatMap encodeLines ++ [fieldLine "event" (utf8 "content_block_delta")] := by
    decide +kernel
  rw [newDecoder, scan, htake, hstrip, scanEnd, if_neg hall]

/-- None of the events before the text ends the stream. -/
theorem decode_front (json : Json) (r : StreamReader) (hr : r.adapter = .claude) :
    (r.decode json.withClaude .failed sampleFront).2 = .failed := by
  obtain ⟨first, hfirst, -⟩ :
      ∃ c : Chunk, r.event json.withClaude sampleStart = some (.ok c, started r (.sample "")) ∧ _ :=
    event_start (sampleStart_isStart "") hr
  have hr' : (started r (.sample "")).adapter = .claude := hr
  have hping :
      (started r (.sample "")).event json.withClaude (frame "ping" [("type", .str "ping")]) =
      none :=
    event_of_not_known not_known_ping hr'
  obtain ⟨c, hc, -⟩ : ∃ c : Chunk, (started r (.sample "")).event json.withClaude sampleBlockStart =
      some (.ok c, started r (.sample "")) ∧ IsPiece "" c := event_boundary (.inl rfl) hr'
  simp only [sampleFront, StreamReader.decode, hfirst, hping, hc]

/-- **A text that is too long for a line**: the reader fails. -/
theorem not_agrees_long (json : Json) {s : String} (hs : maxTokenSize ≤ s.toList.length)
    (body : Bytes) : ¬ Agrees json body ⟨(sampleStream [s]).flatMap encode, .eof⟩ := by
  rintro ⟨-, -, -, -, heof, -⟩
  have hfront : ∀ ev ∈ sampleFront, ev.Plain := fun ev hev ↦ plain_sampleStream [s] ev (by
    simp only [sampleFront, sampleStream, List.cons_append, List.mem_cons, List.not_mem_nil,
      or_false] at hev ⊢
    tauto)
  have hdrain := drain_cut hfront (show 13 ∉ utf8 "content_block_delta" by decide)
  rw [← newDecoder_long hs, Decoder.drain_eq] at hdrain
  obtain ⟨hevents, hending⟩ := Prod.mk.inj hdrain
  rw [StreamReader.chunks_eq_decode] at heof
  have hdecode : (parseStream .claude ⟨(sampleStream [s]).flatMap encode, .eof⟩).dec =
    newDecoder ⟨(sampleStream [s]).flatMap encode, .eof⟩ := rfl
  rw [hdecode, hevents, hending] at heof
  rw [decode_front json _ rfl] at heof
  cases heof

end Claude

open Claude in
/-- A stream need not agree with the message that it carries, if its lines may be as long as they
like: the one text of this message is too long for the decoder. -/
theorem claude_stream_too_long :
    ∃ (m : Claude.Message) (body : Bytes) (evs : List Event), m.Body body ∧
    m.Carries evs ∧ (∀ ev ∈ evs, ev.Plain) ∧ ¬ Agrees .sample body ⟨evs.flatMap encode, .eof⟩ := by
  obtain ⟨s, hs⟩ : ∃ s : String, maxTokenSize ≤ s.toList.length :=
    ⟨String.ofList (List.replicate maxTokenSize 'a'), by
      rw [String.toList_ofList, List.length_replicate]⟩
  exact ⟨.sample s, sampleBody s, sampleStream [s], sampleBody_body s,
    sampleStream_carries (by rw [String.join_cons, String.join_nil, String.append_empty]),
    plain_sampleStream [s], not_agrees_long .sample hs (sampleBody s)⟩

end Voxeltoad
