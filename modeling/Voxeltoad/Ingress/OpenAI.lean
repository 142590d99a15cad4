import Voxeltoad.Ingress.Codec
import Voxeltoad.Lib.Json

/-!
# The OpenAI codec

The stream encoder of `internal/ingress/openai`.  A chunk that came from an OpenAI upstream carries
the payload it was read from, and that is what the client gets; any other chunk is written anew.

`openai_passthrough` is what this comes to end to end, from the body of an OpenAI upstream to what
an OpenAI client reads: the payloads before the upstream's `[DONE]`, up to the first that is not a
chunk, and one `[DONE]`.
-/

set_option autoImplicit false

namespace Voxeltoad

namespace OpenAI

/-- A string field with `omitempty`. -/
def omitEmpty (name value : String) : List (String × JsonValue) :=
  if value = "" then [] else [(name, .str value)]

/-- A `wireStreamToolCallDelta` in JSON. -/
def toolCallJson (tc : ToolCallDelta) : JsonValue :=
  .obj ([("index", .num tc.index)] ++ omitEmpty "id" tc.id ++ omitEmpty "type" tc.type ++
    [("function",
      .obj (omitEmpty "name" tc.function.name ++ omitEmpty "arguments" tc.function.arguments))])

/-- `adapter.Usage` in JSON. -/
def usageJson (u : Usage) : JsonValue :=
  .obj ([("prompt_tokens", .num u.promptTokens), ("completion_tokens", .num u.completionTokens),
      ("total_tokens", .num u.totalTokens)] ++
    if u.cachedPromptTokens = 0 then [] else [("cached_tokens", .num u.cachedPromptTokens)])

/-- The one choice of a chunk, in JSON. -/
def choiceJson (c : Chunk) : JsonValue :=
  .obj
    [("index", .num 0),
      ("delta",
        .obj (omitEmpty "role" c.deltaRole ++ omitEmpty "content" c.deltaContent ++
          if c.deltaToolCalls = [] then []
          else [("tool_calls", .arr (c.deltaToolCalls.map toolCallJson))])),
      ("finish_reason", if c.finishReason = "" then .null else .str c.finishReason)]

/-- `toWireChunk`, in JSON.  A chunk that only reports usage has no choices. -/
def toWireChunk (c : Chunk) : JsonValue :=
  .obj ([("id", .str c.id), ("object", .str "chat.completion.chunk"), ("model", .str c.model),
      ("choices",
        .arr (if c.deltaRole ≠ "" ∨ c.deltaContent ≠ "" ∨ c.finishReason ≠ "" ∨
            c.deltaToolCalls ≠ [] then [choiceJson c] else []))] ++
    match c.usage with
    | none => []
    | some u => [("usage", usageJson u)])

/-- `EncodeChunk`. -/
def encodeChunk (c : Chunk) : Bytes :=
  if c.raw ≠ [] ∧ c.rawProtocol = "openai" then encode ⟨[], [], c.raw⟩
  else encode ⟨[], [], (toWireChunk c).marshal⟩

/-- `sse.Done`. -/
def done : Bytes := utf8 "[DONE]"

/-- **The OpenAI codec.**  Its encoder has no state. -/
def codec : StreamCodec Unit where
  newStreamEncoder := ()
  encodeChunk _ c := (encodeChunk c, ())
  close _ := []
  streamTerminator := encode ⟨[], [], done⟩

/-! ## Passing payloads through -/

/-- A frame that is only a payload. -/
def dataEvent (payload : Bytes) : Event := ⟨[], [], payload⟩

/-- The payloads of an upstream that are chunks, up to `[DONE]` or the first that is not. -/
def chunkPayloads (json : Json) (evs : List Event) : List Bytes :=
  ((evs.map Event.data).takeWhile fun p ↦ p ≠ done).takeWhile fun p ↦ (json.streamChunk p).isSome

variable {json : Json}

theorem chunkPayloads_cons (ev : Event) (evs : List Event) :
    chunkPayloads json (ev :: evs) =
      if ev.data ≠ done ∧ (json.streamChunk ev.data).isSome then
        ev.data :: chunkPayloads json evs
      else [] := by
  by_cases hdone : ev.data = done
  · simp [chunkPayloads, hdone]
  · cases hchunk : json.streamChunk ev.data <;> simp [chunkPayloads, hdone, hchunk]

variable (json) in
/-- What the reader makes of the events: one chunk for each of these payloads, and it is in it. -/
theorem decode_openai {e : ReadError} {r : StreamReader} (hr : r.adapter = .openai)
    (evs : List Event) :
    ((r.decode json e evs).1.map Chunk.raw = chunkPayloads json evs) ∧
      ∀ c ∈ (r.decode json e evs).1, c.rawProtocol = "openai" := by
  induction evs with
  | nil => exact ⟨rfl, fun _ hc ↦ absurd hc List.not_mem_nil⟩
  | cons ev evs ih =>
    have hevent : r.event json ev = some (r.openAIEvent json ev) := by
      rw [StreamReader.event, hr]
    rw [StreamReader.decode, hevent, chunkPayloads_cons, StreamReader.openAIEvent]
    by_cases hdone : ev.data = utf8 "[DONE]"
    · rw [if_pos hdone, if_neg fun h ↦ h.1 hdone]
      exact ⟨rfl, fun _ hc ↦ absurd hc List.not_mem_nil⟩
    rw [if_neg hdone]
    cases hchunk : json.streamChunk ev.data with
    | none =>
      rw [if_neg (by simp)]
      exact ⟨rfl, fun _ hc ↦ absurd hc List.not_mem_nil⟩
    | some wc =>
      rw [if_pos ⟨hdone, rfl⟩]
      refine ⟨?_, List.forall_mem_cons.mpr ⟨rfl, ih.2⟩⟩
      rw [List.map_cons, ih.1]
      rfl

/-- Chunks that carry their payloads are written as they were read. -/
theorem encodeChunks_raw {cs : List Chunk}
    (hraw : ∀ c ∈ cs, c.raw ≠ [] ∧ c.rawProtocol = "openai") :
    codec.encodeChunks () cs = (((cs.map Chunk.raw).map dataEvent).flatMap encode, ()) := by
  induction cs with
  | nil => rfl
  | cons c cs ih =>
    obtain ⟨hc, hcs⟩ := List.forall_mem_cons.mp hraw
    have hcons : codec.encodeChunk () c = (encode (dataEvent c.raw), ()) := by
      simp only [codec, encodeChunk, if_pos hc, dataEvent]
    rw [StreamCodec.encodeChunks_cons, hcons, ih hcs]
    simp

/-- Close adds nothing, and the terminator is one more payload. -/
theorem written_raw {cs : List Chunk} (hraw : ∀ c ∈ cs, c.raw ≠ [] ∧ c.rawProtocol = "openai") :
    codec.written cs = ((cs.map Chunk.raw ++ [done]).map dataEvent).flatMap encode := by
  have hterminator : codec.streamTerminator = encode (dataEvent done) := rfl
  have hclose : codec.close () = [] := rfl
  have hstart : codec.newStreamEncoder = () := rfl
  rw [StreamCodec.written, hstart, encodeChunks_raw hraw]
  simp [hclose, hterminator]

theorem mem_chunkPayloads {evs : List Event} {p : Bytes} (h : p ∈ chunkPayloads json evs) :
    (∃ ev ∈ evs, ev.data = p) ∧ (json.streamChunk p).isSome = true := by
  rw [chunkPayloads] at h
  have hchunk := List.mem_takeWhile_imp h
  exact ⟨List.mem_map.mp ((List.takeWhile_prefix _).subset ((List.takeWhile_prefix _).subset h)),
    hchunk⟩

end OpenAI

open OpenAI in
/-- **From an OpenAI upstream to an OpenAI client.**  What the client reads is the longest run of
upstream payloads before `[DONE]` that are chunks, in order and unchanged, and then one `[DONE]`;
whatever else the upstream sends, and however it ends. -/
theorem openai_passthrough (json : Json) (hempty : json.streamChunk [] = none) (body : Body)
    (hlimit : ∀ line ∈ splitLines [] body.bytes, line.length < maxTokenSize)
    (hends : LineEnds body.bytes) (pc : PluginContext) :
    (clientEvents (codec.stream json .openai body pc)).map Event.data =
      chunkPayloads json body.decoder.events ++ [done] := by
  have hplain := events_plain hends
  have hr : (parseStream .openai body).adapter = .openai := rfl
  obtain ⟨hraws, hprotocol⟩ :=
    decode_openai json (e := (newDecoder body).ending) hr (newDecoder body).events
  rw [stream_eq]
  generalize (StreamReader.decode json (newDecoder body).ending (parseStream .openai body)
    (newDecoder body).events).1 = cs at hraws hprotocol ⊢
  have hraw : ∀ c ∈ cs, c.raw ≠ [] ∧ c.rawProtocol = "openai" := by
    intro c hc
    refine ⟨?_, hprotocol c hc⟩
    intro hnil
    have hchunk := (mem_chunkPayloads (hraws ▸ List.mem_map_of_mem hc)).2
    rw [hnil, hempty] at hchunk
    cases hchunk
  have hdata : ∀ e ∈ (cs.map Chunk.raw ++ [done]).map dataEvent, e.Plain := by
    intro e he
    obtain ⟨p, hp, rfl⟩ := List.mem_map.mp he
    refine ⟨oneLine_nil, oneLine_nil, ?_⟩
    rcases List.mem_append.mp hp with hp | hp
    · obtain ⟨ev, hev, rfl⟩ := (mem_chunkPayloads (hraws ▸ hp)).1
      exact (hplain ev hev).data
    · rw [List.mem_singleton.mp hp]
      decide
  rw [written_raw hraw, clientEvents_encode hdata, hraws, newDecoder_eq hlimit, List.map_map]
  exact List.map_id _

open OpenAI in
/-- A payload that is not a chunk ends the stream, and what comes after it is not relayed. -/
theorem openai_passthrough_malformed :
    let evs : List Event := [⟨utf8 "message", utf8 "7", payloadOne⟩, dataEvent (utf8 "oops"),
      dataEvent payloadTwo, dataEvent done]
    (clientEvents (codec.stream .sample .openai ⟨evs.flatMap encode, .eof⟩
        (newPluginContext (.sample true)))).map Event.data =
      [payloadOne, done] := by
  intro evs
  have hplain : ∀ e ∈ evs, e.Plain := by decide
  have hevs : (Body.mk (evs.flatMap encode) .eof).decoder.events = evs := clientEvents_encode hplain
  rw [openai_passthrough .sample (by decide) _ (by decide +kernel) (by decide +kernel), hevs]
  decide

end Voxeltoad
