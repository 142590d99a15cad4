import Voxeltoad.Ingress.Codec
import Voxeltoad.Lib.Json

/-!
# The Anthropic codec

The stream encoder of `internal/ingress/anthropic`.  An Anthropic message is a sequence of content
blocks, each started, filled and stopped; the chunks of an OpenAI stream are flat.  The encoder
opens a text block at the first text and a tool block at the first fragment of each tool call,
numbers the blocks as it opens them, and stops them all when the message is finished: at the first
chunk with a finish reason, or else in `Close`.

What a message is made of is a list of `Piece`s, and `Event.piece` is how a client reads one from an
event: the kind from the event's type, the number of the block from its payload.
-/

set_option autoImplicit false

namespace Voxeltoad

/-! ## Pieces of a message -/

/-- What an event of an Anthropic stream is to its reader. -/
inductive Piece where
  | messageStart
  | blockStart (i : Int)
  | blockDelta (i : Int)
  | blockStop (i : Int)
  | messageDelta
  | messageStop
  deriving DecidableEq, Repr

/-- The number of the block an event is about. -/
def Event.blockIndex (e : Event) : Option Int :=
  match (JsonValue.unmarshal e.data).bind (JsonValue.field "index") with
  | some (.num i) => some i
  | _ => none

/-- Read an event; `none` is one that is not part of a message. -/
def Event.piece (e : Event) : Option Piece :=
  if e.event = utf8 "message_start" then some .messageStart
  else if e.event = utf8 "content_block_start" then e.blockIndex.map .blockStart
  else if e.event = utf8 "content_block_delta" then e.blockIndex.map .blockDelta
  else if e.event = utf8 "content_block_stop" then e.blockIndex.map .blockStop
  else if e.event = utf8 "message_delta" then some .messageDelta
  else if e.event = utf8 "message_stop" then some .messageStop
  else none

/-- The chunk carries a frame of an Anthropic upstream. -/
def Chunk.isRaw (c : Chunk) : Bool := c.raw ≠ [] && c.rawProtocol = "anthropic"

namespace Anthropic

/-! ## Events -/

/-- Set a key of a map, unless it is there.  Go marshals the keys of a map in order. -/
def setKey (k : String) (v : JsonValue) :
    List (String × JsonValue) → List (String × JsonValue)
  | [] => [(k, v)]
  | (k', v') :: fields =>
    if k' < k then (k', v') :: setKey k v fields
    else if k' = k then (k', v') :: fields
    else (k, v) :: (k', v') :: fields

/-- A `map[string]any`. -/
def goMap (fields : List (String × JsonValue)) : List (String × JsonValue) :=
  fields.foldr (fun p m ↦ setKey p.1 p.2 m) []

/-- The event that `encodeSSE` encodes: the type of the event also goes into the payload. -/
def sseEvent (eventType : String) (payload : List (String × JsonValue)) : Event :=
  ⟨utf8 eventType, [],
    (JsonValue.obj (setKey "type" (.str eventType) (goMap payload))).marshal⟩

/-- `emitMessageStart`. -/
def emitMessageStart (messageID model : String) : Event :=
  sseEvent "message_start"
    [("message", .obj (goMap
      [("id", .str messageID), ("type", .str "message"), ("role", .str "assistant"),
        ("model", .str model), ("content", .arr []), ("stop_reason", .null),
        ("stop_sequence", .null),
        ("usage", .obj (goMap [("input_tokens", .num 0), ("output_tokens", .num 0)]))]))]

/-- `emitContentBlockStartText`. -/
def emitContentBlockStartText (idx : Nat) : Event :=
  sseEvent "content_block_start"
    [("index", .num idx),
      ("content_block", .obj (goMap [("type", .str "text"), ("text", .str "")]))]

/-- `emitContentBlockStartToolUse`. -/
def emitContentBlockStartToolUse (idx : Nat) (id name : String) : Event :=
  sseEvent "content_block_start"
    [("index", .num idx),
      ("content_block", .obj (goMap
        [("type", .str "tool_use"), ("id", .str id), ("name", .str name), ("input", .obj [])]))]

/-- `emitTextDelta`. -/
def emitTextDelta (idx : Nat) (text : String) : Event :=
  sseEvent "content_block_delta"
    [("index", .num idx),
      ("delta", .obj (goMap [("type", .str "text_delta"), ("text", .str text)]))]

/-- `emitInputJSONDelta`. -/
def emitInputJSONDelta (idx : Nat) (partialJSON : String) : Event :=
  sseEvent "content_block_delta"
    [("index", .num idx),
      ("delta", .obj (goMap
        [("type", .str "input_json_delta"), ("partial_json", .str partialJSON)]))]

/-- `emitContentBlockStop`. -/
def emitContentBlockStop (idx : Nat) : Event :=
  sseEvent "content_block_stop" [("index", .num idx)]

/-- `mapFinishReasonToStop`. -/
def mapFinishReasonToStop (reason : String) : String :=
  if reason = "stop" then "end_turn"
  else if reason = "length" then "max_tokens"
  else if reason = "tool_calls" then "tool_use"
  else reason

/-- The `message_delta` event of `emitFinish`. -/
def emitMessageDelta (finishReason : String) (outputTokens : Int) : Event :=
  sseEvent "message_delta"
    [("delta", .obj (goMap
      [("stop_reason", .str (mapFinishReasonToStop finishReason)), ("stop_sequence", .null)])),
      ("usage", .obj (goMap [("input_tokens", .num 0), ("output_tokens", .num outputTokens)]))]

/-- `StreamTerminator`. -/
def messageStop : Event := sseEvent "message_stop" []

/-! ### How they are read -/

theorem lookup_setKey_of_ne {k j : String} (v : JsonValue) (h : j ≠ k)
    (m : List (String × JsonValue)) : (setKey k v m).lookup j = m.lookup j := by
  have hne : (j == k) = false := by simpa using h
  induction m with
  | nil => simp [setKey, h]
  | cons p m ih =>
    rw [setKey]
    split
    · rw [List.lookup_cons, List.lookup_cons, ih]
    · split
      · rfl
      · rw [List.lookup_cons, hne]

theorem lookup_setKey {k : String} (v : JsonValue) {m : List (String × JsonValue)}
    (h : m.lookup k = none) : (setKey k v m).lookup k = some v := by
  induction m with
  | nil => simp [setKey]
  | cons p m ih =>
    rw [List.lookup_cons] at h
    rw [setKey]
    split at h
    · cases h
    · rename_i hkey
      split
      · rw [List.lookup_cons, hkey]
        exact ih h
      · split
        · rename_i heq
          simp [heq] at hkey
        · simp

theorem lookup_goMap {j : String} {fields : List (String × JsonValue)}
    (h : ∀ p ∈ fields, p.1 ≠ j) : (goMap fields).lookup j = none := by
  induction fields with
  | nil => rfl
  | cons p fields ih =>
    obtain ⟨hp, hfields⟩ := List.forall_mem_cons.mp h
    have hcons : goMap (p :: fields) = setKey p.1 p.2 (goMap fields) := rfl
    rw [hcons, lookup_setKey_of_ne _ (Ne.symm hp), ih hfields]

/-- The number of a block is read as it was written. -/
theorem blockIndex_sseEvent (eventType : String) (idx : Nat) {payload : List (String × JsonValue)}
    (h : ∀ p ∈ payload, p.1 ≠ "index") :
    (sseEvent eventType (("index", .num idx) :: payload)).blockIndex = some (idx : Int) := by
  have hcons : goMap (("index", .num idx) :: payload) =
      setKey "index" (.num idx) (goMap payload) := rfl
  have hfield : (setKey "type" (.str eventType)
      (goMap (("index", .num idx) :: payload))).lookup "index" = some (.num idx) := by
    rw [lookup_setKey_of_ne _ (by decide), hcons, lookup_setKey _ (lookup_goMap h)]
  rw [Event.blockIndex, sseEvent, JsonValue.unmarshal_marshal, Option.bind_some, JsonValue.field,
    hfield]

theorem plain_sseEvent {eventType : String} (h : OneLine (utf8 eventType))
    (payload : List (String × JsonValue)) : (sseEvent eventType payload).Plain := by
  refine ⟨h, oneLine_nil, ?_⟩
  intro hmem
  exact absurd (JsonValue.marshal_line _ _ hmem) (by decide)

section Pieces

variable (idx : Nat)

@[simp] theorem piece_messageStart (messageID model : String) :
    (emitMessageStart messageID model).piece = some .messageStart :=
  if_pos rfl

@[simp] theorem piece_contentBlockStartText :
    (emitContentBlockStartText idx).piece = some (.blockStart idx) := by
  rw [Event.piece, emitContentBlockStartText, blockIndex_sseEvent _ _ (by simp)]
  rfl

@[simp] theorem piece_contentBlockStartToolUse (id name : String) :
    (emitContentBlockStartToolUse idx id name).piece = some (.blockStart idx) := by
  rw [Event.piece, emitContentBlockStartToolUse, blockIndex_sseEvent _ _ (by simp)]
  rfl

@[simp] theorem piece_textDelta (text : String) :
    (emitTextDelta idx text).piece = some (.blockDelta idx) := by
  rw [Event.piece, emitTextDelta, blockIndex_sseEvent _ _ (by simp)]
  rfl

@[simp] theorem piece_inputJSONDelta (partialJSON : String) :
    (emitInputJSONDelta idx partialJSON).piece = some (.blockDelta idx) := by
  rw [Event.piece, emitInputJSONDelta, blockIndex_sseEvent _ _ (by simp)]
  rfl

@[simp] theorem piece_contentBlockStop :
    (emitContentBlockStop idx).piece = some (.blockStop idx) := by
  rw [Event.piece, emitContentBlockStop, blockIndex_sseEvent _ _ (by simp)]
  rfl

@[simp] theorem piece_messageDelta (finishReason : String) (outputTokens : Int) :
    (emitMessageDelta finishReason outputTokens).piece = some .messageDelta := by
  rw [Event.piece]
  rfl

@[simp] theorem piece_messageStop : messageStop.piece = some .messageStop := by
  rw [Event.piece]
  rfl

end Pieces

/-! ## The encoder -/

/-- `streamEncoder`.  `toolBlocks` is the map from the index of a tool call to its block. -/
structure StreamEncoder where
  messageStarted : Bool
  messageID : String
  model : String
  textBlockOpen : Bool
  textBlockIdx : Nat
  toolBlocks : List (Int × Nat)
  nextBlockIdx : Nat
  outputTokens : Int
  finished : Bool
  deriving DecidableEq, Repr

namespace StreamEncoder

variable (e : StreamEncoder) (c : Chunk)

/-- `NewStreamEncoder`. -/
def init : StreamEncoder := ⟨false, "", "", false, 0, [], 0, 0, false⟩

/-- The first chunk starts the message. -/
def startMessage : List Event × StreamEncoder :=
  if e.messageStarted then ([], e)
  else ([emitMessageStart c.id c.model],
    { e with messageID := c.id, model := c.model, messageStarted := true })

/-- The text of a chunk; the first text opens the text block. -/
def encodeText : List Event × StreamEncoder :=
  if c.deltaContent = "" then ([], e)
  else if e.textBlockOpen then ([emitTextDelta e.textBlockIdx c.deltaContent], e)
  else ([emitContentBlockStartText e.nextBlockIdx, emitTextDelta e.nextBlockIdx c.deltaContent],
    { e with textBlockIdx := e.nextBlockIdx, nextBlockIdx := e.nextBlockIdx + 1,
             textBlockOpen := true })

/-- A fragment of the arguments of a tool call, if there is one. -/
def inputFragment (blockIdx : Nat) (tc : ToolCallDelta) : List Event :=
  if tc.function.arguments = "" then []
  else [emitInputJSONDelta blockIdx tc.function.arguments]

/-- One fragment of a tool call; the first one opens its block. -/
def encodeToolCall (tc : ToolCallDelta) : List Event × StreamEncoder :=
  match e.toolBlocks.lookup tc.index with
  | some blockIdx => (inputFragment blockIdx tc, e)
  | none =>
    (emitContentBlockStartToolUse e.nextBlockIdx tc.id tc.function.name ::
        inputFragment e.nextBlockIdx tc,
      { e with nextBlockIdx := e.nextBlockIdx + 1,
               toolBlocks := e.toolBlocks ++ [(tc.index, e.nextBlockIdx)] })

/-- The fragments of tool calls in a chunk. -/
def encodeToolCalls : StreamEncoder → List ToolCallDelta → List Event × StreamEncoder
  | e, [] => ([], e)
  | e, tc :: tcs =>
    let (out, e') := e.encodeToolCall tc
    let (rest, e'') := encodeToolCalls e' tcs
    (out ++ rest, e'')

/-- The cached token count. -/
def cacheUsage : StreamEncoder :=
  match c.usage with
  | none => e
  | some u => { e with outputTokens := u.completionTokens }

/-- All that `EncodeChunk` does with a chunk before it looks at its finish reason. -/
def encodeContent : List Event × StreamEncoder :=
  let (start, e₁) := e.startMessage c
  let (text, e₂) := e₁.encodeText c
  let (tools, e₃) := e₂.encodeToolCalls c.deltaToolCalls
  (start ++ text ++ tools, e₃.cacheUsage c)

/-- The blocks in the order in which `emitFinish` stops them. -/
def stopOrder : List Nat :=
  (if e.textBlockOpen then [e.textBlockIdx] else []) ++ (e.toolBlocks.map Prod.snd).mergeSort

/-- **`emitFinish`.** -/
def emitFinish (finishReason : String) : List Event × StreamEncoder :=
  if e.finished then ([], e)
  else (e.stopOrder.map emitContentBlockStop ++ [emitMessageDelta finishReason e.outputTokens],
    { e with finished := true, textBlockOpen := false, toolBlocks := [] })

/-- A chunk that is translated. -/
def translate : List Event × StreamEncoder :=
  let (out, e₁) := e.encodeContent c
  if c.finishReason = "" then (out, e₁)
  else
    let (finish, e₂) := e₁.emitFinish c.finishReason
    (out ++ finish, e₂)

/-- A frame of an Anthropic upstream is relayed; the state is tracked. -/
def track : StreamEncoder :=
  let e₁ := if e.messageStarted then e
    else { e with messageStarted := true, messageID := c.id, model := c.model }
  let e₂ := if c.finishReason = "" then e₁ else { e₁ with finished := true }
  e₂.cacheUsage c

/-- **`EncodeChunk`.** -/
def encodeChunk : Bytes × StreamEncoder :=
  if c.isRaw then (c.raw, e.track c)
  else
    let (out, e₁) := e.translate c
    (out.flatMap encode, e₁)

/-- The events of `Close`. -/
def closing : List Event := if e.finished then [] else (e.emitFinish "stop").1

/-- **`Close`.** -/
def close : Bytes := e.closing.flatMap encode

end StreamEncoder

/-- **The Anthropic codec.** -/
def codec : StreamCodec StreamEncoder where
  newStreamEncoder := .init
  encodeChunk := StreamEncoder.encodeChunk
  close := StreamEncoder.close
  streamTerminator := encode messageStop

end Anthropic

end Voxeltoad
