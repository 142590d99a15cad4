import Voxeltoad.Ingress.Translate

/-!
# What translated messages say

A client reads the texts, the tool calls and the usage out of the events of a message.
`translated_content` is that nothing of the texts and the tool calls of an OpenAI stream is lost or
mixed up when it is translated: the encoder has a block for each tool call, and the fragments of a
call go to its block (`CarriesCalls`).

The usage is another matter.  It is written when the message is finished, and an upstream reports it
on a chunk behind the one with the finish reason: `message_delta_usage_iff`.
-/

set_option autoImplicit false

namespace Voxeltoad

/-! ## Reading -/

/-- A text among the fields of an object. -/
def textField (k : String) (v : JsonValue) : Option String :=
  match v.field k with
  | some (.str s) => some s
  | _ => none

/-- A number among the fields of an object. -/
def numField (k : String) (v : JsonValue) : Option Int :=
  match v.field k with
  | some (.num n) => some n
  | _ => none

/-- What an event says about the content of a block. -/
inductive BlockPart where
  | toolUse (block : Int) (id name : String)
  | text (block : Int) (text : String)
  | inputJSON (block : Int) (fragment : String)
  deriving DecidableEq, Repr

namespace Event

/-- A field of the payload. -/
def payload (e : Event) (k : String) : Option JsonValue :=
  (JsonValue.unmarshal e.data).bind (JsonValue.field k)

/-- Read what an event says about the content of a block, if it says anything. -/
def part (e : Event) : Option BlockPart :=
  if e.event = utf8 "content_block_start" then do
    let i ← e.blockIndex
    let block ← e.payload "content_block"
    if textField "type" block = some "tool_use" then
      return .toolUse i (← textField "id" block) (← textField "name" block)
    else none
  else if e.event = utf8 "content_block_delta" then do
    let i ← e.blockIndex
    let delta ← e.payload "delta"
    if textField "type" delta = some "text_delta" then return .text i (← textField "text" delta)
    else if textField "type" delta = some "input_json_delta" then
      return .inputJSON i (← textField "partial_json" delta)
    else none
  else none

/-- The input and the output tokens of a `message_delta`. -/
def deltaUsage (e : Event) : Option (Int × Int) :=
  if e.event = utf8 "message_delta" then do
    let usage ← e.payload "usage"
    return (← numField "input_tokens" usage, ← numField "output_tokens" usage)
  else none

end Event

/-- The text of a message. -/
def messageText (ps : List BlockPart) : String :=
  String.join <| ps.filterMap fun p ↦ match p with
    | .text _ text => some text
    | _ => none

/-- The tool calls of a message: the block, the id and the name. -/
def toolUses (ps : List BlockPart) : List (Int × String × String) :=
  ps.filterMap fun p ↦ match p with
    | .toolUse block id name => some (block, id, name)
    | _ => none

/-- The JSON that a tool block is filled with. -/
def inputOf (block : Int) (ps : List BlockPart) : String :=
  String.join <| ps.filterMap fun p ↦ match p with
    | .inputJSON i fragment => if i = block then some fragment else none
    | _ => none

/-- The arguments of a tool call of an OpenAI stream. -/
def argumentsOf (index : Int) (tcs : List ToolCallDelta) : String :=
  String.join <| (tcs.filter fun tc ↦ tc.index = index).map fun tc ↦ tc.function.arguments

/-- The first delta of a tool call. -/
def firstDelta (index : Int) (tcs : List ToolCallDelta) : Option ToolCallDelta :=
  tcs.find? fun tc ↦ tc.index = index

/-- **A message carries a text and tool calls.**  `blocks` are the indices of the tool calls, with
their blocks. -/
structure CarriesCalls (blocks : List (Int × Nat)) (text : String) (tcs : List ToolCallDelta)
    (ps : List BlockPart) : Prop where
  text_eq : messageText ps = text
  /-- A block for each index, and no other one. -/
  mem_index : ∀ index, index ∈ blocks.map Prod.fst ↔ ∃ tc ∈ tcs, tc.index = index
  index_nodup : (blocks.map Prod.fst).Nodup
  block_nodup : (blocks.map Prod.snd).Nodup
  /-- It is opened with the id and the name of the first delta. -/
  toolUses_eq : (toolUses ps).map some =
    blocks.map fun p ↦ (firstDelta p.1 tcs).map fun tc ↦ ((p.2 : Int), tc.id, tc.function.name)
  /-- It is filled with the arguments. -/
  input_eq : ∀ p ∈ blocks, inputOf p.2 ps = argumentsOf p.1 tcs
  /-- Nothing else is filled with arguments. -/
  input_mem : ∀ block fragment, BlockPart.inputJSON block fragment ∈ ps → ∃ p ∈ blocks, block = p.2

section Appending

variable (ps qs : List BlockPart) (tcs tcs' : List ToolCallDelta)

theorem messageText_append : messageText (ps ++ qs) = messageText ps ++ messageText qs := by
  rw [messageText, List.filterMap_append, String.join_append]
  rfl

theorem toolUses_append : toolUses (ps ++ qs) = toolUses ps ++ toolUses qs :=
  List.filterMap_append

theorem inputOf_append (block : Int) :
    inputOf block (ps ++ qs) = inputOf block ps ++ inputOf block qs := by
  rw [inputOf, List.filterMap_append, String.join_append]
  rfl

theorem argumentsOf_append (index : Int) :
    argumentsOf index (tcs ++ tcs') = argumentsOf index tcs ++ argumentsOf index tcs' := by
  rw [argumentsOf, List.filter_append, List.map_append, String.join_append]
  rfl

theorem firstDelta_append (index : Int) :
    firstDelta index (tcs ++ tcs') = (firstDelta index tcs).or (firstDelta index tcs') :=
  List.find?_append

end Appending

/-- A block is empty as long as nothing fills it. -/
theorem inputOf_eq_empty {block : Int} {ps : List BlockPart}
    (h : ∀ fragment, BlockPart.inputJSON block fragment ∉ ps) : inputOf block ps = "" := by
  have hnil : ps.filterMap (fun p ↦ match p with
      | .inputJSON i fragment => if i = block then some fragment else none
      | _ => none) = [] := by
    rw [List.filterMap_eq_nil_iff]
    intro p hp
    split
    · refine if_neg fun heq ↦ ?_
      subst heq
      exact h _ hp
    · rfl
  rw [inputOf, hnil]
  rfl

/-- A call without deltas has no arguments. -/
theorem argumentsOf_eq_empty {index : Int} {tcs : List ToolCallDelta}
    (h : ¬ ∃ tc ∈ tcs, tc.index = index) : argumentsOf index tcs = "" := by
  have hnil : tcs.filter (fun tc ↦ tc.index = index) = [] := by
    rw [List.filter_eq_nil_iff]
    exact fun tc htc heq ↦ h ⟨tc, htc, of_decide_eq_true heq⟩
  rw [argumentsOf, hnil]
  rfl

/-- The first delta is there when there is one. -/
theorem firstDelta_isSome {index : Int} {tcs : List ToolCallDelta}
    (h : ∃ tc ∈ tcs, tc.index = index) : (firstDelta index tcs).isSome := by
  obtain ⟨tc, htc, heq⟩ := h
  rw [firstDelta, List.find?_isSome]
  exact ⟨tc, htc, decide_eq_true heq⟩

/-- A delta that is not the first of its call does not change which one is. -/
theorem firstDelta_append_of_mem {index : Int} {tcs : List ToolCallDelta}
    (h : ∃ tc ∈ tcs, tc.index = index) (tcs' : List ToolCallDelta) :
    firstDelta index (tcs ++ tcs') = firstDelta index tcs := by
  rw [firstDelta_append, Option.or_of_isSome (firstDelta_isSome h)]

/-- The first delta of a new call. -/
theorem firstDelta_append_self {tc : ToolCallDelta} {tcs : List ToolCallDelta}
    (h : ¬ ∃ tc' ∈ tcs, tc'.index = tc.index) : firstDelta tc.index (tcs ++ [tc]) = some tc := by
  have hnone : firstDelta tc.index tcs = none := by
    rw [firstDelta, List.find?_eq_none]
    exact fun tc' htc' heq ↦ h ⟨tc', htc', of_decide_eq_true heq⟩
  rw [firstDelta_append, hnone, Option.none_or, firstDelta, List.find?_singleton,
    if_pos (decide_eq_true rfl)]

/-- Pairs of an injective list have one component in common iff they have both. -/
theorem fst_eq_iff_snd_eq {α β : Type} {ps : List (α × β)} (hfst : (ps.map Prod.fst).Nodup)
    (hsnd : (ps.map Prod.snd).Nodup) {p q : α × β} (hp : p ∈ ps) (hq : q ∈ ps) :
    p.1 = q.1 ↔ p.2 = q.2 := by
  constructor
  · exact fun heq ↦ congrArg Prod.snd (List.inj_on_of_nodup_map hfst hp hq heq)
  · exact fun heq ↦ congrArg Prod.fst (List.inj_on_of_nodup_map hsnd hp hq heq)

namespace Anthropic

/-! ### What is read of the events that are emitted -/

theorem lookup_goMap_eq {fields : List (String × JsonValue)} (h : (fields.map Prod.fst).Nodup)
    (k : String) : (goMap fields).lookup k = fields.lookup k := by
  induction fields with
  | nil => rfl
  | cons p fields ih =>
    obtain ⟨hp, hfields⟩ := List.nodup_cons.mp h
    have hcons : goMap (p :: fields) = setKey p.1 p.2 (goMap fields) := rfl
    have hnone : (goMap fields).lookup p.1 = none :=
      lookup_goMap fun q hq heq ↦ hp (heq ▸ List.mem_map_of_mem hq)
    rw [hcons, List.lookup_cons]
    by_cases hk : k = p.1
    · rw [hk, lookup_setKey _ hnone, beq_self_eq_true]
    · rw [lookup_setKey_of_ne _ hk, ih hfields, beq_false_of_ne hk]

theorem payload_sseEvent (eventType : String) {fields : List (String × JsonValue)}
    (h : (fields.map Prod.fst).Nodup) {k : String} (hk : k ≠ "type") :
    (sseEvent eventType fields).payload k = fields.lookup k := by
  rw [Event.payload, sseEvent, JsonValue.unmarshal_marshal, Option.bind_some, JsonValue.field,
    lookup_setKey_of_ne _ hk, lookup_goMap_eq h]

theorem textField_goMap {fields : List (String × JsonValue)} (h : (fields.map Prod.fst).Nodup)
    (k : String) : textField k (.obj (goMap fields)) =
      match fields.lookup k with
      | some (.str s) => some s
      | _ => none := by
  rw [textField, JsonValue.field, lookup_goMap_eq h]

theorem numField_goMap {fields : List (String × JsonValue)} (h : (fields.map Prod.fst).Nodup)
    (k : String) : numField k (.obj (goMap fields)) =
      match fields.lookup k with
      | some (.num n) => some n
      | _ => none := by
  rw [numField, JsonValue.field, lookup_goMap_eq h]

theorem event_sseEvent (eventType : String) (fields : List (String × JsonValue)) :
    (sseEvent eventType fields).event = utf8 eventType := rfl

theorem part_sseEvent_of_ne {eventType : String}
    (hstart : utf8 eventType ≠ utf8 "content_block_start")
    (hdelta : utf8 eventType ≠ utf8 "content_block_delta") (fields : List (String × JsonValue)) :
    (sseEvent eventType fields).part = none := by
  rw [Event.part, event_sseEvent, if_neg hstart, if_neg hdelta]

/-- No other event has the usage. -/
theorem deltaUsage_sseEvent {eventType : String} (h : utf8 eventType ≠ utf8 "message_delta")
    (fields : List (String × JsonValue)) : (sseEvent eventType fields).deltaUsage = none :=
  if_neg h

section Parts

variable (idx : Nat)

@[simp] theorem part_messageStart (messageID model : String) :
    (emitMessageStart messageID model).part = none :=
  part_sseEvent_of_ne (by decide) (by decide) _

@[simp] theorem part_contentBlockStartText : (emitContentBlockStartText idx).part = none := by
  rw [emitContentBlockStartText, Event.part, event_sseEvent, if_pos rfl,
    blockIndex_sseEvent _ _ (by simp), payload_sseEvent _ (by simp) (by decide)]
  simp [textField_goMap, List.lookup_cons]

@[simp] theorem part_contentBlockStartToolUse (id name : String) :
    (emitContentBlockStartToolUse idx id name).part = some (.toolUse idx id name) := by
  rw [emitContentBlockStartToolUse, Event.part, event_sseEvent, if_pos rfl,
    blockIndex_sseEvent _ _ (by simp), payload_sseEvent _ (by simp) (by decide)]
  simp [textField_goMap, List.lookup_cons]

@[simp] theorem part_textDelta (text : String) :
    (emitTextDelta idx text).part = some (.text idx text) := by
  rw [emitTextDelta, Event.part, event_sseEvent, if_neg (by decide), if_pos rfl,
    blockIndex_sseEvent _ _ (by simp), payload_sseEvent _ (by simp) (by decide)]
  simp [textField_goMap, List.lookup_cons]

@[simp] theorem part_inputJSONDelta (fragment : String) :
    (emitInputJSONDelta idx fragment).part = some (.inputJSON idx fragment) := by
  rw [emitInputJSONDelta, Event.part, event_sseEvent, if_neg (by decide), if_pos rfl,
    blockIndex_sseEvent _ _ (by simp), payload_sseEvent _ (by simp) (by decide)]
  simp [textField_goMap, List.lookup_cons]

@[simp] theorem part_contentBlockStop : (emitContentBlockStop idx).part = none :=
  part_sseEvent_of_ne (by decide) (by decide) _

@[simp] theorem part_messageDelta (reason : String) (outputTokens : Int) :
    (emitMessageDelta reason outputTokens).part = none :=
  part_sseEvent_of_ne (by decide) (by decide) _

@[simp] theorem part_messageStop : messageStop.part = none :=
  part_sseEvent_of_ne (by decide) (by decide) _

@[simp] theorem deltaUsage_messageDelta (reason : String) (outputTokens : Int) :
    (emitMessageDelta reason outputTokens).deltaUsage = some (0, outputTokens) := by
  rw [emitMessageDelta, Event.deltaUsage, event_sseEvent, if_pos rfl,
    payload_sseEvent _ (by simp) (by decide)]
  simp [numField_goMap, List.lookup_cons]

end Parts

/-! ### What the client gets -/

/-- The events that a chunk can be translated to before the message is finished. -/
inductive ContentEvent : Event → Prop
  | messageStart (messageID model : String) : ContentEvent (emitMessageStart messageID model)
  | startText (i : Nat) : ContentEvent (emitContentBlockStartText i)
  | startToolUse (i : Nat) (id name : String) :
      ContentEvent (emitContentBlockStartToolUse i id name)
  | textDelta (i : Nat) (text : String) : ContentEvent (emitTextDelta i text)
  | inputJSONDelta (i : Nat) (fragment : String) : ContentEvent (emitInputJSONDelta i fragment)

theorem ContentEvent.plain {ev : Event} (h : ContentEvent ev) : ev.Plain := by
  cases h <;> exact plain_sseEvent (by decide) _

theorem ContentEvent.deltaUsage_eq {ev : Event} (h : ContentEvent ev) : ev.deltaUsage = none := by
  cases h <;> exact deltaUsage_sseEvent (by decide) _

section ContentEvents

variable (e : StreamEncoder) (c : Chunk)

theorem contentEvent_startMessage : ∀ ev ∈ (e.startMessage c).1, ContentEvent ev := by
  rw [StreamEncoder.startMessage]
  split
  · simp
  · simp [ContentEvent.messageStart]

theorem contentEvent_encodeText : ∀ ev ∈ (e.encodeText c).1, ContentEvent ev := by
  rw [StreamEncoder.encodeText]
  split
  · simp
  split
  · simp [ContentEvent.textDelta]
  · simp [ContentEvent.startText, ContentEvent.textDelta]

theorem contentEvent_inputFragment (i : Nat) (tc : ToolCallDelta) :
    ∀ ev ∈ StreamEncoder.inputFragment i tc, ContentEvent ev := by
  rw [StreamEncoder.inputFragment]
  split
  · simp
  · simp [ContentEvent.inputJSONDelta]

theorem contentEvent_encodeToolCall (tc : ToolCallDelta) :
    ∀ ev ∈ (e.encodeToolCall tc).1, ContentEvent ev := by
  rw [StreamEncoder.encodeToolCall]
  split
  · exact contentEvent_inputFragment _ tc
  · exact List.forall_mem_cons.mpr ⟨.startToolUse .., contentEvent_inputFragment _ tc⟩

theorem contentEvent_encodeToolCalls (tcs : List ToolCallDelta) :
    ∀ ev ∈ (e.encodeToolCalls tcs).1, ContentEvent ev := by
  induction tcs generalizing e with
  | nil => exact fun _ h ↦ absurd h List.not_mem_nil
  | cons tc tcs ih => exact List.forall_mem_append.mpr ⟨contentEvent_encodeToolCall e tc, ih _⟩

/-- **All that a chunk is translated to.** -/
theorem contentEvent_encodeContent : ∀ ev ∈ (e.encodeContent c).1, ContentEvent ev := by
  have htext := List.forall_mem_append.mpr
    ⟨contentEvent_startMessage e c, contentEvent_encodeText (e.startMessage c).2 c⟩
  exact List.forall_mem_append.mpr ⟨htext, contentEvent_encodeToolCalls _ _⟩

theorem plain_emitFinish (reason : String) : ∀ ev ∈ (e.emitFinish reason).1, ev.Plain := by
  rw [StreamEncoder.emitFinish]
  split
  · exact fun _ h ↦ absurd h List.not_mem_nil
  · refine List.forall_mem_append.mpr
      ⟨List.forall_mem_map.mpr fun i _ ↦ ?_, List.forall_mem_singleton.mpr ?_⟩
    · exact plain_sseEvent (by decide) _
    · exact plain_sseEvent (by decide) _

theorem plain_events (cs : List Chunk) : ∀ ev ∈ e.events cs, ev.Plain := by
  induction cs generalizing e with
  | nil =>
    rw [StreamEncoder.events, StreamEncoder.closing]
    split
    · exact fun _ h ↦ absurd h List.not_mem_nil
    · exact plain_emitFinish e _
  | cons c cs ih =>
    have hcontent : ∀ ev ∈ (e.encodeContent c).1, ev.Plain :=
      fun ev hev ↦ (contentEvent_encodeContent e c ev hev).plain
    refine List.forall_mem_append.mpr ⟨?_, ih _⟩
    by_cases hreason : c.finishReason = ""
    · rwa [translate_of_unfinished e c hreason]
    · rw [translate_of_finish e c hreason]
      exact List.forall_mem_append.mpr ⟨hcontent, plain_emitFinish _ _⟩

end ContentEvents

/-- **What the client reads** of a stream that is translated. -/
theorem clientEvents_written {cs : List Chunk} (hraw : ∀ c ∈ cs, c.isRaw = false) :
    clientEvents (codec.written cs) = StreamEncoder.init.events cs ++ [messageStop] := by
  rw [written_translated hraw, clientEvents_encode]
  exact List.forall_mem_append.mpr
    ⟨plain_events .init cs, List.forall_mem_singleton.mpr (plain_sseEvent (by decide) _)⟩

/-- The parts that are read of events. -/
def parts (evs : List Event) : List BlockPart := evs.filterMap Event.part

theorem parts_append (evs evs' : List Event) : parts (evs ++ evs') = parts evs ++ parts evs' :=
  List.filterMap_append

theorem parts_stops (order : List Nat) : parts (order.map emitContentBlockStop) = [] := by
  rw [parts, List.filterMap_map, List.filterMap_eq_nil_iff]
  exact fun i _ ↦ part_contentBlockStop i

/-- To finish a message says nothing about its content. -/
theorem parts_emitFinish (e : StreamEncoder) (reason : String) :
    parts (e.emitFinish reason).1 = [] := by
  rw [StreamEncoder.emitFinish]
  split
  · rfl
  · rw [parts_append, parts_stops]
    simp [parts]

theorem parts_closing (e : StreamEncoder) : parts e.closing = [] := by
  rw [StreamEncoder.closing]
  split
  · rfl
  · exact parts_emitFinish e _

/-! ### Filling blocks -/

section Fragments

variable (i : Nat) (tc : ToolCallDelta)

theorem parts_inputFragment :
    parts (StreamEncoder.inputFragment i tc) =
      if tc.function.arguments = "" then [] else [.inputJSON i tc.function.arguments] := by
  rw [StreamEncoder.inputFragment]
  split
  · rfl
  · simp [parts]

theorem messageText_fragment : messageText (parts (StreamEncoder.inputFragment i tc)) = "" := by
  rw [parts_inputFragment]
  split <;> rfl

theorem toolUses_fragment : toolUses (parts (StreamEncoder.inputFragment i tc)) = [] := by
  rw [parts_inputFragment]
  split <;> rfl

theorem inputOf_fragment (block : Int) :
    inputOf block (parts (StreamEncoder.inputFragment i tc)) =
      if block = i then tc.function.arguments else "" := by
  rw [parts_inputFragment]
  split
  · rename_i hempty
    rw [hempty, ite_self]
    rfl
  · by_cases hblock : block = i
    · simp [inputOf, hblock]
    · simp [inputOf, hblock, Ne.symm hblock]

theorem mem_fragment {block : Int} {fragment : String}
    (h : BlockPart.inputJSON block fragment ∈ parts (StreamEncoder.inputFragment i tc)) :
    block = i := by
  rw [parts_inputFragment] at h
  split at h
  · exact absurd h List.not_mem_nil
  · cases List.mem_singleton.mp h
    rfl

end Fragments

end Anthropic

namespace CarriesCalls

open Anthropic

variable {blocks : List (Int × Nat)} {text : String} {tcs : List ToolCallDelta}
  {ps : List BlockPart}

theorem nil : CarriesCalls [] "" [] [] where
  text_eq := rfl
  mem_index := by simp
  index_nodup := .nil
  block_nodup := .nil
  toolUses_eq := rfl
  input_eq := by simp
  input_mem := by simp

/-- Some more text. -/
theorem append_text (h : CarriesCalls blocks text tcs ps) {qs : List BlockPart} {more : String}
    (htext : messageText qs = more) (htools : toolUses qs = [])
    (hinput : ∀ block fragment, BlockPart.inputJSON block fragment ∉ qs) :
    CarriesCalls blocks (text ++ more) tcs (ps ++ qs) := by
  refine { h with text_eq := ?_, toolUses_eq := ?_, input_eq := ?_, input_mem := ?_ }
  · rw [messageText_append, h.text_eq, htext]
  · rw [toolUses_append, htools, List.append_nil, h.toolUses_eq]
  · intro p hp
    rw [inputOf_append, inputOf_eq_empty (hinput p.2), String.append_empty, h.input_eq p hp]
  · intro block fragment hmem
    rcases List.mem_append.mp hmem with hmem | hmem
    · exact h.input_mem block fragment hmem
    · exact absurd hmem (hinput block fragment)

/-- A fragment goes to the block of its call, whatever the others are. -/
theorem input_fragment {tc : ToolCallDelta} {i : Nat} (hindex : (blocks.map Prod.fst).Nodup)
    (hblock : (blocks.map Prod.snd).Nodup) (hmem : (tc.index, i) ∈ blocks) {p : Int × Nat}
    (hp : p ∈ blocks) (hinput : inputOf p.2 ps = argumentsOf p.1 tcs) :
    inputOf p.2 (ps ++ parts (StreamEncoder.inputFragment i tc)) =
      argumentsOf p.1 (tcs ++ [tc]) := by
  have hiff : tc.index = p.1 ↔ i = p.2 := fst_eq_iff_snd_eq hindex hblock hmem hp
  rw [inputOf_append, argumentsOf_append, hinput, inputOf_fragment]
  by_cases heq : i = p.2
  · rw [if_pos (by rw [heq])]
    simp [argumentsOf, hiff.mpr heq]
  · have hne : (p.2 : Int) ≠ i := by omega
    rw [if_neg hne]
    simp [argumentsOf, mt hiff.mp heq]

/-- A fragment of a call that has its block. -/
theorem fragment (h : CarriesCalls blocks text tcs ps) {tc : ToolCallDelta} {i : Nat}
    (hmem : (tc.index, i) ∈ blocks) :
    CarriesCalls blocks text (tcs ++ [tc]) (ps ++ parts (StreamEncoder.inputFragment i tc)) := by
  have hknown : ∃ tc' ∈ tcs, tc'.index = tc.index :=
    (h.mem_index _).mp (List.mem_map_of_mem hmem)
  refine { h with
    text_eq := ?_, mem_index := ?_, toolUses_eq := ?_, input_eq := ?_, input_mem := ?_ }
  · rw [messageText_append, messageText_fragment, String.append_empty, h.text_eq]
  · intro index
    rw [h.mem_index]
    constructor
    · rintro ⟨tc', htc', heq⟩
      exact ⟨tc', List.mem_append_left _ htc', heq⟩
    · rintro ⟨tc', htc', heq⟩
      rcases List.mem_append.mp htc' with htc' | htc'
      · exact ⟨tc', htc', heq⟩
      · rwa [← heq, List.mem_singleton.mp htc']
  · rw [toolUses_append, toolUses_fragment, List.append_nil, h.toolUses_eq]
    refine List.map_congr_left fun p hp ↦ ?_
    rw [firstDelta_append_of_mem ((h.mem_index _).mp (List.mem_map_of_mem hp))]
  · exact fun p hp ↦ input_fragment h.index_nodup h.block_nodup hmem hp (h.input_eq p hp)
  · intro block fragment hin
    rcases List.mem_append.mp hin with hin | hin
    · exact h.input_mem block fragment hin
    · exact ⟨_, hmem, mem_fragment i tc hin⟩

/-- The first delta of a call opens a block. -/
theorem start (h : CarriesCalls blocks text tcs ps) {tc : ToolCallDelta} {n : Nat}
    (hnew : tc.index ∉ blocks.map Prod.fst) (hlt : ∀ p ∈ blocks, p.2 < n) :
    CarriesCalls (blocks ++ [(tc.index, n)]) text (tcs ++ [tc])
      (ps ++ .toolUse n tc.id tc.function.name :: parts (StreamEncoder.inputFragment n tc)) := by
  have hfresh : ¬ ∃ tc' ∈ tcs, tc'.index = tc.index := fun hin ↦ hnew ((h.mem_index _).mpr hin)
  have hindex : ((blocks ++ [(tc.index, n)]).map Prod.fst).Nodup := by
    rw [List.map_append, List.map_singleton, ← List.concat_eq_append]
    exact h.index_nodup.concat hnew
  have hblock : ((blocks ++ [(tc.index, n)]).map Prod.snd).Nodup := by
    rw [List.map_append, List.map_singleton, ← List.concat_eq_append]
    refine h.block_nodup.concat fun hin ↦ ?_
    obtain ⟨p, hp, heq⟩ := List.mem_map.mp hin
    exact absurd (hlt p hp) (Nat.not_lt_of_le (Nat.le_of_eq heq.symm))
  have hmem : (tc.index, n) ∈ blocks ++ [(tc.index, n)] :=
    List.mem_append_right _ (List.mem_singleton.mpr rfl)
  have hstart :
      ∀ block, inputOf block (ps ++ [.toolUse n tc.id tc.function.name]) = inputOf block ps := by
    intro block
    rw [inputOf_append]
    exact String.append_empty
  rw [List.append_cons ps]
  refine ⟨?_, ?_, hindex, hblock, ?_, ?_, ?_⟩
  · rw [messageText_append, messageText_append, messageText_fragment,
      String.append_empty, h.text_eq]
    exact String.append_empty
  · intro index
    rw [List.map_append, List.mem_append, h.mem_index]
    simp only [List.map_singleton, List.mem_singleton, List.mem_append, or_and_right, exists_or,
      exists_eq_left]
    exact or_congr_right eq_comm
  · have hcall :
      toolUses [.toolUse n tc.id tc.function.name] = [((n : Int), tc.id, tc.function.name)] := rfl
    rw [toolUses_append, toolUses_append, toolUses_fragment, List.append_nil, hcall,
      List.map_append, List.map_append, h.toolUses_eq, List.map_singleton, List.map_singleton,
      firstDelta_append_self hfresh]
    refine congrArg (· ++ _) (List.map_congr_left fun p hp ↦ ?_)
    rw [firstDelta_append_of_mem ((h.mem_index _).mp (List.mem_map_of_mem hp))]
  · intro p hp
    refine input_fragment hindex hblock hmem hp ?_
    rw [hstart]
    rcases List.mem_append.mp hp with hp | hp
    · exact h.input_eq p hp
    · rw [List.mem_singleton.mp hp, argumentsOf_eq_empty hfresh]
      refine inputOf_eq_empty fun fragment hin ↦ ?_
      obtain ⟨q, hq, heq⟩ := h.input_mem _ _ hin
      exact absurd (hlt q hq) (by omega)
  · intro block fragment hin
    rcases List.mem_append.mp hin with hin | hin
    · rcases List.mem_append.mp hin with hin | hin
      · obtain ⟨p, hp, heq⟩ := h.input_mem block fragment hin
        exact ⟨p, List.mem_append_left _ hp, heq⟩
      · cases List.mem_singleton.mp hin
    · exact ⟨_, hmem, mem_fragment n tc hin⟩

end CarriesCalls

namespace Anthropic

/-! ### The encoder -/

section Steps

variable {e : StreamEncoder} {qs : List Piece} {text : String} {tcs : List ToolCallDelta}
  {ps : List BlockPart}

theorem carries_encodeText (h : CarriesCalls e.toolBlocks text tcs ps) (c : Chunk) :
    CarriesCalls (e.encodeText c).2.toolBlocks (text ++ c.deltaContent) tcs
    (ps ++ parts (e.encodeText c).1) := by
  rw [StreamEncoder.encodeText]
  split
  · rename_i hempty
    rw [hempty]
    exact h.append_text rfl rfl fun _ _ ↦ List.not_mem_nil
  split
  · exact h.append_text (by simp [parts, messageText]) (by simp [parts, toolUses]) (by simp [parts])
  · exact h.append_text (by simp [parts, messageText]) (by simp [parts, toolUses]) (by simp [parts])

/-- **A delta of a tool call goes to the block of the call.** -/
theorem carries_encodeToolCall (hopen : Open e qs) (h : CarriesCalls e.toolBlocks text tcs ps)
    (tc : ToolCallDelta) :
    CarriesCalls (e.encodeToolCall tc).2.toolBlocks text (tcs ++ [tc])
    (ps ++ parts (e.encodeToolCall tc).1) := by
  rw [StreamEncoder.encodeToolCall]
  split
  · rename_i i hlookup
    obtain ⟨front, back, hsplit, -⟩ := List.lookup_eq_some_iff.mp hlookup
    refine h.fragment ?_
    simp [hsplit]
  · rename_i hlookup
    have hnew : tc.index ∉ e.toolBlocks.map Prod.fst := by
      intro hin
      obtain ⟨p, hp, heq⟩ := List.mem_map.mp hin
      exact absurd heq.symm (by simpa using List.lookup_eq_none_iff.mp hlookup p hp)
    have hparts := h.start hnew fun p hp ↦ hopen.tool_lt (List.mem_map_of_mem hp)
    simpa [parts] using hparts

theorem carries_encodeToolCalls (hopen : Open e qs) (h : CarriesCalls e.toolBlocks text tcs ps)
    (tcs' : List ToolCallDelta) :
    CarriesCalls (e.encodeToolCalls tcs').2.toolBlocks text (tcs ++ tcs')
    (ps ++ parts (e.encodeToolCalls tcs').1) := by
  induction tcs' generalizing e qs tcs ps with
  | nil => simpa [StreamEncoder.encodeToolCalls, parts] using h
  | cons tc tcs' ih =>
    obtain ⟨_, -, hopen'⟩ := hopen.encodeToolCall tc
    rw [List.append_cons, StreamEncoder.encodeToolCalls, parts_append, ← List.append_assoc]
    exact ih hopen' (carries_encodeToolCall hopen h tc)

theorem toolBlocks_cacheUsage (e : StreamEncoder) (c : Chunk) :
    (e.cacheUsage c).toolBlocks = e.toolBlocks := by
  rw [StreamEncoder.cacheUsage]
  split <;> rfl

/-- **What a chunk adds to a message.** -/
theorem carries_encodeContent (hopen : Open e qs) (h : CarriesCalls e.toolBlocks text tcs ps)
    (c : Chunk) :
    CarriesCalls (e.encodeContent c).2.toolBlocks (text ++ c.deltaContent) (tcs ++ c.deltaToolCalls)
      (ps ++ parts (e.encodeContent c).1) := by
  obtain ⟨_, -, hopen'⟩ := hopen.encodeText c
  rw [encodeContent_of_started hopen.started, toolBlocks_cacheUsage, parts_append,
    ← List.append_assoc]
  exact carries_encodeToolCalls hopen' (carries_encodeText h c) c.deltaToolCalls

/-- All the text of a stream. -/
def chunkText (cs : List Chunk) : String := String.join (cs.map Chunk.deltaContent)

theorem chunkText_cons (c : Chunk) (cs : List Chunk) :
    chunkText (c :: cs) = c.deltaContent ++ chunkText cs :=
  String.join_cons

/-- There is nothing more when the message is finished. -/
theorem quiet_content {cs : List Chunk}
    (h : ∀ d ∈ cs, d.deltaContent = "" ∧ d.deltaToolCalls = []) :
    chunkText cs = "" ∧ cs.flatMap Chunk.deltaToolCalls = [] := by
  induction cs with
  | nil => exact ⟨rfl, rfl⟩
  | cons c cs ih =>
    obtain ⟨⟨htext, htools⟩, hcs⟩ := List.forall_mem_cons.mp h
    obtain ⟨hrest, hrest'⟩ := ih hcs
    exact ⟨by rw [chunkText_cons, htext, hrest]; rfl,
      by rw [List.flatMap_cons, htools, hrest']; rfl⟩

/-- **What the rest of a stream adds**, when a message is open. -/
theorem carries_events {cs : List Chunk} (hopen : Open e qs)
    (h : CarriesCalls e.toolBlocks text tcs ps) (hquiet : Quiet cs) :
    ∃ blocks, CarriesCalls blocks (text ++ chunkText cs) (tcs ++ cs.flatMap Chunk.deltaToolCalls)
      (ps ++ parts (e.events cs)) := by
  induction cs generalizing e qs text tcs ps with
  | nil =>
    have hclosing : parts (e.events []) = [] := parts_closing e
    refine ⟨e.toolBlocks, ?_⟩
    rw [hclosing]
    simpa [chunkText] using h
  | cons c cs ih =>
    obtain ⟨_, -, hopen'⟩ := hopen.encodeContent c
    have hcontent := carries_encodeContent hopen h c
    rw [chunkText_cons, List.flatMap_cons, ← String.append_assoc, ← List.append_assoc,
      StreamEncoder.events, parts_append, ← List.append_assoc ps]
    rw [Quiet] at hquiet
    split at hquiet
    · rename_i hreason
      rw [translate_of_unfinished e c hreason]
      exact ih hopen' hcontent hquiet
    · rename_i hreason
      have hrest : ((e.encodeContent c).2.emitFinish c.finishReason).2.events cs = [] := by
        rw [StreamEncoder.emitFinish, if_neg (by simp [hopen'.unfinished])]
        apply events_of_finished
        · exact hopen'.started
        · rfl
        · exact hquiet
      obtain ⟨htext, htools⟩ := quiet_content hquiet
      refine ⟨(e.encodeContent c).2.toolBlocks, ?_⟩
      rw [translate_of_finish e c hreason, hrest, parts_append, parts_emitFinish, htext, htools]
      simpa [parts] using hcontent

end Steps

end Anthropic

open Anthropic in
/-- **Translation keeps the content.**  The client reads the text of the stream, and a tool call for
each index: one with the id and the name of the first delta, and with the arguments of all of
them. -/
theorem translated_content (cs : List Chunk) (hraw : ∀ c ∈ cs, c.isRaw = false)
    (hquiet : Quiet cs) :
    ∃ blocks, CarriesCalls blocks (chunkText cs) (cs.flatMap Chunk.deltaToolCalls)
      ((clientEvents (codec.written cs)).filterMap Event.part) := by
  have hread :
      (clientEvents (codec.written cs)).filterMap Event.part =
      parts (StreamEncoder.init.events cs) := by
    rw [clientEvents_written hraw, List.filterMap_append, List.filterMap_cons_none part_messageStop]
    exact List.append_nil _
  rw [hread]
  by_cases hne : cs = []
  · subst hne
    refine ⟨[], ?_⟩
    have hclosing : parts (StreamEncoder.init.events []) = [] := parts_closing .init
    rw [hclosing]
    exact .nil
  · obtain ⟨c, cs, rfl⟩ := List.exists_cons_of_ne_nil hne
    obtain ⟨e, hopen, -, htools, hevents⟩ := events_cons c cs
    have hnil : CarriesCalls e.toolBlocks "" [] [] := htools ▸ CarriesCalls.nil
    obtain ⟨blocks, hblocks⟩ := carries_events hopen hnil hquiet
    refine ⟨blocks, ?_⟩
    rw [hevents, parts, List.filterMap_cons_none (part_messageStart ..)]
    simpa [parts] using hblocks

/-- A chunk with a finish reason. -/
def Chunk.finish (usage : Option Usage) : Chunk :=
  ⟨"m", "x", "", "", [], "stop", usage, [], "openai"⟩

open Anthropic in
/-- Two tool calls and a text, in turns. -/
theorem translated_content_in_turns :
    let cs := [Chunk.toolCall 0, .text "a", .toolCall 1, .toolCall 0, .text "b", .finish none]
    ∃ blocks, CarriesCalls blocks (chunkText cs) (cs.flatMap Chunk.deltaToolCalls)
      ((clientEvents (codec.written cs)).filterMap Event.part) := by
  intro cs
  exact translated_content cs (by decide) (by decide)

/-! ## Usage -/

namespace Anthropic

/-- The usage that is read of events. -/
def deltas (evs : List Event) : List (Int × Int) := evs.filterMap Event.deltaUsage

theorem deltas_append (evs evs' : List Event) : deltas (evs ++ evs') = deltas evs ++ deltas evs' :=
  List.filterMap_append

section Deltas

variable (e : StreamEncoder) (c : Chunk)

theorem deltas_encodeContent : deltas (e.encodeContent c).1 = [] := by
  rw [deltas, List.filterMap_eq_nil_iff]
  exact fun ev hev ↦ (contentEvent_encodeContent e c ev hev).deltaUsage_eq

/-- **Only the completion tokens are reported**, those that were seen when the message is
finished. -/
theorem deltas_emitFinish (reason : String) :
    deltas (e.emitFinish reason).1 = if e.finished then [] else [(0, e.outputTokens)] := by
  rw [StreamEncoder.emitFinish]
  split
  · rfl
  · have hstops : deltas (e.stopOrder.map emitContentBlockStop) = [] := by
      rw [deltas, List.filterMap_map, List.filterMap_eq_nil_iff]
      exact fun i _ ↦ deltaUsage_sseEvent (by decide) _
    rw [deltas_append, hstops]
    simp [deltas]

theorem encodeText_usage :
    (e.encodeText c).2.finished = e.finished ∧
    (e.encodeText c).2.outputTokens = e.outputTokens := by
  rw [StreamEncoder.encodeText]
  split
  · exact ⟨rfl, rfl⟩
  split <;> exact ⟨rfl, rfl⟩

theorem encodeToolCalls_usage (tcs : List ToolCallDelta) :
    (e.encodeToolCalls tcs).2.finished = e.finished ∧
    (e.encodeToolCalls tcs).2.outputTokens = e.outputTokens := by
  induction tcs generalizing e with
  | nil => exact ⟨rfl, rfl⟩
  | cons tc tcs ih =>
    have htool : (e.encodeToolCall tc).2.finished = e.finished ∧
        (e.encodeToolCall tc).2.outputTokens = e.outputTokens := by
      rw [StreamEncoder.encodeToolCall]
      split <;> exact ⟨rfl, rfl⟩
    obtain ⟨hfinished, htokens⟩ := ih (e.encodeToolCall tc).2
    exact ⟨hfinished.trans htool.1, htokens.trans htool.2⟩

/-- A chunk reports its usage and does not finish the message by itself. -/
theorem encodeContent_usage :
    (e.encodeContent c).2.finished = e.finished ∧
      (e.encodeContent c).2.outputTokens = c.usage.elim e.outputTokens Usage.completionTokens := by
  have hstart : (e.startMessage c).2.finished = e.finished ∧
      (e.startMessage c).2.outputTokens = e.outputTokens := by
    rw [StreamEncoder.startMessage]
    split <;> exact ⟨rfl, rfl⟩
  obtain ⟨hfinished, htokens⟩ := encodeText_usage (e.startMessage c).2 c
  obtain ⟨hfinished', htokens'⟩ :=
    encodeToolCalls_usage ((e.startMessage c).2.encodeText c).2 c.deltaToolCalls
  have hcontent : (e.encodeContent c).2 =
      (((e.startMessage c).2.encodeText c).2.encodeToolCalls c.deltaToolCalls).2.cacheUsage c := rfl
  rw [hcontent, StreamEncoder.cacheUsage]
  split
  · rename_i hnone
    rw [hnone]
    exact ⟨hfinished'.trans (hfinished.trans hstart.1), htokens'.trans (htokens.trans hstart.2)⟩
  · rename_i u hsome
    rw [hsome]
    exact ⟨hfinished'.trans (hfinished.trans hstart.1), rfl⟩

end Deltas

/-- A message that is finished has no other `message_delta`. -/
theorem deltas_events_of_finished {e : StreamEncoder} (h : e.finished = true) (cs : List Chunk) :
    deltas (e.events cs) = [] := by
  induction cs generalizing e with
  | nil =>
    rw [StreamEncoder.events, StreamEncoder.closing, if_pos h]
    rfl
  | cons c cs ih =>
    have hcontent : (e.encodeContent c).2.finished = true := (encodeContent_usage e c).1.trans h
    have hfinish :
      ((e.encodeContent c).2.emitFinish c.finishReason) = ([], (e.encodeContent c).2) :=
      if_pos hcontent
    have htranslate : e.translate c = e.encodeContent c := by
      by_cases hreason : c.finishReason = ""
      · exact translate_of_unfinished e c hreason
      · rw [translate_of_finish e c hreason, hfinish, List.append_nil]
    rw [StreamEncoder.events, htranslate, deltas_append, deltas_encodeContent, ih hcontent]
    rfl

/-- The chunks up to the first one with a finish reason. -/
def throughFinish : List Chunk → List Chunk
  | [] => []
  | c :: cs => c :: if c.finishReason = "" then throughFinish cs else []

/-- The completion tokens that the chunks report; `tokens` are those that were reported before. -/
def reportedTokens (tokens : Int) (cs : List Chunk) : Int :=
  (lastUsage cs).elim tokens Usage.completionTokens

theorem reportedTokens_cons (tokens : Int) (c : Chunk) (cs : List Chunk) :
    reportedTokens tokens (c :: cs) =
      reportedTokens (c.usage.elim tokens Usage.completionTokens) cs := by
  rw [reportedTokens, reportedTokens, lastUsage_cons]
  cases lastUsage cs <;> rfl

/-- **There is one `message_delta`.**  It has the completion tokens that were reported up to the
chunk with the finish reason. -/
theorem deltas_events {e : StreamEncoder} (h : e.finished = false) (cs : List Chunk) :
    deltas (e.events cs) = [(0, reportedTokens e.outputTokens (throughFinish cs))] := by
  induction cs generalizing e with
  | nil =>
    rw [StreamEncoder.events, StreamEncoder.closing, if_neg (by simp [h]), deltas_emitFinish,
      if_neg (by simp [h])]
    rfl
  | cons c cs ih =>
    obtain ⟨hfinished, htokens⟩ := encodeContent_usage e c
    rw [StreamEncoder.events, throughFinish, reportedTokens_cons, ← htokens]
    by_cases hreason : c.finishReason = ""
    · rw [translate_of_unfinished e c hreason, deltas_append, deltas_encodeContent, if_pos hreason,
        ih (hfinished.trans h)]
      rfl
    · have hdone : ((e.encodeContent c).2.emitFinish c.finishReason).2.finished = true := by
        rw [StreamEncoder.emitFinish]
        split
        · assumption
        · rfl
      rw [translate_of_finish e c hreason, deltas_append, deltas_append, deltas_encodeContent,
        deltas_emitFinish, deltas_events_of_finished hdone, if_neg (by simp [hfinished, h]),
        if_neg hreason]
      rfl

theorem deltaUsage_written {cs : List Chunk} (hraw : ∀ c ∈ cs, c.isRaw = false) :
    (clientEvents (codec.written cs)).filterMap Event.deltaUsage =
      [(0, reportedTokens 0 (throughFinish cs))] := by
  have hstop : messageStop.deltaUsage = none := deltaUsage_sseEvent (by decide) _
  rw [clientEvents_written hraw, List.filterMap_append, List.filterMap_cons_none hstop]
  exact (List.append_nil _).trans (deltas_events rfl cs)

end Anthropic

/-- The tokens of the prompt and those of the completion. -/
def Usage.tokens (u : Usage) : Int × Int := (u.promptTokens, u.completionTokens)

open Anthropic in
/-- **The usage of a translated message.**  The client reads the usage that the stream reports last
iff there are no prompt tokens, and the completion tokens were already reported when the finish
reason came. -/
theorem message_delta_usage_iff (cs : List Chunk) (hraw : ∀ c ∈ cs, c.isRaw = false) :
    ((clientEvents (codec.written cs)).filterMap Event.deltaUsage).getLast? =
      (lastUsage cs).map Usage.tokens ↔
      ∃ u ∈ lastUsage cs,
        u.promptTokens = 0 ∧ reportedTokens 0 (throughFinish cs) = u.completionTokens := by
  rw [deltaUsage_written hraw, List.getLast?_singleton, eq_comm, Option.map_eq_some_iff]
  refine exists_congr fun u ↦ and_congr_right fun _ ↦ ?_
  rw [Usage.tokens, Prod.mk.injEq]
  exact and_congr_right fun _ ↦ eq_comm

open Anthropic in
/-- The usage comes with the finish reason, and there was no prompt. -/
theorem message_delta_usage_with_finish :
    let cs := [Chunk.text "a", .finish (some ⟨0, 5, 5, 0⟩)]
    ((clientEvents (codec.written cs)).filterMap Event.deltaUsage).getLast? =
      (lastUsage cs).map Usage.tokens := by
  intro cs
  exact (message_delta_usage_iff cs (by decide)).mpr ⟨⟨0, 5, 5, 0⟩, rfl, rfl, rfl⟩

open Anthropic in
/-- The usage comes behind the finish reason, as it does from an OpenAI upstream: the client is told
that there were no tokens at all. -/
theorem message_delta_usage_lost :
    let cs :=
      [Chunk.text "a", .finish none, ⟨"m", "x", "", "", [], "", some ⟨7, 5, 12, 0⟩, [], "openai"⟩]
    (∀ c ∈ cs, c.isRaw = false) ∧ lastUsage cs = some ⟨7, 5, 12, 0⟩ ∧
      (clientEvents (codec.written cs)).filterMap Event.deltaUsage = [(0, 0)] ∧
      ((clientEvents (codec.written cs)).filterMap Event.deltaUsage).getLast? ≠
        (lastUsage cs).map Usage.tokens := by
  intro cs
  have hraw : ∀ c ∈ cs, c.isRaw = false := by decide
  have hread : (clientEvents (codec.written cs)).filterMap Event.deltaUsage = [(0, 0)] :=
    deltaUsage_written hraw
  refine ⟨hraw, rfl, hread, ?_⟩
  have hlast : lastUsage cs = some ⟨7, 5, 12, 0⟩ := rfl
  rw [hread, hlast]
  decide

end Voxeltoad
