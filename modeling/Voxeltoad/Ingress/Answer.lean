import Mathlib.Data.List.Perm.Basic
import Voxeltoad.Adapter.Claude
import Voxeltoad.Adapter.Request
import Voxeltoad.Ingress.Content

/-!
# Answers, whole and streamed

A client of the Anthropic protocol gets an answer whole, from `EncodeResponse`, or as events, from
the stream encoder.  `Anthropic.Said` is what it reads out of either: the text, the calls of tools
with their inputs, and why the answer ends.

`answer_either_way` compares the two, if the chunks of the stream add up to the response (`AddsUp`).
In a stream the text may stand behind the calls, and the calls stand in the order in which they were
begun.  The inputs are where the two can differ.  A stream has them as they came, in fragments that
the client puts together and reads; in a response they have been read into Go values and were
written again, and what that does to a number, or to a name that occurs twice, is `AnyValue.kept`.
-/

set_option autoImplicit false

namespace Voxeltoad

namespace Anthropic

variable {F : Type} (fl : Float64 F)

/-! ## Encoding -/

/-- The arguments of a call as a value, or an empty object where they are none. -/
def inputValue (arguments : String) : JsonValue :=
  match (JsonValue.unmarshal (utf8 arguments)).bind (AnyValue.read fl) with
  | none => .obj []
  | some input => input.json fl

/-- The block of a text. -/
def textBlock (text : String) : JsonValue :=
  .obj (goMap [("type", .str "text"), ("text", .str text)])

/-- The block of a call. -/
def toolUseBlock (tc : ToolCall) : JsonValue :=
  .obj (goMap [("type", .str "tool_use"), ("id", .str tc.id), ("name", .str tc.function.name),
    ("input", inputValue fl tc.function.arguments)])

/-- The blocks of a choice. -/
def choiceBlocks (ch : Adapter.Choice) : List JsonValue :=
  (if ch.message.content.text = "" then [] else [textBlock ch.message.content.text]) ++
    ch.message.toolCalls.map (toolUseBlock fl)

/-- What `EncodeResponse` marshals.  An Anthropic message has room for one choice. -/
def responseFields (resp : Adapter.UnifiedResponse) : List (String × JsonValue) :=
  [("id", .str resp.id), ("type", .str "message"), ("role", .str "assistant"),
    ("model", .str resp.model),
    ("content", .arr ((resp.choices.head?.map (choiceBlocks fl)).getD [])),
    ("stop_reason",
      .str ((resp.choices.head?.map fun ch ↦ mapFinishReasonToStop ch.finishReason).getD "")),
    ("stop_sequence", .null)] ++
    match resp.usage with
    | none => []
    | some u =>
        [("usage",
        .obj
        (goMap
        [("input_tokens", .num u.promptTokens), ("output_tokens", .num u.completionTokens)]))]

/-- **`EncodeResponse`.** -/
def encodeResponse (resp : Adapter.UnifiedResponse) : Bytes :=
  if resp.raw ≠ [] ∧ resp.rawProtocol = "anthropic" then resp.raw
  else (JsonValue.obj (goMap (responseFields fl resp))).marshal

/-! ## Reading -/

/-- What a message says. -/
structure Said where
  text : String
  /-- The id, the name and the input, if it can be read. -/
  calls : List (String × String × Option JsonValue)
  stopReason : Option String

/-- The input of a call that came in fragments, put together.  Without any, it is the empty one that
its block began with. -/
def streamedInput (partialJSON : String) : Option JsonValue :=
  if partialJSON = "" then some (.obj []) else JsonValue.unmarshal (utf8 partialJSON)

/-- The input of a call in a response, and the one that is read of a stream: they say the same as
far as Go keeps such a value, and what Go cannot read is an empty object in the response. -/
structure SameInput (whole streamed : Option JsonValue) : Prop where
  readable : ∀ v ∈ streamed, (AnyValue.read fl v).isSome → ∃ w ∈ whole,
    (Agree .any v w ↔ AnyValue.kept fl v = true)
  unreadable : (∀ v ∈ streamed, AnyValue.read fl v = none) → whole = some (.obj [])

/-- Two calls with the same id and the same name. -/
structure SameCall (whole streamed : String × String × Option JsonValue) : Prop where
  id_eq : whole.1 = streamed.1
  name_eq : whole.2.1 = streamed.2.1
  input : SameInput fl whole.2.2 streamed.2.2

/-- The same is said in a response as in a stream, up to the order of the calls. -/
structure Said.Same (whole streamed : Said) : Prop where
  text_eq : whole.text = streamed.text
  calls : ∃ calls, calls.Perm streamed.calls ∧ List.Forall₂ (SameCall fl) whole.calls calls
  stopReason_eq : whole.stopReason = streamed.stopReason

/-- The text of a block. -/
def blockText (block : JsonValue) : Option String :=
  if textField "type" block = some "text" then textField "text" block else none

/-- The call in a block. -/
def blockCall (block : JsonValue) : Option (String × String × Option JsonValue) :=
  if textField "type" block = some "tool_use" then do
    return (← textField "id" block, ← textField "name" block, block.field "input")
  else none

/-- Read a message that came whole. -/
def saidBody (body : Bytes) : Option Said := do
  let message ← JsonValue.unmarshal body
  match message.field "content" with
  | some (.arr blocks) =>
    return ⟨String.join (blocks.filterMap blockText), blocks.filterMap blockCall,
      textField "stop_reason" message⟩
  | _ => none

/-- Why a message ends, as its `message_delta` says. -/
def deltaReason (ev : Event) : Option String :=
  if ev.event = utf8 "message_delta" then (ev.payload "delta").bind (textField "stop_reason")
    else none

/-- Read a message that came as events; the fragments of an input are put together before it is
read. -/
def saidEvents (evs : List Event) : Said where
  text := messageText (evs.filterMap Event.part)
  calls := (toolUses (evs.filterMap Event.part)).map fun u ↦
    (u.2.1, u.2.2, streamedInput (inputOf u.1 (evs.filterMap Event.part)))
  stopReason := (evs.filterMap deltaReason).getLast?

/-! ## Adding up -/

/-- The finish reason of a stream. -/
def reasonOf (cs : List Chunk) : Option String :=
  (cs.map Chunk.finishReason).find? fun reason ↦ reason ≠ ""

/-- The call that deltas add up to: the id, the name and the arguments. -/
def callOf (tcs : List ToolCallDelta) (index : Int) : Option (String × String × String) :=
  (firstDelta index tcs).map fun tc ↦ (tc.id, tc.function.name, argumentsOf index tcs)

/-- **The chunks of a stream add up to a choice.** -/
structure AddsUp (cs : List Chunk) (ch : Adapter.Choice) : Prop where
  text : ch.message.content.text = chunkText cs
  /-- There is a call for each index, in any order. -/
  calls : ∃ indices : List Int, indices.Nodup ∧
    (∀ index, index ∈ indices ↔ ∃ tc ∈ cs.flatMap Chunk.deltaToolCalls, tc.index = index) ∧
    ch.message.toolCalls.map (fun tc ↦ some (tc.id, tc.function.name, tc.function.arguments)) =
      indices.map (callOf (cs.flatMap Chunk.deltaToolCalls))
  reason : reasonOf cs = some ch.finishReason

/-! ## An answer that is whole -/

section Whole

variable (text : String) (tc : ToolCall) (ch : Adapter.Choice)

theorem blockText_textBlock : blockText (textBlock text) = some text := by
  simp [blockText, textBlock, textField_goMap, List.lookup_cons]

theorem blockCall_textBlock : blockCall (textBlock text) = none := by
  simp [blockCall, textBlock, textField_goMap]

theorem blockText_toolUseBlock : blockText (toolUseBlock fl tc) = none := by
  simp [blockText, toolUseBlock, textField_goMap]

theorem blockCall_toolUseBlock :
    blockCall (toolUseBlock fl tc) =
      some (tc.id, tc.function.name, some (inputValue fl tc.function.arguments)) := by
  simp [blockCall, toolUseBlock, textField_goMap, JsonValue.field, lookup_goMap_eq,
    List.lookup_cons]

/-- The text of a choice. -/
theorem blockText_choiceBlocks :
    String.join ((choiceBlocks fl ch).filterMap blockText) = ch.message.content.text := by
  have hcalls : (ch.message.toolCalls.map (toolUseBlock fl)).filterMap blockText = [] := by
    rw [List.filterMap_map, List.filterMap_eq_nil_iff]
    exact fun tc _ ↦ blockText_toolUseBlock fl tc
  rw [choiceBlocks, List.filterMap_append, hcalls, List.append_nil]
  split
  · rename_i h
    rw [h]
    rfl
  · rw [List.filterMap_cons_some (blockText_textBlock _), List.filterMap_nil, String.join_cons]
    exact String.append_empty

/-- The calls of a choice. -/
theorem blockCall_choiceBlocks :
    (choiceBlocks fl ch).filterMap blockCall =
      ch.message.toolCalls.map fun tc ↦
      (tc.id, tc.function.name, some (inputValue fl tc.function.arguments)) := by
  have htext :
      (if ch.message.content.text = "" then [] else [textBlock ch.message.content.text]).filterMap
      blockCall =
      [] := by
    split
    · rfl
    · rw [List.filterMap_cons_none (blockCall_textBlock _), List.filterMap_nil]
  rw [choiceBlocks, List.filterMap_append, htext, List.nil_append, List.filterMap_map,
    ← List.filterMap_eq_map]
  exact List.filterMap_congr fun tc _ ↦ blockCall_toolUseBlock fl tc

/-- **What is read of a response.** -/
theorem saidBody_encodeResponse {resp : Adapter.UnifiedResponse}
    (hraw : ¬ (resp.raw ≠ [] ∧ resp.rawProtocol = "anthropic"))
    {ch : Adapter.Choice} (hch : resp.choices.head? = some ch) :
    saidBody (encodeResponse fl resp) = some
      { text := ch.message.content.text
        calls := ch.message.toolCalls.map fun tc ↦
          (tc.id, tc.function.name, some (inputValue fl tc.function.arguments))
        stopReason := some (mapFinishReasonToStop ch.finishReason) } := by
  have hnodup : ((responseFields fl resp).map Prod.fst).Nodup := by
    rw [responseFields]
    cases resp.usage <;> simp
  have hcontent : (JsonValue.obj (goMap (responseFields fl resp))).field "content" =
      some (.arr (choiceBlocks fl ch)) := by
    rw [JsonValue.field, lookup_goMap_eq hnodup, responseFields, hch]
    rfl
  have hreason : textField "stop_reason" (.obj (goMap (responseFields fl resp))) =
      some (mapFinishReasonToStop ch.finishReason) := by
    rw [textField_goMap hnodup, responseFields, hch]
    rfl
  rw [saidBody, encodeResponse, if_neg hraw, JsonValue.unmarshal_marshal]
  simp only [Option.bind_eq_bind, Option.bind_some, hcontent, hreason, blockText_choiceBlocks,
    blockCall_choiceBlocks, Option.pure_def]

end Whole

/-! ## An answer that is streamed -/

section Streamed

theorem deltaReason_sseEvent {eventType : String} (h : utf8 eventType ≠ utf8 "message_delta")
    (fields : List (String × JsonValue)) : deltaReason (sseEvent eventType fields) = none :=
  if_neg h

theorem ContentEvent.deltaReason_eq {ev : Event} (h : ContentEvent ev) : deltaReason ev = none := by
  cases h <;> exact deltaReason_sseEvent (by decide) _

theorem deltaReason_messageDelta (reason : String) (outputTokens : Int) :
    deltaReason (emitMessageDelta reason outputTokens) = some (mapFinishReasonToStop reason) := by
  rw [emitMessageDelta, deltaReason, event_sseEvent, if_pos rfl,
    payload_sseEvent _ (by simp) (by decide)]
  simp [textField_goMap]

variable (e : StreamEncoder)

theorem deltaReason_encodeContent (c : Chunk) :
    (e.encodeContent c).1.filterMap deltaReason = [] := by
  rw [List.filterMap_eq_nil_iff]
  exact fun ev hev ↦ (contentEvent_encodeContent e c ev hev).deltaReason_eq

theorem deltaReason_emitFinish (reason : String) :
    (e.emitFinish reason).1.filterMap deltaReason = if e.finished then []
    else [mapFinishReasonToStop reason] := by
  rw [StreamEncoder.emitFinish]
  split
  · rfl
  · have hstops : (e.stopOrder.map emitContentBlockStop).filterMap deltaReason = [] := by
      rw [List.filterMap_map, List.filterMap_eq_nil_iff]
      exact fun i _ ↦ deltaReason_sseEvent (by decide) _
    rw [List.filterMap_append, hstops, List.filterMap_cons_some (deltaReason_messageDelta _ _)]
    rfl

variable {e}

/-- A message that is finished does not end once more. -/
theorem deltaReason_events_of_finished (h : e.finished = true) (cs : List Chunk) :
    (e.events cs).filterMap deltaReason = [] := by
  induction cs generalizing e with
  | nil =>
    rw [StreamEncoder.events, StreamEncoder.closing, if_pos h]
    rfl
  | cons c cs ih =>
    have hcontent : (e.encodeContent c).2.finished = true := (encodeContent_usage e c).1.trans h
    have hfinish :
      ((e.encodeContent c).2.emitFinish c.finishReason) = ([], (e.encodeContent c).2) :=
      if_pos hcontent
    have htranslate : e.translate c = e.encodeContent c := by
      by_cases hreason : c.finishReason = ""
      · exact translate_of_unfinished e c hreason
      · rw [translate_of_finish e c hreason, hfinish, List.append_nil]
    rw [StreamEncoder.events, htranslate, List.filterMap_append,
      deltaReason_encodeContent, ih hcontent]
    rfl

/-- **A message ends once**, for the first reason that the stream has. -/
theorem deltaReason_events (h : e.finished = false) (cs : List Chunk) :
    (e.events cs).filterMap deltaReason = [mapFinishReasonToStop ((reasonOf cs).getD "stop")] := by
  induction cs generalizing e with
  | nil =>
    rw [StreamEncoder.events, StreamEncoder.closing, if_neg (by simp [h]), deltaReason_emitFinish,
      if_neg (by simp [h])]
    rfl
  | cons c cs ih =>
    have hunfinished : (e.encodeContent c).2.finished = false := (encodeContent_usage e c).1.trans h
    rw [StreamEncoder.events, reasonOf, List.map_cons]
    by_cases hreason : c.finishReason = ""
    · rw [translate_of_unfinished e c hreason, List.filterMap_append, deltaReason_encodeContent,
        ih hunfinished, List.find?_cons_of_neg (by simp [hreason])]
      rfl
    · have hdone : ((e.encodeContent c).2.emitFinish c.finishReason).2.finished = true := by
        rw [StreamEncoder.emitFinish]
        split
        · assumption
        · rfl
      rw [translate_of_finish e c hreason, List.filterMap_append, List.filterMap_append,
        deltaReason_encodeContent, deltaReason_emitFinish, deltaReason_events_of_finished hdone,
        if_neg (by simp [hunfinished]), List.find?_cons_of_pos (by simpa using hreason)]
      rfl

theorem stopReason_written {cs : List Chunk} (hraw : ∀ c ∈ cs, c.isRaw = false) :
    (clientEvents (codec.written cs)).filterMap deltaReason =
      [mapFinishReasonToStop ((reasonOf cs).getD "stop")] := by
  have hstop : deltaReason messageStop = none := deltaReason_sseEvent (by decide) _
  rw [clientEvents_written hraw, List.filterMap_append, List.filterMap_cons_none hstop]
  exact (List.append_nil _).trans (deltaReason_events rfl cs)

/-- The content that the client reads, when there is a chunk at all. -/
theorem carries_written {cs : List Chunk} (hne : cs ≠ []) (hraw : ∀ c ∈ cs, c.isRaw = false)
    (hquiet : Quiet cs) :
    ∃ blocks, CarriesCalls blocks (chunkText cs) (cs.flatMap Chunk.deltaToolCalls)
      ((clientEvents (codec.written cs)).filterMap Event.part) := by
  obtain ⟨c, cs, rfl⟩ := List.exists_cons_of_ne_nil hne
  obtain ⟨e, hopen, -, htools, hevents⟩ := events_cons c cs
  have hnil : CarriesCalls e.toolBlocks "" [] [] := htools ▸ CarriesCalls.nil
  obtain ⟨blocks, hblocks⟩ := carries_events hopen hnil hquiet
  refine ⟨blocks, ?_⟩
  rw [clientEvents_written hraw, hevents, List.filterMap_append,
    List.filterMap_cons_none part_messageStop, List.filterMap_cons_none (part_messageStart ..),
    List.filterMap_nil, List.append_nil]
  simpa [parts] using hblocks

end Streamed

/-! ## The same in both ways -/

/-- The input in a response is what Go makes of the one in a stream. -/
theorem inputValue_eq (arguments : String) :
    inputValue fl arguments =
      (((streamedInput arguments).bind (AnyValue.read fl)).map (AnyValue.json fl)).getD
      (.obj []) := by
  rw [inputValue, streamedInput]
  split
  · rename_i h
    split
    · rename_i hempty
      rfl
    · rw [h]
      rfl
  · rename_i input h
    split
    · rename_i hempty
      rw [hempty] at h
      cases h
    · rw [h]
      rfl

theorem sameInput (arguments : String) :
    SameInput fl (some (inputValue fl arguments)) (streamedInput arguments) := by
  rw [inputValue_eq]
  constructor
  case readable =>
    intro v hv hread
    obtain ⟨a, ha⟩ := Option.isSome_iff_exists.mp hread
    rw [Option.mem_def.mp hv, Option.bind_some, ha, Option.map_some, Option.getD_some]
    exact ⟨_, rfl, AnyValue.agree_read v ha⟩
  case unreadable =>
    intro hnone
    have hbind : (streamedInput arguments).bind (AnyValue.read fl) = none :=
      Option.bind_eq_none_iff.mpr hnone
    rw [hbind]
    rfl

/-- The calls that a stream carries are those that its deltas add up to. -/
theorem calls_of_carries {blocks : List (Int × Nat)} {text : String} {tcs : List ToolCallDelta}
    {ps : List BlockPart} (h : CarriesCalls blocks text tcs ps) :
    (toolUses ps).map (fun u ↦ some (u.2.1, u.2.2, inputOf u.1 ps)) =
      (blocks.map Prod.fst).map (callOf tcs) := by
  have huses :=
    congrArg (List.map (Option.map fun u ↦ (u.2.1, u.2.2, inputOf u.1 ps))) h.toolUses_eq
  rw [List.map_map, List.map_map] at huses
  refine huses.trans ?_
  rw [List.map_map]
  refine List.map_congr_left fun p hp ↦ ?_
  simp only [Function.comp_apply, Option.map_map, callOf]
  refine Option.map_congr fun tc _ ↦ ?_
  simp only [Function.comp_apply, h.input_eq p hp]

/-- The calls of a stream and of a response that it adds up to are the same, in some order. -/
theorem calls_perm {cs : List Chunk} {ch : Adapter.Choice} (hsum : AddsUp cs ch)
    {blocks : List (Int × Nat)} {text : String} {ps : List BlockPart}
    (h : CarriesCalls blocks text (cs.flatMap Chunk.deltaToolCalls) ps) :
    (ch.message.toolCalls.map fun tc ↦ (tc.id, tc.function.name, tc.function.arguments)).Perm
      ((toolUses ps).map fun u ↦ (u.2.1, u.2.2, inputOf u.1 ps)) := by
  obtain ⟨indices, hnodup, hmem, hcalls⟩ := hsum.calls
  have hperm : indices.Perm (blocks.map Prod.fst) :=
    (List.perm_ext_iff_of_nodup hnodup h.index_nodup).mpr fun i ↦
    (hmem i).trans (h.mem_index i).symm
  have hsome := hperm.map (callOf (cs.flatMap Chunk.deltaToolCalls))
  rw [← hcalls, ← calls_of_carries h] at hsome
  have hvalues := hsome.filterMap id
  simpa [List.filterMap_map, Function.comp_def] using hvalues

end Anthropic

open Anthropic in
/-- **An answer is the same, whole or streamed.**  The client of a stream reads what the client of
the response reads that the stream adds up to: the text, the calls of tools with their inputs, and
why it ends. -/
theorem answer_either_way {F : Type} (fl : Float64 F) {resp : Adapter.UnifiedResponse}
    {ch : Adapter.Choice} {cs : List Chunk} (hch : resp.choices.head? = some ch)
    (hrawResp : ¬ (resp.raw ≠ [] ∧ resp.rawProtocol = "anthropic"))
    (hraw : ∀ c ∈ cs, c.isRaw = false) (hquiet : Quiet cs) (hsum : AddsUp cs ch) :
    ∃ said, saidBody (encodeResponse fl resp) = some said ∧
      said.Same fl (saidEvents (clientEvents (codec.written cs))) := by
  have hne : cs ≠ [] := by
    rintro rfl
    exact absurd hsum.reason.symm (Option.some_ne_none _)
  obtain ⟨blocks, hblocks⟩ := carries_written hne hraw hquiet
  refine ⟨_, saidBody_encodeResponse fl hrawResp hch, ?_, ?_, ?_⟩
  · exact hsum.text.trans hblocks.text_eq.symm
  · have hperm := (calls_perm hsum hblocks).map fun c ↦ (c.1, c.2.1, streamedInput c.2.2)
    rw [List.map_map, List.map_map] at hperm
    refine ⟨_, hperm, ?_⟩
    rw [List.forall₂_map_left_iff, List.forall₂_map_right_iff, List.forall₂_same]
    exact fun tc _ ↦ ⟨rfl, rfl, sameInput fl tc.function.arguments⟩
  · rw [saidEvents, stopReason_written hraw, hsum.reason]
    rfl

open Anthropic in
/-- Two calls and a text, in turns; in the response the second call stands first. -/
theorem answer_either_way_sample :
    let delta : Int → String → String → String → Chunk := fun index id name arguments ↦
      ⟨"m", "x", "", "", [⟨index, id, "function", ⟨name, arguments⟩⟩], "", none, [], "openai"⟩
    let cs :=
      [delta 0 "c0" "f" "\x7b\"a\":", .text "a", delta 1 "c1" "g" "", delta 0 "" "" "1\x7d",
      .text "b", .finish none]
    let calls : List ToolCall :=
      [⟨"c1", "function", "g", ""⟩, ⟨"c0", "function", "f", "\x7b\"a\":1\x7d"⟩]
    let resp : Adapter.UnifiedResponse :=
      ⟨"m", "x", [⟨0, ⟨"assistant", .ofText "ab", "", calls, ""⟩, "stop"⟩], none, "", [], "openai"⟩
    let fl : Float64 Int := ⟨fun n ↦ match n with
      | .int n => some n
      | _ => none, .int⟩
    ∃ said, saidBody (encodeResponse fl resp) = some said ∧
      said.Same fl (saidEvents (clientEvents (codec.written cs))) := by
  intro delta cs calls resp fl
  refine answer_either_way fl rfl (by decide) (by decide) (by decide)
    ⟨by decide, ⟨[1, 0], by decide, ?_, by decide⟩, rfl⟩
  intro index
  simp [cs, delta, Chunk.text, Chunk.finish]
  omega

end Voxeltoad
