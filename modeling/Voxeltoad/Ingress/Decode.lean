import Voxeltoad.Adapter.Request
import Voxeltoad.Lib.Loop

/-!
# Anthropic requests

`DecodeRequest` of the Anthropic codec, `internal/ingress/anthropic/anthropic.go`: an Anthropic
request becomes a unified one.  A message of an Anthropic request may carry blocks of several kinds,
and becomes several messages: the results of tools first, and then one message with everything else.

`decodeMessage_eq` says which messages these are.  There is room for one result only, so that of
several results in one message the last is kept: `blocks_kept_iff`.

The content of a message and the input of a tool come with their texts (`Written`): the arguments of
a call are the text of the input, byte for byte.  What else is kept as it came is a JSON value here.
-/

set_option autoImplicit false

namespace Voxeltoad

open JsonValue (Written)
open Unmarshal

namespace Anthropic

/-! ## What comes over the wire -/

/-- `wireContentBlock`. -/
structure WireContentBlock where
  type : String
  text : String
  id : String
  name : String
  input : Option Written
  toolUseID : String
  content : Option Written
  deriving Repr

/-- `wireMessage`. -/
structure WireMessage where
  role : String
  content : Option Written
  deriving Repr

/-- `wireTool`. -/
structure WireTool where
  name : String
  description : String
  inputSchema : Option JsonValue
  deriving Repr

/-- `wireRequest`. -/
structure WireRequest (F : Type) where
  model : String
  system : Option Written
  messages : List WireMessage
  maxTokens : Int
  stream : Bool
  temp : Option F
  tools : List WireTool
  toolChoice : Option JsonValue

namespace WireContentBlock

def names : List String := ["type", "text", "id", "name", "input", "tool_use_id", "content"]

def zero : WireContentBlock := ⟨"", "", "", "", none, "", none⟩

def read : WireContentBlock → Written → Option WireContentBlock :=
  recordWritten fun b ms ↦ do
    let type ← field (ofValue string) b.type names "type" ms
    let text ← field (ofValue string) b.text names "text" ms
    let id ← field (ofValue string) b.id names "id" ms
    let name ← field (ofValue string) b.name names "name" ms
    let input ← field asWritten b.input names "input" ms
    let toolUseID ← field (ofValue string) b.toolUseID names "tool_use_id" ms
    let content ← field asWritten b.content names "content" ms
    return ⟨type, text, id, name, input, toolUseID, content⟩

end WireContentBlock

namespace WireMessage

def names : List String := ["role", "content"]

def zero : WireMessage := ⟨"", none⟩

def read : WireMessage → Written → Option WireMessage :=
  recordWritten fun m ms ↦ do
    let role ← field (ofValue string) m.role names "role" ms
    let content ← field asWritten m.content names "content" ms
    return ⟨role, content⟩

end WireMessage

namespace WireTool

def names : List String := ["name", "description", "input_schema"]

def zero : WireTool := ⟨"", "", none⟩

def read : WireTool → Written → Option WireTool :=
  recordWritten fun t ms ↦ do
    let name ← field (ofValue string) t.name names "name" ms
    let description ← field (ofValue string) t.description names "description" ms
    let inputSchema ← field (ofValue rawMessage) t.inputSchema names "input_schema" ms
    return ⟨name, description, inputSchema⟩

end WireTool

namespace WireRequest

variable {F : Type}

def names : List String :=
  ["model", "system", "messages", "max_tokens", "stream", "temperature", "tools", "tool_choice"]

def zero : WireRequest F := ⟨"", none, [], 0, false, none, [], none⟩

def read (fl : Float64 F) : WireRequest F → Written → Option (WireRequest F) :=
  recordWritten fun r ms ↦ do
    let model ← field (ofValue string) r.model names "model" ms
    let system ← field asWritten r.system names "system" ms
    let messages ← field (sliceWritten WireMessage.read .zero) r.messages names "messages" ms
    let maxTokens ← field (ofValue int) r.maxTokens names "max_tokens" ms
    let stream ← field (ofValue bool) r.stream names "stream" ms
    let temp ← field (ofValue (Adapter.floatPointer fl)) r.temp names "temperature" ms
    let tools ← field (sliceWritten WireTool.read .zero) r.tools names "tools" ms
    let toolChoice ← field (ofValue rawMessage) r.toolChoice names "tool_choice" ms
    return ⟨model, system, messages, maxTokens, stream, temp, tools, toolChoice⟩

end WireRequest

/-! ## Decoding -/

/-- Why a request is refused. -/
inductive DecodeError where
  /-- `anthropic: parse <what>` and the error of `json.Unmarshal` -/
  | parse (what : String)
  /-- `anthropic: <what> must be string or array, got <text>` -/
  | shape (what : String) (got : Written)
  /-- `anthropic: unsupported content type: <type>`, and for images ` (ADR-0045 gap)` behind it -/
  | unsupported (type : String)
  deriving Repr

/-- The blocks of an array. -/
def blocksOf (ws : List Written) : Option (List WireContentBlock) :=
  items WireContentBlock.read .zero [] ws

/-- `decodeSystem`. -/
def decodeSystem : Written → Except DecodeError String
  | .atom _ .null => .ok ""
  | .atom _ (.str s) => .ok s
  | .arr _ ws =>
    match blocksOf ws with
    | none => .error (.parse "system array")
    | some blocks =>
      .ok ("\n\n".intercalate
        ((blocks.filter fun b ↦ b.type = "text" ∧ b.text ≠ "").map WireContentBlock.text))
  | w => .error (.shape "system" w)

/-- `flattenToolResultContent`. -/
def flattenToolResultContent : Option Written → String
  | some (.atom _ (.str s)) => s
  | some (.arr _ ws) =>
    match blocksOf ws with
    | none => ""
    | some blocks =>
        "\n".intercalate ((blocks.filter fun b ↦ b.type = "text").map WireContentBlock.text)
  | _ => ""

/-- `mapRole`. -/
def mapRole (r : String) : String :=
  if r = "user" then "user"
  else if r = "assistant" then "assistant"
  else if r = "system" then "system"
  else r

namespace WireContentBlock

/-- The part that a text block becomes. -/
def textPart (b : WireContentBlock) : JsonValue :=
  .obj [("type", .str "text"), ("text", .str b.text)]

/-- The call that a `tool_use` block becomes. -/
def toolCall (b : WireContentBlock) : ToolCall where
  id := b.id
  type := "function"
  function := ⟨b.name, match b.input with
    | none => "{}"
    | some w => String.ofList w.text⟩

/-- The message that a `tool_result` block becomes. -/
def resultMessage (b : WireContentBlock) : Message where
  role := "tool"
  content := .ofText (flattenToolResultContent b.content)
  toolCallID := b.toolUseID
  toolCalls := []
  name := ""

end WireContentBlock

/-- The blocks of a message that have been looked at, by type. -/
structure SplitBlocks where
  textParts : List JsonValue
  toolCalls : List ToolCall
  toolResult : Option Message
  deriving Repr

/-- The body of the loop over the blocks. -/
def SplitBlocks.add (acc : SplitBlocks) (b : WireContentBlock) : Except DecodeError SplitBlocks :=
  if b.type = "text" then .ok { acc with textParts := acc.textParts ++ [b.textPart] }
  else if b.type = "tool_use" then .ok { acc with toolCalls := acc.toolCalls ++ [b.toolCall] }
  else if b.type = "tool_result" then .ok { acc with toolResult := some b.resultMessage }
  else .error (.unsupported b.type)

/-- What is left for a message of the original role. -/
def SplitBlocks.rest (role : String) (acc : SplitBlocks) : List Message :=
  if acc.textParts = [] ∧ acc.toolCalls = [] then []
  else [{
    role := role
    content := ⟨if acc.textParts = [] then none else some (.arr acc.textParts)⟩
    toolCallID := ""
    toolCalls := if role = "assistant" then acc.toolCalls else []
    name := "" }]

/-- **`decodeMessage`.** -/
def decodeMessage (m : WireMessage) : Except DecodeError (List Message) :=
  let role := mapRole m.role
  match m.content with
  | none => .ok [⟨role, ⟨none⟩, "", [], ""⟩]
  | some (.atom _ (.str s)) => .ok [⟨role, .ofText s, "", [], ""⟩]
  | some (.arr _ ws) =>
    match blocksOf ws with
    | none => .error (.parse (m.role ++ " content array"))
    | some blocks => do
      let acc ← blocks.foldlM SplitBlocks.add ⟨[], [], none⟩
      return acc.toolResult.toList ++ acc.rest role
  | some w => .error (.shape (m.role ++ " content") w)

/-! ### What becomes of the blocks -/

/-- The messages that the tool results of a message are to become, in the order of the blocks. -/
def toolResults (blocks : List WireContentBlock) : List Message :=
  (blocks.filter fun b ↦ b.type = "tool_result").map WireContentBlock.resultMessage

/-- The texts and the tool calls of a message, all of them in order. -/
def textsAndCalls (blocks : List WireContentBlock) : SplitBlocks where
  textParts := (blocks.filter fun b ↦ b.type = "text").map WireContentBlock.textPart
  toolCalls := (blocks.filter fun b ↦ b.type = "tool_use").map WireContentBlock.toolCall
  toolResult := none

/-- Blocks of the types that a message of this role may have. -/
def Supported (role : String) (blocks : List WireContentBlock) : Prop :=
  ∀ b ∈ blocks, b.type = "text" ∨ b.type = "tool_use" ∧ role = "assistant" ∨
  b.type = "tool_result" ∧ role = "user"

theorem mapRole_eq (r : String) : mapRole r = r := by
  rw [mapRole]
  split_ifs with h h h <;> simp [h]

/-- The loop takes each block to its kind, and a result over the one before. -/
theorem foldlM_add {blocks : List WireContentBlock} {role : String} (h : Supported role blocks)
    (acc : SplitBlocks) : blocks.foldlM SplitBlocks.add acc = .ok {
      textParts := acc.textParts ++ (textsAndCalls blocks).textParts
      toolCalls := acc.toolCalls ++ (textsAndCalls blocks).toolCalls
      toolResult := (toolResults blocks).getLast?.or acc.toolResult } := by
  induction blocks generalizing acc with
  | nil => simp [textsAndCalls, toolResults, pure, Except.pure]
  | cons b blocks ih =>
    obtain ⟨hb, hblocks⟩ := List.forall_mem_cons.mp h
    rw [List.foldlM_cons]
    rcases hb with hb | ⟨hb, -⟩ | ⟨hb, -⟩
    · have hadd :
        acc.add b = .ok { acc with textParts := acc.textParts ++ [b.textPart] } := if_pos hb
      refine Loop.bind_eq_ok.mpr ⟨_, hadd, (ih hblocks _).trans ?_⟩
      simp [textsAndCalls, toolResults, hb]
    · have hadd : acc.add b = .ok { acc with toolCalls := acc.toolCalls ++ [b.toolCall] } := by
        rw [SplitBlocks.add, if_neg (by simp [hb]), if_pos hb]
      refine Loop.bind_eq_ok.mpr ⟨_, hadd, (ih hblocks _).trans ?_⟩
      simp [textsAndCalls, toolResults, hb]
    · have hadd : acc.add b = .ok { acc with toolResult := some b.resultMessage } := by
        rw [SplitBlocks.add, if_neg (by simp [hb]), if_neg (by simp [hb]), if_pos hb]
      have hlast :
          (toolResults (b :: blocks)).getLast? =
          (toolResults blocks).getLast?.or (some b.resultMessage) := by
        have hcons : toolResults (b :: blocks) = b.resultMessage :: toolResults blocks := by
          simp [toolResults, hb]
        rw [hcons, List.getLast?_cons]
        rcases (toolResults blocks).getLast? <;> rfl
      refine Loop.bind_eq_ok.mpr ⟨_, hadd, (ih hblocks _).trans ?_⟩
      simp [textsAndCalls, hlast, hb]

/-- **The messages of a message with blocks**: the last result, and the rest. -/
theorem decodeMessage_eq {m : WireMessage} {text : List Char} {ws : List Written}
    {blocks : List WireContentBlock} (hcontent : m.content = some (.arr text ws))
    (hblocks : blocksOf ws = some blocks) (h : Supported m.role blocks) :
    decodeMessage m =
      .ok ((toolResults blocks).getLast?.toList ++ (textsAndCalls blocks).rest m.role) := by
  simp only [decodeMessage, hcontent, hblocks, mapRole_eq]
  refine Loop.bind_eq_ok.mpr ⟨_, foldlM_add h _, ?_⟩
  simp [SplitBlocks.rest, pure, Except.pure]

theorem toList_getLast?_eq_iff {α : Type} {l : List α} : l.getLast?.toList = l ↔ l.length ≤ 1 := by
  rcases l with _ | ⟨a, _ | ⟨b, l⟩⟩
  · simp
  · simp
  · refine iff_of_false (fun h ↦ ?_) (by simp)
    have hlength := congrArg List.length h
    rw [List.getLast?_cons, Option.toList_some] at hlength
    simp at hlength

/-- The message for a tool result. -/
structure ResultOf (b : WireContentBlock) (m : Message) : Prop where
  role_eq : m.role = "tool"
  content_eq : m.content = .ofText (flattenToolResultContent b.content)
  toolCallID_eq : m.toolCallID = b.toolUseID
  toolCalls_eq : m.toolCalls = []
  name_eq : m.name = ""

/-- The call that a block asks for.  Its arguments are the input as it was written. -/
structure CallOf (b : WireContentBlock) (tc : ToolCall) : Prop where
  id_eq : tc.id = b.id
  type_eq : tc.type = "function"
  name_eq : tc.function.name = b.name
  arguments_eq : tc.function.arguments =
    String.ofList ((b.input.map Written.text).getD ['\x7b', '\x7d'])

/-- The message that carries the texts and the calls of the blocks, and nothing else. -/
structure CarriesRest (role : String) (blocks : List WireContentBlock) (m : Message) : Prop where
  role_eq : m.role = role
  content_eq : m.content = ⟨if (textsAndCalls blocks).textParts = [] then none
    else some (.arr (textsAndCalls blocks).textParts)⟩
  toolCalls_eq : List.Forall₂ CallOf (blocks.filter fun b ↦ b.type = "tool_use") m.toolCalls
  toolCallID_eq : m.toolCallID = ""
  name_eq : m.name = ""

/-- No block is lost: there is a message for every tool result, in order, and after them one that
carries the rest, if there is any. -/
def KeepsBlocks (role : String) (blocks : List WireContentBlock) (out : List Message) : Prop :=
  ∃ (results : List Message) (rest : Option Message), out = results ++ rest.toList ∧
    List.Forall₂ ResultOf (blocks.filter fun b ↦ b.type = "tool_result") results ∧
    (rest = none ↔ ∀ b ∈ blocks, b.type = "tool_result") ∧ ∀ m ∈ rest, CarriesRest role blocks m

theorem resultOf_iff {b : WireContentBlock} {m : Message} : ResultOf b m ↔ m = b.resultMessage := by
  constructor
  · rintro ⟨hrole, hcontent, hid, hcalls, hname⟩
    cases m
    simp only [WireContentBlock.resultMessage] at *
    simp [hrole, hcontent, hid, hcalls, hname]
  · rintro rfl
    exact ⟨rfl, rfl, rfl, rfl, rfl⟩

theorem callOf_toolCall (b : WireContentBlock) : CallOf b b.toolCall := by
  refine ⟨rfl, rfl, rfl, ?_⟩
  rw [WireContentBlock.toolCall]
  cases b.input <;> rfl

/-- There is one message for each tool result, and it is the one that is made of it. -/
theorem forall₂_resultOf {blocks : List WireContentBlock} {results : List Message} :
    List.Forall₂ ResultOf (blocks.filter fun b ↦ b.type = "tool_result") results ↔
      results = toolResults blocks := by
  have hsame : ResultOf = fun b m ↦ b.resultMessage = m := by
    funext b m
    exact propext (resultOf_iff.trans eq_comm)
  rw [hsame, ← List.forall₂_map_left_iff, List.forall₂_eq_eq_eq]
  exact eq_comm

/-- The rest is as it should be. -/
theorem rest_eq {role : String} {blocks : List WireContentBlock} (h : Supported role blocks) :
    ∃ rest : Option Message, (textsAndCalls blocks).rest role = rest.toList ∧
      (rest = none ↔ ∀ b ∈ blocks, b.type = "tool_result") ∧ ∀ m ∈ rest,
      CarriesRest role blocks m := by
  have hempty : ((textsAndCalls blocks).textParts = [] ∧ (textsAndCalls blocks).toolCalls = []) ↔
      ∀ b ∈ blocks, b.type = "tool_result" := by
    simp only [textsAndCalls, List.map_eq_nil_iff, List.filter_eq_nil_iff, decide_eq_true_eq]
    constructor
    · exact fun ⟨htext, hcall⟩ b hb ↦ ((h b hb).resolve_left (htext b hb)).resolve_left
        (fun h ↦ hcall b hb h.1) |>.1
    · exact fun hall ↦ ⟨fun b hb htext ↦ by simp [hall b hb] at htext,
        fun b hb hcall ↦ by simp [hall b hb] at hcall⟩
  by_cases hnone : (textsAndCalls blocks).textParts = [] ∧ (textsAndCalls blocks).toolCalls = []
  · exact ⟨none, if_pos hnone, iff_of_true rfl (hempty.mp hnone), by simp⟩
  · refine ⟨some _, if_neg hnone, iff_of_false (by simp) fun hall ↦ hnone (hempty.mpr hall), ?_⟩
    intro m hm
    obtain rfl := Option.mem_some_iff.mp hm
    have hcallOf : List.Forall₂ CallOf (blocks.filter fun b ↦ b.type = "tool_use")
        (textsAndCalls blocks).toolCalls :=
      List.forall₂_map_right_iff.mpr (List.forall₂_same.mpr fun b _ ↦ callOf_toolCall b)
    refine ⟨rfl, rfl, ?_, rfl, rfl⟩
    by_cases hrole : role = "assistant"
    · rwa [if_pos hrole]
    · have hcalls : (textsAndCalls blocks).toolCalls = [] := by
        simp only [textsAndCalls, List.map_eq_nil_iff, List.filter_eq_nil_iff, decide_eq_true_eq]
        intro b hb hcall
        rcases h b hb with htype | ⟨-, hassistant⟩ | ⟨htype, -⟩
        · simp [hcall] at htype
        · exact hrole hassistant
        · simp [hcall] at htype
      rwa [if_neg hrole, ← hcalls]

/-- The messages for tool results are those of role `tool`. -/
theorem filter_role_append {role : String} {blocks : List WireContentBlock} (hrole : role ≠ "tool")
    {rest : Option Message} (hrest : ∀ m ∈ rest, m.role = role) {results : List Message}
    (hresults : ∀ m ∈ results, m ∈ toolResults blocks) :
    (results ++ rest.toList).filter (fun m ↦ m.role = "tool") = results := by
  have hkept : results.filter (fun m ↦ decide (m.role = "tool")) = results := by
    refine List.filter_eq_self.mpr fun m hm ↦ ?_
    obtain ⟨b, -, rfl⟩ := List.mem_map.mp (hresults m hm)
    rfl
  have hdropped : rest.toList.filter (fun m ↦ decide (m.role = "tool")) = [] := by
    refine List.filter_eq_nil_iff.mpr fun m hm ↦ ?_
    simpa [hrest m (Option.mem_toList.mp hm)] using hrole
  rw [List.filter_append, hkept, hdropped, List.append_nil]

/-- **When no block of a message is lost**: where it has no more than one tool result. -/
theorem blocks_kept_iff {m : WireMessage} {text : List Char} {ws : List Written}
    {blocks : List WireContentBlock} (hcontent : m.content = some (.arr text ws))
    (hblocks : blocksOf ws = some blocks) (h : Supported m.role blocks) :
    (∃ out, decodeMessage m = .ok out ∧ KeepsBlocks m.role blocks out) ↔
      (blocks.filter fun b ↦ b.type = "tool_result").length ≤ 1 := by
  obtain ⟨rest, hrest, hnone, hcarries⟩ := rest_eq h
  rw [decodeMessage_eq hcontent hblocks h, hrest]
  simp only [Except.ok.injEq, exists_eq_left']
  constructor
  · rintro ⟨results, rest', hout, hresults, -, hcarries'⟩
    obtain rfl := forall₂_resultOf.mp hresults
    by_contra hlength
    -- With a result among them, the role is `user`, and the results can be told from the rest.
    obtain ⟨b, hb⟩ := List.exists_mem_of_length_pos (by omega :
      0 < (blocks.filter fun b ↦ b.type = "tool_result").length)
    obtain ⟨hb, htype⟩ := List.mem_filter.mp hb
    have hrole : m.role ≠ "tool" := by
      rcases h b hb with h' | ⟨h', -⟩ | ⟨-, hrole⟩
      · simp [h'] at htype
      · simp [h'] at htype
      · simp [hrole]
    have hfilter := congrArg (List.filter fun m ↦ decide (m.role = "tool")) hout
    rw [filter_role_append hrole (fun m hm ↦ (hcarries m hm).role_eq)
        (fun m hm ↦ List.mem_of_getLast? (Option.mem_toList.mp hm)),
      filter_role_append hrole (fun m hm ↦ (hcarries' m hm).role_eq) (fun m hm ↦ hm),
      toList_getLast?_eq_iff, toolResults, List.length_map] at hfilter
    exact hlength hfilter
  · intro hlength
    have hlast : (toolResults blocks).getLast?.toList = toolResults blocks :=
      toList_getLast?_eq_iff.mpr (by rwa [toolResults, List.length_map])
    exact ⟨toolResults blocks, rest, by rw [hlast], forall₂_resultOf.mpr rfl, hnone, hcarries⟩

/-- A tool result. -/
def WireContentBlock.result (id text : String) : WireContentBlock :=
  { zero with type := "tool_result", toolUseID := id, content := some (JsonValue.str text).written }

/-- A tool result, in JSON. -/
def resultJson (id text : String) : JsonValue :=
  .obj [("type", .str "tool_result"), ("tool_use_id", .str id), ("content", .str text)]

/-- The results of two tools that were called in parallel: the first is lost. -/
theorem first_result_lost :
    let vs := [resultJson "toolu_01" "Sunny, 18C", resultJson "toolu_02" "4"]
    let blocks : List WireContentBlock := [.result "toolu_01" "Sunny, 18C", .result "toolu_02" "4"]
    let out := [(WireContentBlock.result "toolu_02" "4").resultMessage]
    blocksOf (vs.map JsonValue.written) = some blocks ∧ Supported "user" blocks ∧
      decodeMessage ⟨"user", some (JsonValue.arr vs).written⟩ = .ok out ∧
      ¬ KeepsBlocks "user" blocks out := by
  refine ⟨rfl, ?_, rfl, ?_⟩
  · simp [Supported, WireContentBlock.result]
  · rintro ⟨results, rest, hout, hresults, -⟩
    have hlength := congrArg List.length hout
    rw [forall₂_resultOf.mp hresults] at hlength
    simp [toolResults, WireContentBlock.result] at hlength

/-- A text, and a call whose input is an object with nothing in it but a space. -/
theorem blocks_kept_iff_sample :
    let input : Written := .obj ['\x7b', ' ', '\x7d'] []
    let call : Written :=
      .obj ("\x7b\"type\":\"tool_use\",\"input\":\x7b \x7d\x7d".toList)
        [("type", (JsonValue.str "tool_use").written), ("input", input)]
    let wait := (JsonValue.obj [("type", .str "text"), ("text", .str "wait")]).written
    let text := ['['] ++ wait.text ++ [','] ++ call.text ++ [']']
    let blocks : List WireContentBlock :=
      [{ WireContentBlock.zero with type := "text", text := "wait" },
        { WireContentBlock.zero with type := "tool_use", input := some input }]
    ∃ out, decodeMessage ⟨"assistant", some (.arr text [wait, call])⟩ = .ok out ∧
      KeepsBlocks "assistant" blocks out := by
  intro input call wait text blocks
  let m : WireMessage := ⟨"assistant", some (.arr text [wait, call])⟩
  have hcontent : m.content = some (.arr text [wait, call]) := rfl
  have hblocks : blocksOf [wait, call] = some blocks := rfl
  have hsupported : Supported m.role blocks := by simp [Supported, m, blocks]
  exact (blocks_kept_iff hcontent hblocks hsupported).mpr (by decide)

/-- `decodeToolChoice`. -/
def decodeToolChoice {F : Type} (raw : JsonValue) : AnyValue F :=
  let names := ["type", "name"]
  let read : Reader (String × String) := record fun tc ms ↦ do
    let type ← field string tc.1 names "type" ms
    let name ← field string tc.2 names "name" ms
    return (type, name)
  match read ("", "") raw with
  | none => .nil
  | some (type, name) =>
    if type = "auto" then .str "auto"
    else if type = "any" then .str "required"
    else if type =
      "tool" then .map [("type", .str "function"), ("function", .map [("name", .str name)])]
    else if type = "none" then .str "none"
    else .nil

/-- The unified form of a tool. -/
def WireTool.tool (t : WireTool) : Tool := ⟨"function", t.name, t.description, t.inputSchema⟩

/-- The message for the top-level system text. -/
def systemMessage (text : String) : List Message :=
  if text = "" then [] else [⟨"system", .ofText text, "", [], ""⟩]

/-- The system text of a request, if it has one. -/
def systemText : Option Written → Except DecodeError String
  | none => .ok ""
  | some w => decodeSystem w

/-- What is made of a request that has been read. -/
def WireRequest.decode {F : Type} (wr : WireRequest F) :
    Except DecodeError (Adapter.UnifiedRequest F) := do
  let system ← systemText wr.system
  let messages ← wr.messages.mapM decodeMessage
  return {
    model := wr.model
    messages := systemMessage system ++ messages.flatten
    stream := wr.stream
    temperature := wr.temp
    maxTokens := if 0 < wr.maxTokens then some wr.maxTokens else none
    tools := wr.tools.map WireTool.tool
    toolChoice := match wr.toolChoice with
      | none => .nil
      | some v => decodeToolChoice v
    extra := [] }

/-- **`DecodeRequest`.** -/
def decodeRequest {F : Type} (fl : Float64 F) (body : Bytes) :
    Except DecodeError (Adapter.UnifiedRequest F) :=
  match (JsonValue.unmarshalWritten body).bind (WireRequest.read fl .zero) with
  | none => .error (.parse "request")
  | some wr => wr.decode

end Anthropic

end Voxeltoad
