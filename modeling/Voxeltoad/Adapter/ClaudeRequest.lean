import Voxeltoad.Adapter.Normalize

/-!
# Requests to Claude's endpoints

`BuildRequest` of `internal/adapter/claude`.  What Anthropic gets of a request is the text of it:
the system prompt, and for each message its role and its text.  The tools, the calls of tools, the
ids of the calls that are answered and the parts of a content that are no texts are left behind.

A request has been through `Apply` before, so that there is one system message at most; the loop of
`BuildRequest` would join several of them as `Apply` does, but for texts that are empty.
-/

set_option autoImplicit false

namespace Voxeltoad

open Normalize (systems others)

namespace Claude

/-- `wireMessage`. -/
structure WireMessage where
  role : String
  content : String
  deriving DecidableEq, Repr

/-- `wireRequest`. -/
structure WireRequest (F : Type) where
  model : String
  system : String
  messages : List WireMessage
  maxTokens : Int
  stream : Bool
  temp : Option F

/-- `Adapter`. -/
structure Adapter where
  baseURL : String
  apiKey : String
  deriving DecidableEq, Repr

/-- `anthropicVersion`. -/
def anthropicVersion : String := "2023-06-01"

def WireMessage.json (m : WireMessage) : JsonValue :=
  .obj [("role", .str m.role), ("content", .str m.content)]

variable {F : Type}

namespace WireRequest

/-- The body of the loop over the messages. -/
def add (wr : WireRequest F) (m : Message) : WireRequest F :=
  if m.role = "system" then
    { wr with
      system := if wr.system = "" then m.content.text else wr.system ++ ("\n\n" ++ m.content.text) }
  else { wr with messages := wr.messages ++ [⟨m.role, m.content.text⟩] }

/-- A slice to which nothing was appended is `null`. -/
def members (fl : Float64 F) (wr : WireRequest F) : List (String × JsonValue) :=
  [("model", .str wr.model)] ++
    unlessEmpty (wr.system = "") "system" (.str wr.system) ++
    [("messages", if wr.messages = [] then .null else .arr (wr.messages.map WireMessage.json)),
      ("max_tokens", .num wr.maxTokens)] ++
    unlessEmpty (!wr.stream) "stream" (.bool wr.stream) ++
    unlessEmpty wr.temp.isNone "temperature" ((wr.temp.map fun x ↦ (fl.format x).json).getD .null)

end WireRequest

/-- What is marshalled. -/
def wireRequest (req : Adapter.UnifiedRequest F) : WireRequest F :=
  let wr := req.messages.foldl WireRequest.add ⟨req.model, "", [], 0, req.stream, req.temperature⟩
  match req.maxTokens with
  | none => wr
  | some n => { wr with maxTokens := n }

/-- **`BuildRequest`.** -/
def Adapter.buildRequest (fl : Float64 F) (a : Adapter) (req : Adapter.UnifiedRequest F) :
    OpenAI.UpstreamRequest where
  method := "POST"
  url := a.baseURL ++ "/v1/messages"
  header := [("Content-Type", "application/json"), ("anthropic-version", anthropicVersion)] ++
    if a.apiKey = "" then [] else [("x-api-key", a.apiKey)]
  body := (JsonValue.obj ((wireRequest req).members fl)).marshal

/-! ## The loop -/

/-- The system prompt that the loop comes to. -/
def systemPrompt (msgs : List Message) : String :=
  (systems msgs).foldl (fun system m ↦ if system = "" then m.content.text
    else system ++ ("\n\n" ++ m.content.text)) ""

/-- What is left of a message. -/
def wireMessage (m : Message) : WireMessage := ⟨m.role, m.content.text⟩

/-- **The loop** takes the messages of the system to the prompt, and every other one to a
message. -/
theorem foldl_add (msgs : List Message) (wr : WireRequest F) :
    msgs.foldl WireRequest.add wr =
      { wr with
        system := (systems msgs).foldl
          (fun system m ↦ if system = "" then m.content.text
            else system ++ ("\n\n" ++ m.content.text)) wr.system
        messages := wr.messages ++ (others msgs).map wireMessage } := by
  induction msgs generalizing wr with
  | nil => simp [systems, others]
  | cons m msgs ih =>
    rw [List.foldl_cons, ih, WireRequest.add]
    by_cases hm : m.role = "system"
    · simp [hm, systems, others]
    · simp [hm, systems, others, wireMessage]

theorem wireRequest_eq (req : Adapter.UnifiedRequest F) :
    wireRequest req = ⟨req.model, systemPrompt req.messages, (others req.messages).map wireMessage,
      req.maxTokens.getD 0, req.stream, req.temperature⟩ := by
  rw [wireRequest, foldl_add]
  cases req.maxTokens <;> rfl

end Claude

end Voxeltoad
