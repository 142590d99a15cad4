import Voxeltoad.Adapter.Request
import Voxeltoad.Proxy.Dispatcher

/-!
# Requests to OpenAI upstreams

A request on its way from an OpenAI client to an OpenAI upstream: `DecodeRequest`, `Prepare` with
`normalize.Apply`, and `BuildRequest` of `internal/adapter/openai`.

What the upstream is to get is `OpenAI.expected`: what the client sent, with the upstream's name of
the model, the options of a stream, and a bound on the tokens where one is configured and the client
sent none.  What it does get agrees with that just if the request is one that `OpenAI.Kept`
describes (`openai_request_kept_iff`).
-/

set_option autoImplicit false

namespace Voxeltoad

open Assoc (values collect Keyed)
open Unmarshal

/-! ## Normalization -/

namespace Normalize

/-- `Target`. -/
structure Target where
  defaultMaxTokens : Int
  collapseSystem : Bool
  requireAlternation : Bool
  deriving DecidableEq, Repr

/-- `collapseSystem`: one system message in front, with the texts of all of them. -/
def collapseSystem (msgs : List Message) : List Message :=
  let systems := (msgs.filter fun m ↦ m.role = "system").map fun m ↦ m.content.text
  if systems = [] then msgs
  else ⟨"system", Content.ofText ("\n\n".intercalate systems), "", [], ""⟩ ::
    msgs.filter fun m ↦ m.role ≠ "system"

/-- One round of `mergeConsecutive`.  The answers of tools and the messages that call them are not
merged. -/
def mergeNext (out : List Message) (m : Message) : List Message :=
  match out.getLast? with
  | none => out ++ [m]
  | some last =>
    if last.role ≠ m.role ∨ m.role = "tool" ∨
        m.role = "assistant" ∧ (m.toolCalls ≠ [] ∨ last.toolCalls ≠ []) then out ++ [m]
    else out.dropLast ++
      [{ last with content := Content.ofText (last.content.text ++ "\n\n" ++ m.content.text) }]

def mergeConsecutive (msgs : List Message) : List Message := msgs.foldl mergeNext []

variable {F : Type}

/-- **`Apply`.** -/
def apply (req : Adapter.UnifiedRequest F) (t : Target) : Adapter.UnifiedRequest F :=
  let msgs := if t.collapseSystem then collapseSystem req.messages else req.messages
  { req with
    maxTokens := if req.maxTokens = none ∧ 0 < t.defaultMaxTokens then some t.defaultMaxTokens
      else req.maxTokens
    messages := if t.requireAlternation then mergeConsecutive msgs else msgs }

end Normalize

/-- **`Prepare`**, for the upstream of a model and the adapter of its endpoint. -/
def ModelUpstream.prepare {F : Type} (mu : ModelUpstream) (adapter : String)
    (req : Adapter.UnifiedRequest F) : Adapter.UnifiedRequest F :=
  let out := Normalize.apply req ⟨mu.defaultMaxTokens, adapter = "claude", adapter = "claude"⟩
  { out with model := mu.upstreamModel }

/-! ## Building a request -/

namespace OpenAI

/-- `wireRequest`. -/
structure WireRequest (F : Type) where
  model : String
  messages : List Message
  stream : Bool
  /-- `wireStreamOptions.IncludeUsage`. -/
  streamOptions : Option Bool
  temperature : Option F
  maxTokens : Option Int
  tools : List Tool
  toolChoice : AnyValue F

variable {F : Type} (fl : Float64 F)

def WireRequest.members (wr : WireRequest F) : List (String × JsonValue) :=
  [("model", .str wr.model), ("messages", .arr (wr.messages.map fun m ↦ .obj m.members))] ++
    unlessEmpty (!wr.stream) "stream" (.bool wr.stream) ++
    unlessEmpty wr.streamOptions.isNone "stream_options"
      (.obj [("include_usage", .bool (wr.streamOptions.getD false))]) ++
    unlessEmpty wr.temperature.isNone "temperature"
      ((wr.temperature.map fun x ↦ (fl.format x).json).getD .null) ++
    unlessEmpty wr.maxTokens.isNone "max_tokens" (.num (wr.maxTokens.getD 0)) ++
    unlessEmpty wr.tools.isEmpty "tools" (.arr (wr.tools.map fun t ↦ .obj t.members)) ++
    unlessEmpty wr.toolChoice.isNil "tool_choice" (wr.toolChoice.json fl)

/-- The members with those of `Extra`, which do not overwrite any. -/
def mergeExtra (extra ms : List (String × JsonValue)) : List (String × JsonValue) :=
  if extra.isEmpty then ms
  else sortMembers (ms ++ extra.filter fun m ↦ m.1 ∉ ms.map Prod.fst)

/-- The request that goes to an upstream. -/
structure UpstreamRequest where
  method : String
  url : String
  header : List (String × String)
  body : Bytes
  deriving DecidableEq, Repr

/-- `Adapter`, for OpenAI and what is compatible with it. -/
structure Adapter where
  baseURL : String
  apiKey : String
  deriving DecidableEq, Repr

/-- The part of a request that goes into a `wireRequest`. -/
def wireRequest (req : Adapter.UnifiedRequest F) : WireRequest F where
  model := req.model
  messages := req.messages
  stream := req.stream
  streamOptions := if req.stream then some true else none
  temperature := req.temperature
  maxTokens := req.maxTokens
  tools := req.tools
  toolChoice := req.toolChoice

/-- The members of the body that `BuildRequest` makes. -/
def requestMembers (req : Adapter.UnifiedRequest F) : List (String × JsonValue) :=
  mergeExtra req.extra ((wireRequest req).members fl)

/-- **`BuildRequest`.** -/
def Adapter.buildRequest (a : Adapter) (req : Adapter.UnifiedRequest F) : UpstreamRequest where
  method := "POST"
  url := a.baseURL ++ "/chat/completions"
  header := ("Content-Type", "application/json") ::
    if a.apiKey = "" then [] else [("Authorization", "Bearer " ++ a.apiKey)]
  body := (JsonValue.obj (requestMembers fl req)).marshal

/-! ## What the upstream is to get -/

/-- What the members of a request are read into. -/
def requestShape : Shape :=
  .record [("model", .text), ("messages", .list (shapeOf Message.slots)), ("stream", .flag),
    ("tools", .list (shapeOf Tool.slots))]

/-- Whether the client asks for a stream. -/
def streams (ms : List (String × JsonValue)) : Bool :=
  match (values "stream" ms).getLast? with
  | some (.bool b) => b
  | _ => false

/-- Whether the client says how many tokens it wants at most. -/
def bounded (ms : List (String × JsonValue)) : Bool :=
  match (values "max_tokens" ms).getLast? with
  | some v => !Shape.any.blank v
  | none => false

/-- The members that are replaced. -/
def replaced (ms : List (String × JsonValue)) (name : String) : Bool :=
  name = "model" || name = "stream_options" && streams ms

/-- **What the upstream is to get.** -/
def expected (mu : ModelUpstream) (ms : List (String × JsonValue)) : List (String × JsonValue) :=
  ms.filter (fun m ↦ !replaced ms m.1) ++ [("model", .str mu.upstreamModel)] ++
    unlessEmpty (!streams ms) "stream_options" (.obj [("include_usage", .bool true)]) ++
    unlessEmpty (bounded ms || mu.defaultMaxTokens ≤ 0) "max_tokens" (.num mu.defaultMaxTokens)

/-- The requests of which nothing is lost. -/
structure Kept (ms : List (String × JsonValue)) : Prop where
  messages : (Slot.list Message.slots).kept (values "messages" ms) = true
  tools : (Slot.list Tool.slots).kept (values "tools" ms) = true
  stream : Once .flag (values "stream" ms)
  temperature : Once .any (values "temperature" ms) ∧
    ∀ v ∈ (values "temperature" ms).getLast?, ∀ n ∈ v.number?, fl.Keeps n
  maxTokens : Once .any (values "max_tokens" ms)
  toolChoice : Once .any (values "tool_choice" ms) ∧
    ∀ v ∈ (values "tool_choice" ms).getLast?, AnyValue.kept fl v = true
  extra : ∀ m ∈ ms, m.1 ∉ Adapter.UnifiedRequest.names → replaced ms m.1 = false →
    Once .any (values m.1 ms)

/-! ## Decoding -/

variable {fl} {ms : List (String × JsonValue)} {req : Adapter.UnifiedRequest F} {mu : ModelUpstream}

/-- What is read of a request, field by field. -/
structure Decoded (fl : Float64 F) (ms : List (String × JsonValue))
    (req : Adapter.UnifiedRequest F) : Prop where
  messages :
    Adapter.known (slice (record Message.unmarshal) Message.zero) [] "messages" (collect ms) =
    some req.messages
  stream : Adapter.known bool false "stream" (collect ms) = some req.stream
  temperature :
    Adapter.known (Adapter.floatPointer fl) none "temperature" (collect ms) = some req.temperature
  maxTokens : Adapter.known (pointer int 0) none "max_tokens" (collect ms) = some req.maxTokens
  tools :
    Adapter.known (slice (record Tool.unmarshal) Tool.zero) [] "tools" (collect ms) = some req.tools
  toolChoice :
    Adapter.known (fun _ v ↦ AnyValue.read fl v) .nil "tool_choice" (collect ms) =
    some req.toolChoice
  extra : req.extra = (collect ms).filter fun m ↦ m.1 ∉ Adapter.UnifiedRequest.names

theorem decoded_of_unmarshalJSON
    (h : Adapter.UnifiedRequest.unmarshalJSON fl (.obj ms) = some req) : Decoded fl ms req := by
  simp only [Adapter.UnifiedRequest.unmarshalJSON, Option.bind_eq_bind, Option.bind_eq_some_iff,
    Option.pure_def, Option.some.injEq] at h
  obtain ⟨model, -, messages, hmessages, stream, hstream, temperature, htemperature,
    maxTokens, hmaxTokens, tools, htools, toolChoice, htoolChoice, rfl⟩ := h
  exact ⟨hmessages, hstream, htemperature, hmaxTokens, htools, htoolChoice, rfl⟩

/-- A field is read from the last member of its name. -/
theorem known_collect {α : Type} {r : Reader α} {zero a : α} {name : String}
    (h : Adapter.known r zero name (collect ms) = some a) :
    (values name ms).getLast? = none ∧ a = zero ∨
      ∃ v, (values name ms).getLast? = some v ∧ r zero v = some a := by
  rw [Adapter.known, Assoc.lookup_collect] at h
  cases hv : (values name ms).getLast? with
  | none =>
    rw [hv] at h
    exact .inl ⟨rfl, (Option.some.inj h).symm⟩
  | some v =>
    rw [hv] at h
    exact .inr ⟨v, rfl, h⟩

theorem Decoded.streams_eq (h : Decoded fl ms req) : streams ms = req.stream := by
  rw [streams]
  rcases known_collect h.stream with ⟨hv, ha⟩ | ⟨v, hv, hread⟩
  · rw [hv, ha]
  · rw [hv]
    cases v with
    | null | bool => exact Option.some.inj hread
    | _ => cases hread

/-! ## What the upstream gets -/

theorem sublist_unlessEmpty (empty : Bool) (name : String) (v : JsonValue) :
    ((unlessEmpty empty name v).map Prod.fst).Sublist [name] := by
  cases empty
  · exact List.Sublist.refl _
  · exact List.nil_sublist _

/-- The members of a body have different names. -/
theorem WireRequest.keyed (wr : WireRequest F) : Keyed (wr.members fl) := by
  have hsub : ((wr.members fl).map Prod.fst).Sublist
      (["model", "messages"] ++ ["stream"] ++ ["stream_options"] ++ ["temperature"] ++
        ["max_tokens"] ++ ["tools"] ++ ["tool_choice"]) := by
    simp only [WireRequest.members, List.map_append]
    repeat' apply List.Sublist.append
    all_goals first | exact sublist_unlessEmpty .. | exact List.Sublist.refl _
  exact hsub.nodup (by decide)

theorem WireRequest.values_members (wr : WireRequest F) (k : String) :
    values k (wr.members fl) =
      (if "model" = k then [.str wr.model] else []) ++
      (if "messages" = k then [.arr (wr.messages.map fun m ↦ .obj m.members)] else []) ++
      (if "stream" = k then if !wr.stream then [] else [.bool wr.stream] else []) ++
      (if "stream_options" = k then if wr.streamOptions.isNone then [] else
        [.obj [("include_usage", .bool (wr.streamOptions.getD false))]] else []) ++
      (if "temperature" = k then if wr.temperature.isNone then [] else
        [(wr.temperature.map fun x ↦ (fl.format x).json).getD .null] else []) ++
      (if "max_tokens" = k then if wr.maxTokens.isNone then []
        else [.num (wr.maxTokens.getD 0)] else []) ++
      (if "tools" = k then if wr.tools.isEmpty then []
        else [.arr (wr.tools.map fun t ↦ .obj t.members)] else []) ++
      (if "tool_choice" = k then if wr.toolChoice.isNil then [] else [wr.toolChoice.json fl]
        else []) := by
  simp only [WireRequest.members, Assoc.values_append, Assoc.values_cons, Assoc.values_nil,
    values_unlessEmpty, List.append_nil]

/-- What is not in the body comes from `Extra`. -/
theorem values_mergeExtra {extra wire : List (String × JsonValue)} (hwire : Keyed wire)
    (hextra : Keyed extra) (k : String) : values k (mergeExtra extra wire) =
      if (values k wire).isEmpty then values k extra else values k wire := by
  have hempty : (values k wire).isEmpty = true ↔ k ∉ wire.map Prod.fst :=
    List.isEmpty_iff.trans Assoc.values_eq_nil_iff
  rw [mergeExtra]
  split
  · rename_i hnone
    rw [List.isEmpty_iff.mp hnone]
    split <;> simp_all
  have hkeyed : Keyed (wire ++ extra.filter fun m ↦ m.1 ∉ wire.map Prod.fst) := by
    rw [Keyed, List.map_append, List.nodup_append]
    refine ⟨hwire, (List.filter_sublist.map _).nodup hextra, fun k hk k' hk' heq ↦ ?_⟩
    obtain ⟨m, hm, rfl⟩ := List.mem_map.mp hk'
    exact (of_decide_eq_true (List.mem_filter.mp hm).2) (heq ▸ hk)
  rw [sortMembers, hkeyed.values_perm (List.perm_insertionSort ..), Assoc.values_append,
    Assoc.values_filter (fun k ↦ decide (k ∉ wire.map Prod.fst))]
  by_cases hk : k ∈ wire.map Prod.fst
  · rw [if_neg (by simp [hk]), if_neg fun h ↦ hempty.mp h hk, List.append_nil]
  · rw [if_pos (decide_eq_true hk), if_pos (hempty.mpr hk), List.isEmpty_iff.mp (hempty.mpr hk),
      List.nil_append]

theorem Decoded.keyed_extra (h : Decoded fl ms req) : Keyed req.extra := by
  rw [h.extra]
  exact (List.filter_sublist.map _).nodup (Assoc.keyed_collect ms)

/-- The members without a field, the last one of each name. -/
theorem Decoded.values_extra (h : Decoded fl ms req) (k : String) :
    values k req.extra =
      if k ∈ Adapter.UnifiedRequest.names then [] else (values k ms).getLast?.toList := by
  rw [h.extra, Assoc.values_filter (fun k ↦ decide (k ∉ Adapter.UnifiedRequest.names)),
    (Assoc.keyed_collect ms).values_eq, Assoc.lookup_collect]
  by_cases hk : k ∈ Adapter.UnifiedRequest.names <;> simp [hk]

theorem prepare_openai (mu : ModelUpstream) (req : Adapter.UnifiedRequest F) :
    mu.prepare "openai" req =
      { req with
        model := mu.upstreamModel
        maxTokens := if req.maxTokens = none ∧ 0 < mu.defaultMaxTokens then some mu.defaultMaxTokens
          else req.maxTokens } := by
  simp [ModelUpstream.prepare, Normalize.apply]

/-- **What the upstream gets under a name**: the field of the request, or else what the client sent
last. -/
theorem values_requestMembers (h : Decoded fl ms req) (k : String) :
    values k (requestMembers fl (mu.prepare "openai" req)) =
      let wire := values k ((wireRequest (mu.prepare "openai" req)).members fl)
      if wire.isEmpty then
        if k ∈ Adapter.UnifiedRequest.names then [] else (values k ms).getLast?.toList
      else wire := by
  have hextra : (mu.prepare "openai" req).extra = req.extra := by rw [prepare_openai]
  rw [requestMembers, values_mergeExtra (WireRequest.keyed _) (hextra ▸ h.keyed_extra), hextra,
    h.values_extra]

/-! ## Field by field -/

/-- The two sides agree on a member. -/
def AgreeOn (fl : Float64 F) (mu : ModelUpstream) (ms : List (String × JsonValue))
    (req : Adapter.UnifiedRequest F) (k : String) : Prop :=
  AgreeAll (requestShape.member k) ((requestShape.member k).said (values k (expected mu ms)))
    ((requestShape.member k).said (values k (requestMembers fl (mu.prepare "openai" req))))

theorem values_expected (k : String) :
    values k (expected mu ms) =
      (if !replaced ms k then values k ms else []) ++
      (if "model" = k then [.str mu.upstreamModel] else []) ++
      (if "stream_options" = k then if !streams ms then []
        else [.obj [("include_usage", .bool true)]] else []) ++
      (if "max_tokens" = k then if bounded ms || mu.defaultMaxTokens ≤ 0 then []
        else [.num mu.defaultMaxTokens] else []) := by
  rw [expected, Assoc.values_append, Assoc.values_append, Assoc.values_append,
    Assoc.values_filter (fun k ↦ !replaced ms k), values_unlessEmpty, values_unlessEmpty,
    Assoc.values_cons, Assoc.values_nil, List.append_nil]

theorem agreeOn_model (h : Decoded fl ms req) : AgreeOn fl mu ms req "model" := by
  rw [AgreeOn, values_requestMembers h, values_expected, WireRequest.values_members]
  simp [replaced, prepare_openai, wireRequest, agreeAll_iff, List.forall₂_same, Agree.refl]

theorem agreeOn_messages (h : Decoded fl ms req) :
    AgreeOn fl mu ms req "messages" ↔
      (Slot.list Message.slots).kept (values "messages" ms) = true := by
  have hshape : requestShape.member "messages" = (Slot.list Message.slots).shape := rfl
  have hwritten : values "messages" (requestMembers fl (mu.prepare "openai" req)) =
      [.arr (req.messages.map fun m ↦ .obj m.members)] := by
    rw [values_requestMembers h, WireRequest.values_members]
    simp [prepare_openai, wireRequest]
  have hsent : values "messages" (expected mu ms) = values "messages" ms := by
    rw [values_expected]
    simp [replaced]
  rw [AgreeOn, hwritten, hsent, hshape]
  refine (Slot.list_holds_last Message.holdsItem (fun hblank ↦ ?_) fun v hv _ ↦ ?_).agree
  · rcases known_collect h.messages with ⟨-, ha⟩ | ⟨v, hv, hread⟩
    · exact ha
    · exact slice_blank (hblank v hv) hread
  · rcases known_collect h.messages with ⟨hnone, -⟩ | ⟨u, hu, hread⟩
    · rw [hnone] at hv
      cases hv
    · rwa [Option.some.inj (hv.symm.trans hu)]

theorem agreeOn_tools (h : Decoded fl ms req) :
    AgreeOn fl mu ms req "tools" ↔ (Slot.list Tool.slots).kept (values "tools" ms) = true := by
  have hshape : requestShape.member "tools" = (Slot.list Tool.slots).shape := rfl
  have hwritten : values "tools" (requestMembers fl (mu.prepare "openai" req)) =
      if req.tools.isEmpty = true then [] else [.arr (req.tools.map fun t ↦ .obj t.members)] := by
    rw [values_requestMembers h, WireRequest.values_members]
    cases htools : req.tools <;>
      simp [prepare_openai, wireRequest, htools, Adapter.UnifiedRequest.names]
  have hsent : values "tools" (expected mu ms) = values "tools" ms := by
    rw [values_expected]
    simp [replaced]
  rw [AgreeOn, hwritten, hsent, hshape]
  refine ((Slot.list_holds_last Tool.holdsItem (fun hblank ↦ ?_) fun v hv _ ↦ ?_).congr
    (said_unless_list _ _ _)).agree
  · rcases known_collect h.tools with ⟨-, ha⟩ | ⟨v, hv, hread⟩
    · exact ha
    · exact slice_blank (hblank v hv) hread
  · rcases known_collect h.tools with ⟨hnone, -⟩ | ⟨u, hu, hread⟩
    · rw [hnone] at hv
      cases hv
    · rwa [Option.some.inj (hv.symm.trans hu)]

theorem agreeOn_stream (h : Decoded fl ms req) :
    AgreeOn fl mu ms req "stream" ↔ Once .flag (values "stream" ms) := by
  have hshape : requestShape.member "stream" = .flag := rfl
  have hwritten : values "stream" (requestMembers fl (mu.prepare "openai" req)) =
      if req.stream = true then [.bool true] else [] := by
    rw [values_requestMembers h, WireRequest.values_members]
    cases hstream : req.stream <;>
      simp [prepare_openai, wireRequest, hstream, Adapter.UnifiedRequest.names]
  have hsent : values "stream" (expected mu ms) = values "stream" ms := by
    rw [values_expected]
    simp [replaced]
  have hout : Shape.flag.said (if req.stream = true then [.bool true] else []) =
      if req.stream = true then [.bool true] else [] := by
    cases req.stream <;> rfl
  rw [AgreeOn, hwritten, hsent, hshape, hout]
  refine (agreeAll_last (fun _ ↦ True) ?_ (fun hblank ↦ ?_) fun v hv hsay _ ↦ ?_).trans (by simp)
  · split <;> simp
  · rcases known_collect h.stream with ⟨-, ha⟩ | ⟨v, hv, hread⟩
    · simp [ha]
    · have hblank' := hblank v hv
      cases v with
      | null => simp [← Option.some.inj hread]
      | bool b =>
        rw [← Option.some.inj hread]
        simpa [Shape.blank] using hblank'
      | _ => cases hread
  · rcases known_collect h.stream with ⟨hnone, -⟩ | ⟨u, hu, hread⟩
    · rw [hnone] at hv
      cases hv
    obtain rfl : v = u := Option.some.inj (hv.symm.trans hu)
    cases v with
    | null => cases hsay
    | bool b =>
      obtain rfl : b = true := by simpa [Shape.blank] using hsay
      simp [← Option.some.inj hread, agreeAll_singleton, Agree.bool]
    | _ => cases hread

theorem floatPointer_eq_some {v : JsonValue} {t : Option F}
    (h : Adapter.floatPointer fl none v = some t) :
    v = .null ∧ t = none ∨ ∃ n x, v = n.json ∧ fl.parse n = some x ∧ t = some x := by
  cases v with
  | null => exact .inl ⟨rfl, (Option.some.inj h).symm⟩
  | num n =>
    obtain ⟨x, hx, rfl⟩ := Option.map_eq_some_iff.mp h
    exact .inr ⟨.int n, x, rfl, hx, rfl⟩
  | frac y =>
    obtain ⟨x, hx, rfl⟩ := Option.map_eq_some_iff.mp h
    exact .inr ⟨.frac y, x, rfl, hx, rfl⟩
  | _ => cases h

theorem number?_json (n : JsonNumber) : n.json.number? = some n := by
  cases n <;> rfl

theorem blank_number (n : JsonNumber) : Shape.any.blank n.json = false := by
  cases n <;> rfl

theorem agreeOn_temperature (h : Decoded fl ms req) :
    AgreeOn fl mu ms req "temperature" ↔ Once .any (values "temperature" ms) ∧
      ∀ v ∈ (values "temperature" ms).getLast?, ∀ n ∈ v.number?, fl.Keeps n := by
  have hshape : requestShape.member "temperature" = .any := rfl
  have hwritten : values "temperature" (requestMembers fl (mu.prepare "openai" req)) =
      (req.temperature.map fun x ↦ (fl.format x).json).toList := by
    rw [values_requestMembers h, WireRequest.values_members]
    cases htemperature : req.temperature <;>
      simp [prepare_openai, wireRequest, htemperature, Adapter.UnifiedRequest.names]
  have hsent : values "temperature" (expected mu ms) = values "temperature" ms := by
    rw [values_expected]
    simp [replaced]
  rw [AgreeOn, hwritten, hsent, hshape]
  refine (agreeAll_last (fun v ↦ ∀ n ∈ v.number?, fl.Keeps n) ?_
    (fun hblank ↦ ?_) fun v hv hsay _ ↦ ?_).trans
    (and_congr_right fun _ ↦ forall₂_congr fun v _ ↦ ⟨fun hgood ↦ ?_, fun hgood _ ↦ hgood⟩)
  · exact (List.length_filter_le ..).trans (by cases req.temperature <;> simp)
  · rcases known_collect h.temperature with ⟨-, ha⟩ | ⟨v, hv, hread⟩
    · rw [ha]
      rfl
    · rcases floatPointer_eq_some hread with ⟨-, ha⟩ | ⟨n, x, rfl, -, -⟩
      · rw [ha]
        rfl
      · exact absurd (hblank n.json hv) (by simp [blank_number])
  · rcases known_collect h.temperature with ⟨hnone, -⟩ | ⟨u, hu, hread⟩
    · rw [hnone] at hv
      cases hv
    obtain rfl : v = u := Option.some.inj (hv.symm.trans hu)
    rcases floatPointer_eq_some hread with ⟨rfl, -⟩ | ⟨n, x, rfl, hx, ha⟩
    · simp at hsay
    · have hsaid : Shape.any.said (Option.map (fun x ↦ (fl.format x).json) req.temperature).toList =
          [(fl.format x).json] := by
        simp [ha, Shape.said, blank_number]
      rw [hsaid, agreeAll_singleton, agree_number_iff]
      simp [number?_json, Float64.Keeps, hx, eq_comm]
  · cases hv : Shape.any.blank v with
    | true =>
      rw [blank_any_iff.mp hv]
      exact fun n hn ↦ by cases hn
    | false => exact hgood hv

theorem agreeOn_toolChoice (h : Decoded fl ms req) :
    AgreeOn fl mu ms req "tool_choice" ↔ Once .any (values "tool_choice" ms) ∧
      ∀ v ∈ (values "tool_choice" ms).getLast?, AnyValue.kept fl v = true := by
  have hshape : requestShape.member "tool_choice" = .any := rfl
  have hwritten :
      Shape.any.said (values "tool_choice" (requestMembers fl (mu.prepare "openai" req))) =
      Shape.any.said [req.toolChoice.json fl] := by
    rw [values_requestMembers h, WireRequest.values_members]
    cases htoolChoice : req.toolChoice <;>
      simp [prepare_openai, wireRequest, htoolChoice, Adapter.UnifiedRequest.names, AnyValue.isNil,
        AnyValue.json, Shape.said]
  have hsent : values "tool_choice" (expected mu ms) = values "tool_choice" ms := by
    rw [values_expected]
    simp [replaced]
  rw [AgreeOn, hsent, hshape, hwritten]
  refine (agreeAll_last (fun v ↦ AnyValue.kept fl v = true) ?_
    (fun hblank ↦ ?_) fun v hv hsay _ ↦ ?_).trans
    (and_congr_right fun _ ↦ forall₂_congr fun v _ ↦ ⟨fun hgood ↦ ?_, fun hgood _ ↦ hgood⟩)
  · exact List.length_filter_le ..
  · rcases known_collect h.toolChoice with ⟨-, ha⟩ | ⟨v, hv, hread⟩
    · rw [ha]
      rfl
    · simp [Shape.said, AnyValue.blank_read hread, hblank v hv]
  · rcases known_collect h.toolChoice with ⟨hnone, -⟩ | ⟨u, hu, hread⟩
    · rw [hnone] at hv
      cases hv
    obtain rfl : v = u := Option.some.inj (hv.symm.trans hu)
    have hsaid : Shape.any.said [req.toolChoice.json fl] = [req.toolChoice.json fl] := by
      simp [Shape.said, AnyValue.blank_read hread, hsay]
    rw [hsaid, agreeAll_singleton]
    exact AnyValue.agree_read v hread
  · cases hv : Shape.any.blank v with
    | true =>
      rw [blank_any_iff.mp hv]
      rfl
    | false => exact hgood hv

theorem pointer_int_eq_some {v : JsonValue} {t : Option Int} (h : pointer int 0 none v = some t) :
    v = .null ∧ t = none ∨ ∃ n, v = .num n ∧ t = some n := by
  cases v with
  | null => exact .inl ⟨rfl, (Option.some.inj h).symm⟩
  | num n =>
    obtain ⟨x, hx, rfl⟩ := Option.map_eq_some_iff.mp h
    simp only [int] at hx
    split at hx
    · exact .inr ⟨n, rfl, congrArg some (Option.some.inj hx).symm⟩
    · cases hx
  | _ => cases h

/-- The client sent no bound, or else the last one it sent is the one that was read. -/
theorem Decoded.bounded_cases (h : Decoded fl ms req) :
    bounded ms = false ∧ req.maxTokens = none ∧
    (∀ v ∈ (values "max_tokens" ms).getLast?, v = .null) ∨
      ∃ n, bounded ms = true ∧ req.maxTokens = some n ∧
      (values "max_tokens" ms).getLast? = some (.num n) := by
  rw [bounded]
  rcases known_collect h.maxTokens with ⟨hv, ha⟩ | ⟨v, hv, hread⟩
  · rw [hv, ha]
    exact .inl ⟨rfl, rfl, fun v hv ↦ by cases hv⟩
  · rw [hv]
    rcases pointer_int_eq_some hread with ⟨rfl, ha⟩ | ⟨n, rfl, ha⟩
    · exact .inl ⟨by simp, ha, fun v hv ↦ (Option.some.inj hv).symm⟩
    · exact .inr ⟨n, rfl, ha, rfl⟩

/-- Where nothing is said last, only the last may say something just if nothing is said at all. -/
theorem once_iff_of_last {s : Shape} {vs : List JsonValue}
    (h : ∀ v ∈ vs.getLast?, s.blank v = true) : Once s vs ↔ s.said vs = [] := by
  rcases List.eq_nil_or_concat vs with rfl | ⟨init, v, rfl⟩
  · simp [Once, Shape.said]
  rw [List.concat_eq_append] at h ⊢
  rw [Once, List.dropLast_concat, Shape.said_append, List.append_eq_nil_iff, Shape.said_eq_nil,
    Shape.said_eq_nil]
  exact (and_iff_left fun u hu ↦ List.mem_singleton.mp hu ▸ h v List.getLast?_concat).symm

theorem agreeOn_maxTokens (h : Decoded fl ms req) :
    AgreeOn fl mu ms req "max_tokens" ↔ Once .any (values "max_tokens" ms) := by
  have hshape : requestShape.member "max_tokens" = .any := rfl
  have hwritten : values "max_tokens" (requestMembers fl (mu.prepare "openai" req)) =
      ((if req.maxTokens = none ∧ 0 < mu.defaultMaxTokens then some mu.defaultMaxTokens
        else req.maxTokens).map JsonValue.num).toList := by
    rw [values_requestMembers h, WireRequest.values_members, prepare_openai]
    simp only [wireRequest]
    cases (if req.maxTokens = none ∧ 0 < mu.defaultMaxTokens then some mu.defaultMaxTokens
      else req.maxTokens) <;> simp [Adapter.UnifiedRequest.names]
  have hsent : values "max_tokens" (expected mu ms) = values "max_tokens" ms ++
      if (bounded ms || decide (mu.defaultMaxTokens ≤ 0)) = true then []
          else [.num mu.defaultMaxTokens] := by
    rw [values_expected]
    simp [replaced]
  rw [AgreeOn, hshape]
  rcases h.bounded_cases with ⟨hbounded, ha, hlast⟩ | ⟨n, hbounded, ha, hlast⟩
  · rw [once_iff_of_last fun v hv ↦ blank_any_iff.mpr (hlast v hv)]
    by_cases hdefault : 0 < mu.defaultMaxTokens
    · -- the default stands next to whatever the client wrote before its last `null`
      have hout :
          values "max_tokens" (requestMembers fl (mu.prepare "openai" req)) =
          [.num mu.defaultMaxTokens] := by
        rw [hwritten, if_pos ⟨ha, hdefault⟩]
        rfl
      rw [hout, hsent, if_neg (by simp [hbounded, hdefault]), Shape.said_append]
      refine ⟨fun hagree ↦ ?_, fun hnil ↦ ?_⟩
      · have hlength := hagree.length_eq
        rw [List.length_append] at hlength
        exact List.length_eq_zero_iff.mp (Nat.add_eq_right.mp hlength)
      · rw [hnil]
        exact agreeAll_singleton.mpr (Agree.refl _ _)
    · have hout : values "max_tokens" (requestMembers fl (mu.prepare "openai" req)) = [] := by
        rw [hwritten, if_neg fun hboth ↦ hdefault hboth.2, ha]
        rfl
      rw [hout, hsent, if_pos (by simp [not_lt.mp hdefault]), List.append_nil]
      exact agreeAll_nil
  · have hout : values "max_tokens" (requestMembers fl (mu.prepare "openai" req)) = [.num n] := by
      rw [hwritten, if_neg (by simp [ha]), ha]
      rfl
    rw [hout, hsent, if_pos (by simp [hbounded]), List.append_nil]
    exact Slot.agreeAll_getLast (by rw [hlast]; rfl)

theorem agreeOn_streamOptions (h : Decoded fl ms req) :
    AgreeOn fl mu ms req "stream_options" ↔
      (replaced ms "stream_options" = false → Once .any (values "stream_options" ms)) := by
  have hshape : requestShape.member "stream_options" = .any := rfl
  rw [AgreeOn, hshape, values_requestMembers h, WireRequest.values_members, values_expected]
  cases hstream : req.stream with
  | true =>
    simp [prepare_openai, wireRequest, hstream, replaced, h.streams_eq, agreeAll_iff,
      List.forall₂_same, Agree.refl]
  | false =>
    simp [prepare_openai, wireRequest, hstream, replaced, h.streams_eq,
      Adapter.UnifiedRequest.names]
    exact Slot.agreeAll_getLast rfl

theorem agreeOn_other (h : Decoded fl ms req) {k : String} (hk : k ∉ Adapter.UnifiedRequest.names)
    (hk' : k ≠ "stream_options") : AgreeOn fl mu ms req k ↔ Once .any (values k ms) := by
  simp only [Adapter.UnifiedRequest.names, List.mem_cons, List.not_mem_nil, or_false, not_or] at hk
  obtain ⟨hmodel, hmessages, hstream, htemperature, hmaxTokens, htools, htoolChoice⟩ := hk
  have hshape : requestShape.member k = .any := by
    simp [requestShape, Shape.member, List.lookup_cons, beq_false_of_ne hmodel,
      beq_false_of_ne hmessages, beq_false_of_ne hstream, beq_false_of_ne htools]
  rw [AgreeOn, hshape, values_requestMembers h, WireRequest.values_members, values_expected]
  simp [replaced, Adapter.UnifiedRequest.names, hk', hmodel, hmessages, hstream, htemperature,
    hmaxTokens, htools, htoolChoice, eq_comm]
  exact Slot.agreeAll_getLast rfl

/-- **What the upstream gets is what it is to get**, just if the request is one of which nothing is
lost. -/
theorem agree_iff_kept (h : Decoded fl ms req) :
    Agree requestShape (.obj (expected mu ms))
    (.obj (requestMembers fl (mu.prepare "openai" req))) ↔
      Kept fl ms := by
  rw [agree_obj_iff]
  constructor
  · intro hagree
    refine ⟨(agreeOn_messages h).mp (hagree _), (agreeOn_tools h).mp (hagree _),
      (agreeOn_stream h).mp (hagree _), (agreeOn_temperature h).mp (hagree _),
      (agreeOn_maxTokens h).mp (hagree _), (agreeOn_toolChoice h).mp (hagree _),
      fun m _ hm hkeep ↦ ?_⟩
    by_cases hoptions : m.1 = "stream_options"
    · rw [hoptions] at hkeep ⊢
      exact (agreeOn_streamOptions h).mp (hagree _) hkeep
    · exact (agreeOn_other h hm hoptions).mp (hagree _)
  · intro hkept k
    have hextra :
        k ∉ Adapter.UnifiedRequest.names → replaced ms k = false → Once .any (values k ms) :=
      fun hk hkeep v hv ↦
        hkept.extra (k, v) (Assoc.mem_values.mp (List.dropLast_subset _ hv)) hk hkeep v hv
    by_cases hk : k ∈ Adapter.UnifiedRequest.names
    · simp only [Adapter.UnifiedRequest.names, List.mem_cons, List.not_mem_nil, or_false] at hk
      rcases hk with rfl | rfl | rfl | rfl | rfl | rfl | rfl
      · exact agreeOn_model h
      · exact (agreeOn_messages h).mpr hkept.messages
      · exact (agreeOn_stream h).mpr hkept.stream
      · exact (agreeOn_temperature h).mpr hkept.temperature
      · exact (agreeOn_maxTokens h).mpr hkept.maxTokens
      · exact (agreeOn_tools h).mpr hkept.tools
      · exact (agreeOn_toolChoice h).mpr hkept.toolChoice
    by_cases hoptions : k = "stream_options"
    · subst hoptions
      exact (agreeOn_streamOptions h).mpr (hextra hk)
    · refine (agreeOn_other h hk hoptions).mpr (hextra hk ?_)
      have hmodel : k ≠ "model" := fun heq ↦ hk (heq ▸ List.mem_cons_self ..)
      simp [replaced, hmodel, hoptions]

instance (fl : Float64 F) (ms : List (String × JsonValue)) : Decidable (Kept fl ms) :=
  decidable_of_iff
    ((Slot.list Message.slots).kept (values "messages" ms) = true ∧
      (Slot.list Tool.slots).kept (values "tools" ms) = true ∧ Once .flag (values "stream" ms) ∧
      (Once .any (values "temperature" ms) ∧
        ∀ v ∈ (values "temperature" ms).getLast?, ∀ n ∈ v.number?, fl.Keeps n) ∧
      Once .any (values "max_tokens" ms) ∧
      (Once .any (values "tool_choice" ms) ∧
        ∀ v ∈ (values "tool_choice" ms).getLast?, AnyValue.kept fl v = true) ∧
      ∀ m ∈ ms, m.1 ∉ Adapter.UnifiedRequest.names → replaced ms m.1 = false →
      Once .any (values m.1 ms))
    ⟨fun ⟨h₁, h₂, h₃, h₄, h₅, h₆, h₇⟩ ↦ ⟨h₁, h₂, h₃, h₄, h₅, h₆, h₇⟩,
      fun ⟨h₁, h₂, h₃, h₄, h₅, h₆, h₇⟩ ↦ ⟨h₁, h₂, h₃, h₄, h₅, h₆, h₇⟩⟩

/-- The body that the upstream gets agrees with what it is to get. -/
def Arrives (fl : Float64 F) (a : Adapter) (mu : ModelUpstream) (ms : List (String × JsonValue))
    (req : Adapter.UnifiedRequest F) : Prop :=
  ∃ built, JsonValue.unmarshal (a.buildRequest fl (mu.prepare "openai" req)).body = some built ∧
    Agree requestShape (.obj (expected mu ms)) built

theorem arrives_iff_agree {a : Adapter} : Arrives fl a mu ms req ↔
    Agree requestShape (.obj (expected mu ms))
    (.obj (requestMembers fl (mu.prepare "openai" req))) := by
  rw [Arrives, Adapter.buildRequest, JsonValue.unmarshal_marshal]
  simp

theorem decoded_of_decodeRequest {body : Bytes} (hbody : JsonValue.unmarshal body = some (.obj ms))
    (hreq : decodeRequest fl body = some req) : Decoded fl ms req := by
  rw [decodeRequest, hbody] at hreq
  exact decoded_of_unmarshalJSON hreq

end OpenAI

/-! ## A conversation with a tool -/

/-- Numbers that are kept as they are written. -/
def Float64.sample : Float64 JsonNumber := ⟨some, id⟩

namespace OpenAI

/-- A tool, with or without `strict`. -/
def sampleTool (strict : Bool) : JsonValue :=
  .obj [("type", .str "function"),
    ("function",
      .obj ([("name", .str "weather"), ("parameters", .obj [("type", .str "object")])] ++
        unlessEmpty (!strict) "strict" (.bool true)))]

/-- A request with an image, a call of the tool and its answer. -/
def sampleMembers (strict : Bool) : List (String × JsonValue) :=
  [("model", .str "fast"),
    ("messages", .arr [
      .obj [("role", .str "user"), ("content", .arr [
        .obj [("type", .str "text"), ("text", .str "Where is this?")],
        .obj [("type", .str "image_url"), ("image_url", .obj [("url", .str "a.png")])]])],
      .obj [("role", .str "assistant"), ("content", .null), ("tool_calls", .arr [
        .obj [("id", .str "call-1"), ("type", .str "function"),
          ("function", .obj [("name", .str "weather"), ("arguments", .str "")])]])],
      .obj [("role", .str "tool"), ("tool_call_id", .str "call-1"), ("content", .str "rain")]]),
    ("stream", .bool true),
    ("temperature", .frac ⟨['0', '.', '7'], by decide⟩),
    ("tools", .arr [sampleTool strict]),
    ("tool_choice",
      .obj [("type", .str "function"), ("function", .obj [("name", .str "weather")])]),
    ("seed", .num 7)]

def sampleBody (strict : Bool) : Bytes := (JsonValue.obj (sampleMembers strict)).marshal

theorem decodeRequest_sample (strict : Bool) :
    ∃ req, decodeRequest .sample (sampleBody strict) = some req := by
  rw [← Option.isSome_iff_exists, decodeRequest, sampleBody, JsonValue.unmarshal_marshal,
    Option.bind_some]
  cases strict <;> decide

end OpenAI

open OpenAI in
/-- **No member of an OpenAI request is lost on its way to an OpenAI upstream**, just if every
member of its messages and tools has a field, and none is written over. -/
theorem openai_request_kept_iff {F : Type} (fl : Float64 F) (a : OpenAI.Adapter)
    (mu : ModelUpstream) (body : Bytes) (ms : List (String × JsonValue))
    (hbody : JsonValue.unmarshal body = some (.obj ms)) (req : Adapter.UnifiedRequest F)
    (hreq : decodeRequest fl body = some req) : Arrives fl a mu ms req ↔ Kept fl ms :=
  arrives_iff_agree.trans (agree_iff_kept (decoded_of_decodeRequest hbody hreq))

open OpenAI in
theorem openai_request_kept_iff_sample :
    ∃ req, decodeRequest .sample (sampleBody false) = some req ∧
      Arrives .sample ⟨"https://api", "key"⟩ (.sample "openai" 1) (sampleMembers false) req := by
  obtain ⟨req, hreq⟩ := decodeRequest_sample false
  exact ⟨req, hreq,
    (openai_request_kept_iff .sample _ _ _ _ (JsonValue.unmarshal_marshal _) req hreq).mpr
    (by decide +kernel)⟩

open OpenAI in
/-- The `strict` of a function is lost. -/
theorem openai_request_strict :
    ∃ req, decodeRequest .sample (sampleBody true) = some req ∧
      ¬ Arrives .sample ⟨"https://api", "key"⟩ (.sample "openai" 1) (sampleMembers true) req := by
  obtain ⟨req, hreq⟩ := decodeRequest_sample true
  refine ⟨req, hreq, fun harrives ↦ ?_⟩
  have hdecoded := decoded_of_decodeRequest (JsonValue.unmarshal_marshal _) hreq
  exact absurd ((agree_iff_kept hdecoded).mp (arrives_iff_agree.mp harrives)) (by decide)

end Voxeltoad
