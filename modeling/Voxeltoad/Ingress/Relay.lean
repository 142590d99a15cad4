import Voxeltoad.Adapter.ClaudeRequest
import Voxeltoad.Ingress.Decode

/-!
# What Claude is asked

A request that goes to a Claude endpoint is prepared (`Prepare`), and written as a request of the
Messages API (`BuildRequest`).  What it says is what this program itself reads of such a request,
`DecodeRequest` of the Anthropic codec: `Claude.relayed`.

`claude_request` compares that with the request as it came, from whatever client.  The texts are all
there, in order and each with its role (`Claude.Asked`), the bounds and options are, and nothing
else is: no tools, and none of their calls.  Where there were none of them, what was written says
all there is to say: read, prepared and written once more, it is the same.
-/

set_option autoImplicit false

namespace Voxeltoad

open Normalize (systems others joined Apart collapsed mergeConsecutive)
open Unmarshal

namespace Claude

/-! ## What is to be read -/

/-- The text of a message, under its role. -/
def told (m : Message) : Message := ⟨m.role, .ofText m.content.text, "", [], ""⟩

/-- A run of messages that Claude gets as one. -/
structure Turn (run : List Message) (m : Message) : Prop where
  nonempty : run ≠ []
  role_eq : ∀ x ∈ run, x.role = m.role
  told_eq : m = ⟨m.role, .ofText (joined run), "", [], ""⟩

/-- **What Claude is asked**, of the messages of a request. -/
structure Asked (msgs got : List Message) : Prop where
  /-- The texts of the system are in front, and there is a system message only if they say
  anything. -/
  system : got = Anthropic.systemMessage (joined (systems msgs)) ++ others got
  /-- The other messages are cut into runs, in order. -/
  turns : ∃ runs, runs.flatten = others msgs ∧ List.Forall₂ Turn runs (others got)
  /-- The roles alternate, but for what has to do with tools. -/
  alternate : got.IsChain fun m m' ↦ m.role = m'.role → m.role = "tool" ∨
    m.role = "assistant" ∧ ∃ x ∈ msgs, x.role = "assistant" ∧ x.toolCalls ≠ []

variable {F : Type}

/-- What is read of the request that is built of `req`. -/
def relayed (req : Adapter.UnifiedRequest F) : Adapter.UnifiedRequest F where
  model := req.model
  messages := Anthropic.systemMessage (systemPrompt req.messages) ++ (others req.messages).map told
  stream := req.stream
  temperature := req.temperature
  maxTokens := if 0 < req.maxTokens.getD 0 then some (req.maxTokens.getD 0) else none
  tools := []
  toolChoice := .nil
  extra := []

/-! ## Reading what was written -/

section Reading

variable (fl : Float64 F) (wr : WireRequest F)

theorem sublist_members :
    ((wr.members fl).map Prod.fst).Sublist (Anthropic.WireRequest.names) := by
  have hsub : ((wr.members fl).map Prod.fst).Sublist
      (["model"] ++ ["system"] ++ ["messages", "max_tokens"] ++ ["stream"] ++ ["temperature"]) := by
    simp only [WireRequest.members, List.map_append]
    repeat' apply List.Sublist.append
    all_goals first | exact OpenAI.sublist_unlessEmpty .. | exact List.Sublist.refl _
  exact hsub.trans (List.sublist_append_left _ ["tools", "tool_choice"])

theorem exact_members : Exact Anthropic.WireRequest.names (wr.members fl) :=
  .of_sublist (by decide) (sublist_members fl wr)

theorem lookup_cons (k name : String) (v : JsonValue) (ms : List (String × JsonValue)) :
    ((name, v) :: ms).lookup k = if k = name then some v else ms.lookup k := by
  by_cases h : k = name
  · simp [h]
  · simp [List.lookup_cons, beq_false_of_ne h, h]

/-- A member with `omitempty`, looked up. -/
theorem lookup_unlessEmpty (k : String) (empty : Bool) (name : String) (v : JsonValue) :
    (unlessEmpty empty name v).lookup k = if k = name ∧ empty = false then some v else none := by
  cases empty <;> simp [unlessEmpty, lookup_cons]

theorem lookup_members (k : String) :
    (wr.members fl).lookup k =
      ((((if k = "model" then some (.str wr.model) else none).or
        (if k = "system" ∧ decide (wr.system = "") = false then some (.str wr.system) else none)).or
        (if k = "messages" then some (if wr.messages = [] then .null
          else .arr (wr.messages.map WireMessage.json))
          else if k = "max_tokens" then some (.num wr.maxTokens) else none)).or
        (if k = "stream" ∧ (!wr.stream) = false then some (.bool wr.stream) else none)).or
        (if k = "temperature" ∧ wr.temp.isNone = false
          then some ((wr.temp.map fun x ↦ (fl.format x).json).getD .null) else none) := by
  simp only [WireRequest.members, List.lookup_append, lookup_unlessEmpty, lookup_cons,
    List.lookup_nil]

/-- A field is read from what was written under its name. -/
theorem field_members {α : Type} (r : Reader α) (a : α) {name : String}
    (h : name ∈ Anthropic.WireRequest.names) :
    field (ofValue r) a Anthropic.WireRequest.names name (JsonValue.writtenFields (wr.members fl)) =
      match (wr.members fl).lookup name with
      | none => some a
      | some v => r a v := by
  rw [field_ofValue]
  exact field_of_exact r a (exact_members fl wr) h

/-- A field that keeps its text has the text that was written. -/
theorem field_asWritten {name : String} (h : name ∈ Anthropic.WireRequest.names) :
    field asWritten none Anthropic.WireRequest.names name
    (JsonValue.writtenFields (wr.members fl)) =
      some (((wr.members fl).lookup name).map JsonValue.written) := by
  rw [field, members_written, members_of_exact (exact_members fl wr) h]
  cases (wr.members fl).lookup name <;> rfl

theorem floatPointer_json (n : JsonNumber) (a : Option F) :
    Adapter.floatPointer fl a n.json = (fl.parse n).map some := by
  cases n <;> rfl

/-- The messages are read from what was written of them. -/
theorem field_messages :
    field (sliceWritten Anthropic.WireMessage.read .zero) [] Anthropic.WireRequest.names "messages"
        (JsonValue.writtenFields (wr.members fl)) =
      some (wr.messages.map fun m ↦ ⟨m.role, some (JsonValue.str m.content).written⟩) := by
  have hlookup : (wr.members fl).lookup "messages" =
      some (if wr.messages = [] then .null else .arr (wr.messages.map WireMessage.json)) := by
    rw [lookup_members]
    simp
  rw [field, members_written, members_of_exact (exact_members fl wr) (by decide), hlookup]
  by_cases h : wr.messages = []
  · rw [if_pos h, h]
    rfl
  · rw [if_neg h]
    have hitems : items Anthropic.WireMessage.read .zero []
        (JsonValue.writtenItems (wr.messages.map WireMessage.json)) =
        some (wr.messages.map fun m ↦ ⟨m.role, some (JsonValue.str m.content).written⟩) := by
      rw [JsonValue.writtenItems_eq, List.map_map]
      exact items_map (fun m ↦ rfl) wr.messages
    simpa [sliceWritten, JsonValue.written] using hitems

/-- **What is read of a request that was written.** -/
theorem read_members (htemp : ∀ x ∈ wr.temp, fl.parse (fl.format x) = some x)
    (hmax : -2 ^ 63 ≤ wr.maxTokens ∧ wr.maxTokens < 2 ^ 63) :
    Anthropic.WireRequest.read fl .zero (JsonValue.obj (wr.members fl)).written = some {
      model := wr.model
      system := if wr.system = "" then none else some (JsonValue.str wr.system).written
      messages := wr.messages.map fun m ↦ ⟨m.role, some (JsonValue.str m.content).written⟩
      maxTokens := wr.maxTokens
      stream := wr.stream
      temp := wr.temp
      tools := []
      toolChoice := none } := by
  have hmodel : field (ofValue string) "" Anthropic.WireRequest.names "model"
      (JsonValue.writtenFields (wr.members fl)) = some wr.model := by
    rw [field_members _ _ _ _ (by decide), lookup_members]
    rfl
  have hsystem : field asWritten none Anthropic.WireRequest.names "system"
      (JsonValue.writtenFields (wr.members fl)) =
      some (if wr.system = "" then none else some (JsonValue.str wr.system).written) := by
    rw [field_asWritten _ _ (by decide), lookup_members]
    by_cases h : wr.system = "" <;> simp [h]
  have hmaxTokens : field (ofValue int) 0 Anthropic.WireRequest.names "max_tokens"
      (JsonValue.writtenFields (wr.members fl)) = some wr.maxTokens := by
    rw [field_members _ _ _ _ (by decide), lookup_members]
    exact if_pos hmax
  have hstream : field (ofValue bool) false Anthropic.WireRequest.names "stream"
      (JsonValue.writtenFields (wr.members fl)) = some wr.stream := by
    rw [field_members _ _ _ _ (by decide), lookup_members]
    cases wr.stream <;> rfl
  have htemperature : field (ofValue (Adapter.floatPointer fl)) none Anthropic.WireRequest.names
      "temperature" (JsonValue.writtenFields (wr.members fl)) = some wr.temp := by
    rw [field_members _ _ _ _ (by decide), lookup_members]
    cases hx : wr.temp with
    | none => rfl
    | some x => simp [floatPointer_json, htemp x hx]
  have hlookup : ∀ name ∈ ["tools", "tool_choice"], (wr.members fl).lookup name = none := by
    intro name hname
    rw [lookup_members]
    simp only [List.mem_cons, List.not_mem_nil, or_false] at hname
    rcases hname with rfl | rfl <;> rfl
  have htools :
      field (sliceWritten Anthropic.WireTool.read .zero) [] Anthropic.WireRequest.names "tools"
      (JsonValue.writtenFields (wr.members fl)) = some [] := by
    rw [field, members_written, members_of_exact (exact_members fl wr) (by decide),
      hlookup _ (by decide)]
    rfl
  have htoolChoice : field (ofValue rawMessage) none Anthropic.WireRequest.names "tool_choice"
      (JsonValue.writtenFields (wr.members fl)) = some none := by
    rw [field_members _ _ _ _ (by decide), hlookup _ (by decide)]
  simp only [Anthropic.WireRequest.read, recordWritten, JsonValue.written,
    Anthropic.WireRequest.zero, hmodel, hsystem, field_messages, hmaxTokens, hstream, htemperature,
    htools, htoolChoice, Option.bind_eq_bind, Option.bind_some, Option.pure_def]

end Reading

/-- `decodeSystem` reads the prompt that was written. -/
theorem systemText_prompt (system : String) :
    Anthropic.systemText (if system = "" then none else some (JsonValue.str system).written) =
      .ok system := by
  split
  · rename_i h
    rw [h]
    rfl
  · rfl

/-- `decodeMessage` reads the messages that were written. -/
theorem mapM_decodeMessage (msgs : List WireMessage) :
    (msgs.map fun m ↦ (⟨m.role, some (JsonValue.str m.content).written⟩ :
        Anthropic.WireMessage)).mapM Anthropic.decodeMessage =
      .ok (msgs.map fun m ↦ [⟨m.role, .ofText m.content, "", [], ""⟩]) := by
  induction msgs with
  | nil => rfl
  | cons m msgs ih =>
    have hm : Anthropic.decodeMessage ⟨m.role, some (JsonValue.str m.content).written⟩ =
        .ok [⟨m.role, .ofText m.content, "", [], ""⟩] := by
      simp only [Anthropic.decodeMessage, Anthropic.mapRole_eq, JsonValue.written]
    rw [List.map_cons, List.mapM_cons]
    refine Loop.bind_eq_ok.mpr ⟨_, hm, Loop.bind_eq_ok.mpr ⟨_, ih, rfl⟩⟩

/-- **What is read of the request that was built.** -/
theorem decode_buildRequest (fl : Float64 F) (a : Adapter) (req : Adapter.UnifiedRequest F)
    (htemp : ∀ x ∈ req.temperature, fl.parse (fl.format x) = some x)
    (hmax : ∀ n ∈ req.maxTokens, -2 ^ 63 ≤ n ∧ n < 2 ^ 63) :
    Anthropic.decodeRequest fl (a.buildRequest fl req).body = .ok (relayed req) := by
  have hrange : -2 ^ 63 ≤ req.maxTokens.getD 0 ∧ req.maxTokens.getD 0 < 2 ^ 63 := by
    cases h : req.maxTokens with
    | none => simp
    | some n => exact hmax n h
  have hread :=
    read_members fl (wireRequest req) (by rwa [wireRequest_eq]) (by rwa [wireRequest_eq])
  rw [Anthropic.decodeRequest, Adapter.buildRequest, JsonValue.unmarshalWritten_marshal,
    Option.bind_some, hread]
  simp only [wireRequest_eq]
  rw [Anthropic.WireRequest.decode]
  refine Loop.bind_eq_ok.mpr
    ⟨_, systemText_prompt _, Loop.bind_eq_ok.mpr ⟨_, mapM_decodeMessage _, ?_⟩⟩
  have hmessages : (((others req.messages).map wireMessage).map fun m ↦
      [(⟨m.role, .ofText m.content, "", [], ""⟩ : Message)]).flatten =
        (others req.messages).map told := by
    rw [List.map_map]
    exact (List.map_eq_flatMap (f := told)).symm
  rw [hmessages]
  rfl

/-! ## What was prepared -/

/-- Of one system message, the prompt is its text. -/
theorem systemPrompt_of_collapsed {msgs out : List Message} (h : systems out = collapsed msgs) :
    systemPrompt out = joined (systems msgs) := by
  rw [systemPrompt, h, collapsed]
  split
  · rename_i hnil
    rw [hnil]
    rfl
  · rfl

section Messages

variable (text : String) {msgs : List Message} (h : ∀ m ∈ msgs, m.role ≠ "system")
include h

theorem systems_read :
    systems (Anthropic.systemMessage text ++ msgs.map told) = Anthropic.systemMessage text := by
  have hlead : systems (Anthropic.systemMessage text) = Anthropic.systemMessage text := by
    rw [Anthropic.systemMessage]
    split <;> rfl
  have htold : systems (msgs.map told) = [] := Normalize.systems_eq_nil <| by
    simpa [told] using h
  rw [systems, List.filter_append]
  exact (congrArg₂ (· ++ ·) hlead htold).trans (List.append_nil _)

theorem others_read : others (Anthropic.systemMessage text ++ msgs.map told) = msgs.map told := by
  have hlead : others (Anthropic.systemMessage text) = [] := by
    rw [Anthropic.systemMessage]
    split <;> rfl
  have htold : others (msgs.map told) = msgs.map told := Normalize.others_eq_self <| by
    simpa [told] using h
  rw [others, List.filter_append]
  exact congrArg₂ (· ++ ·) hlead htold

end Messages

theorem joined_systemMessage (text : String) : joined (Anthropic.systemMessage text) = text := by
  rw [Anthropic.systemMessage]
  split
  · rename_i hempty
    rw [hempty]
    rfl
  · exact String.intercalate_singleton

section Prepared

variable (mu : ModelUpstream) (req : Adapter.UnifiedRequest F)

theorem systemPrompt_prepare : systemPrompt (mu.prepare "claude" req).messages = joined
    (systems req.messages) :=
  systemPrompt_of_collapsed Normalize.systems_messages

theorem others_prepare : others (mu.prepare "claude" req).messages = mergeConsecutive
    (others req.messages) :=
  Normalize.others_messages

theorem merged_role : ∀ m ∈ mergeConsecutive (others req.messages), m.role ≠ "system" :=
  fun _ hm ↦ Normalize.merged_role hm

/-- The messages that are read of what a Claude endpoint gets. -/
theorem messages_relayed : (relayed (mu.prepare "claude" req)).messages =
    Anthropic.systemMessage (joined (systems req.messages)) ++
    (mergeConsecutive (others req.messages)).map told := by
  rw [relayed, systemPrompt_prepare, others_prepare]

/-- The messages of the assistant that call tools. -/
def CallsTools (msgs : List Message) : Prop := ∃ x ∈ msgs, x.role = "assistant" ∧ x.toolCalls ≠ []

/-- No calls are made up. -/
theorem calls_of_merged {m : Message} (hm : m ∈ mergeConsecutive (others req.messages))
    (hrole : m.role = "assistant") (hcalls : m.toolCalls ≠ []) : CallsTools req.messages := by
  by_contra hnone
  have hmerged := (Normalize.merging_mergeConsecutive (others req.messages)).toolCalls
  have hnil :
      ((others req.messages).filter fun m ↦ m.role = "assistant").flatMap Message.toolCalls =
      [] := by
    rw [List.flatMap_eq_nil_iff]
    intro x hx
    obtain ⟨hx, hassistant⟩ := List.mem_filter.mp hx
    by_contra hne
    exact hnone ⟨x, (List.mem_filter.mp hx).1, of_decide_eq_true hassistant, hne⟩
  rw [hnil, List.flatMap_eq_nil_iff] at hmerged
  exact hcalls (hmerged m (List.mem_filter.mpr ⟨hm, decide_eq_true hrole⟩))

/-- **What is asked**, of the request as it came. -/
theorem asked_relayed : Asked req.messages (relayed (mu.prepare "claude" req)).messages := by
  have hmerging := Normalize.merging_mergeConsecutive (others req.messages)
  have hothers : others (relayed (mu.prepare "claude" req)).messages =
      (mergeConsecutive (others req.messages)).map told := by
    rw [messages_relayed, others_read _ (merged_role req)]
  constructor
  case system =>
    rw [hothers, messages_relayed]
  case turns =>
    obtain ⟨runs, hflatten, hruns⟩ := hmerging.runs
    refine ⟨runs, hflatten, ?_⟩
    rw [hothers, List.forall₂_map_right_iff]
    refine hruns.imp fun run m hm ↦ ⟨hm.nonempty, hm.role_eq, ?_⟩
    rw [told, hm.text_eq]
  case alternate =>
    rw [messages_relayed, List.isChain_append]
    refine ⟨?_, ?_, fun last hlast m hm heq ↦ ?_⟩
    · rw [Anthropic.systemMessage]
      split
      · exact .nil
      · exact .singleton _
    · rw [List.isChain_map]
      refine hmerging.apart.imp_of_mem_imp fun m m' hm hm' hapart heq ↦ ?_
      rcases hapart heq with ⟨htool, -⟩ | ⟨hassistant, hassistant', hcalls⟩
      · exact .inl htool
      · refine .inr ⟨hassistant, ?_⟩
        rcases hcalls with hcalls | hcalls
        · exact calls_of_merged req hm hassistant hcalls
        · exact calls_of_merged req hm' hassistant' hcalls
    · -- The system message is followed by others.
      have hsystem : last.role = "system" := by
        have hmem := List.mem_of_mem_getLast? hlast
        rw [Anthropic.systemMessage] at hmem
        split at hmem
        · exact absurd hmem List.not_mem_nil
        · rw [List.mem_singleton.mp hmem]
      obtain ⟨x, hx, rfl⟩ := List.mem_map.mp (List.mem_of_mem_head? hm)
      exact absurd (heq.symm.trans hsystem) (merged_role req x hx)

/-- Where no tools are called, nothing is left to merge. -/
theorem apart_told (h : ¬ CallsTools req.messages) :
    ((mergeConsecutive (others req.messages)).map told).IsChain Apart := by
  rw [List.isChain_map]
  refine (Normalize.merging_mergeConsecutive (others req.messages)).apart.imp_of_mem_imp fun m m' hm
    hm' hapart heq ↦ ?_
  rcases hapart heq with htool | ⟨hassistant, hassistant', hcalls⟩
  · exact .inl htool
  · rcases hcalls with hcalls | hcalls
    · exact absurd (calls_of_merged req hm hassistant hcalls) h
    · exact absurd (calls_of_merged req hm' hassistant' hcalls) h

/-- The bound on the tokens stays as it is. -/
theorem maxTokens_prepare : (mu.prepare "claude" req).maxTokens =
    if req.maxTokens = none ∧ 0 < mu.defaultMaxTokens then some mu.defaultMaxTokens
      else req.maxTokens := rfl

/-- **Read, prepared and written once more**, a request stays as it was. -/
theorem wireRequest_again (hcalls : ¬ CallsTools req.messages) (hmax : ∀ n ∈ req.maxTokens, 0 < n) :
    wireRequest (mu.prepare "claude" (relayed (mu.prepare "claude" req))) =
      wireRequest (mu.prepare "claude" req) := by
  have hrole := merged_role req
  have hprompt :
      joined (systems (relayed (mu.prepare "claude" req)).messages) =
      joined (systems req.messages) := by
    rw [messages_relayed, systems_read _ hrole, joined_systemMessage]
  have hmessages :
      (mergeConsecutive (others (relayed (mu.prepare "claude" req)).messages)).map wireMessage =
      (mergeConsecutive (others req.messages)).map wireMessage := by
    rw [messages_relayed, others_read _ hrole, Normalize.mergeConsecutive_of_apart
      (apart_told req hcalls), List.map_map]
    rfl
  have htokens : (mu.prepare "claude" (relayed (mu.prepare "claude" req))).maxTokens.getD 0 =
      (mu.prepare "claude" req).maxTokens.getD 0 := by
    rw [maxTokens_prepare, relayed, maxTokens_prepare]
    rcases h : req.maxTokens with _ | n
    · by_cases hdefault : 0 < mu.defaultMaxTokens <;> simp [hdefault]
    · simp [hmax n h]
  rw [wireRequest_eq, wireRequest_eq, systemPrompt_prepare, systemPrompt_prepare, others_prepare,
    others_prepare, hprompt, hmessages, htokens]
  rfl

end Prepared

end Claude

open Claude in
/-- **What a Claude endpoint is asked.**  The body of its request can be read, by this program's own
codec: it has the upstream's name of the model, the options, the bound on the tokens and the texts
of the request, and nothing else.  If no tools were called, it comes to the same body again. -/
theorem claude_request {F : Type} (fl : Float64 F) (mu : ModelUpstream) (a : Claude.Adapter)
    (req : Adapter.UnifiedRequest F)
    (htemp : ∀ x ∈ req.temperature, fl.parse (fl.format x) = some x)
    (hmax : ∀ n ∈ (mu.prepare "claude" req).maxTokens, -2 ^ 63 ≤ n ∧ n < 2 ^ 63) :
    let body := (a.buildRequest fl (mu.prepare "claude" req)).body
    ∃ got, Anthropic.decodeRequest fl body = .ok got ∧
      (got.model = mu.upstreamModel ∧ got.stream = req.stream ∧ got.temperature = req.temperature ∧
        (∀ n, got.maxTokens = some n ↔ (mu.prepare "claude" req).maxTokens = some n ∧ 0 < n)) ∧
      Asked req.messages got.messages ∧
      (got.tools = [] ∧ got.toolChoice = .nil ∧ got.extra = []) ∧
      (¬ CallsTools req.messages → (∀ n ∈ req.maxTokens, 0 < n) →
        (a.buildRequest fl (mu.prepare "claude" got)).body = body) := by
  intro body
  refine ⟨relayed (mu.prepare "claude" req), decode_buildRequest fl a _ htemp hmax,
    ⟨rfl, rfl, rfl, fun n ↦ ?_⟩, asked_relayed mu req, ⟨rfl, rfl, rfl⟩, fun hcalls hpos ↦ ?_⟩
  · rw [relayed]
    rcases (mu.prepare "claude" req).maxTokens with _ | m
    · simp
    · by_cases hm : 0 < m
      · simp only [Option.getD_some, hm, if_true, Option.some.injEq]
        exact ⟨fun h ↦ ⟨h, h ▸ hm⟩, And.left⟩
      · simp only [Option.getD_some, hm, if_false, reduceCtorEq, Option.some.injEq,
          false_iff, not_and]
        exact fun h ↦ h ▸ hm
  · have hsame := wireRequest_again mu req hcalls hpos
    simp only [body, Claude.Adapter.buildRequest, hsame]

open Claude in
/-- Two system messages, a user's content of two parts, and no bound on the tokens. -/
theorem claude_request_sample :
    let parts : List JsonValue := [.obj [("type", .str "text"), ("text", .str "b")],
      .obj [("type", .str "image_url")], .obj [("type", .str "text"), ("text", .str "c")]]
    let msgs : List Message :=
      [⟨"system", .ofText "a", "", [], ""⟩, ⟨"user", ⟨some (.arr parts)⟩, "", [], ""⟩,
      ⟨"system", .ofText "d", "", [], ""⟩, ⟨"user", .ofText "e", "", [], ""⟩]
    let req : Adapter.UnifiedRequest Unit := ⟨"m", msgs, true, none, none, [], .nil, []⟩
    let mu : ModelUpstream := ⟨"claude", "claude-sonnet", 1024, ⟨0, 0, "usd", 0⟩⟩
    let fl : Float64 Unit := ⟨fun _ ↦ none, fun _ ↦ .int 0⟩
    ∃ got, Anthropic.decodeRequest fl
        ((⟨"https://api.anthropic.com", "k"⟩ : Claude.Adapter).buildRequest fl
          (mu.prepare "claude" req)).body =
        .ok got ∧ got.maxTokens = some 1024 ∧ Asked msgs got.messages := by
  intro parts msgs req mu fl
  have htokens : (mu.prepare "claude" req).maxTokens = some 1024 := by
    rw [maxTokens_prepare]
    exact if_pos ⟨rfl, by decide⟩
  obtain ⟨got, hgot, ⟨-, -, -, hmax⟩, hasked, -⟩ :=
    claude_request fl mu ⟨"https://api.anthropic.com", "k"⟩ req
    (fun _ h ↦ absurd h (Option.not_mem_none _)) fun n hn ↦ by
      rw [Option.mem_some_iff.mp (htokens ▸ hn : n ∈ some 1024).symm]
      decide
  exact ⟨got, hgot, (hmax 1024).mpr ⟨htokens, by decide⟩, hasked⟩

end Voxeltoad
