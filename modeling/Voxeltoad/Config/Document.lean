import Voxeltoad.Adapter.Request
import Voxeltoad.Config.Schema
import Voxeltoad.Desktop.File
import Voxeltoad.Lib.Jsonb

/-!
# Configuration documents

The types of `internal/config/schema.go` in JSON, as the `spec` columns and the payloads of
snapshots have them: which members are written of each, and how they are read.  A nil slice counts
as an empty one.

All of them come back from the database as they were (`exact_provider` and so on), but for the
parameters of a plugin.  These are values of any type, and their numbers are of type `float64`; what
is known of them is that whatever came back once comes back again (`settled_plugin`).
-/

set_option autoImplicit false

namespace Voxeltoad
namespace Config

open Assoc (collect Keyed)
open Jsonb (Field encodeFields roundTrip Exact Settled Kept Numeric)
open Unmarshal

variable {num : Numeric}

/-! ## Providers -/

namespace ProviderTimeouts

def zero : ProviderTimeouts := ⟨0, 0, 0⟩

def names : List String := ["connect", "first_byte", "overall"]

def fields (t : ProviderTimeouts) : List Field :=
  [⟨"connect", false, .num t.connect⟩, ⟨"first_byte", false, .num t.firstByte⟩,
    ⟨"overall", false, .num t.overall⟩]

def json (t : ProviderTimeouts) : JsonValue := .obj (encodeFields t.fields)

def unmarshal (t : ProviderTimeouts) (ms : List (String × JsonValue)) :
    Option ProviderTimeouts := do
  let connect ← field int t.connect names "connect" ms
  let firstByte ← field int t.firstByte names "first_byte" ms
  let overall ← field int t.overall names "overall" ms
  return ⟨connect, firstByte, overall⟩

theorem exact : Exact num json (record unmarshal) zero := by
  refine Jsonb.exact_record (fun _ ↦ (by decide : names.Nodup)) fun t ms u h hread ↦ ?_
  simp only [unmarshal, Option.bind_eq_bind, Option.bind_eq_some_iff, Option.pure_def,
    Option.some_inj] at hread
  obtain ⟨connect, hconnect, firstByte, hfirstByte, overall, hoverall, rfl⟩ := hread
  obtain rfl : connect = t.connect := h.read_exact Jsonb.exact_int (by simp [fields]) hconnect
  obtain rfl : firstByte = t.firstByte := h.read_exact Jsonb.exact_int (by simp [fields]) hfirstByte
  obtain rfl : overall = t.overall := h.read_exact Jsonb.exact_int (by simp [fields]) hoverall
  rfl

end ProviderTimeouts

namespace ProviderEndpoint

def zero : ProviderEndpoint := ⟨"", "", "", none⟩

def names : List String := ["id", "adapter", "base_url", "timeouts"]

def fields (e : ProviderEndpoint) : List Field :=
  [⟨"id", e.id = "", .str e.id⟩, ⟨"adapter", false, .str e.adapter⟩,
    ⟨"base_url", false, .str e.baseURL⟩,
    ⟨"timeouts", e.timeouts.isNone, (e.timeouts.getD .zero).json⟩]

def json (e : ProviderEndpoint) : JsonValue := .obj (encodeFields e.fields)

def unmarshal (e : ProviderEndpoint) (ms : List (String × JsonValue)) :
    Option ProviderEndpoint := do
  let id ← field string e.id names "id" ms
  let adapter ← field string e.adapter names "adapter" ms
  let baseURL ← field string e.baseURL names "base_url" ms
  let timeouts ← field (pointer (record ProviderTimeouts.unmarshal) .zero) e.timeouts
    names "timeouts" ms
  return ⟨id, adapter, baseURL, timeouts⟩

theorem exact : Exact num json (record unmarshal) zero := by
  refine Jsonb.exact_record (fun _ ↦ (by decide : names.Nodup)) fun e ms u h hread ↦ ?_
  simp only [unmarshal, Option.bind_eq_bind, Option.bind_eq_some_iff, Option.pure_def,
    Option.some_inj] at hread
  obtain ⟨id, hid, adapter, hadapter, baseURL, hbaseURL, timeouts, htimeouts, rfl⟩ := hread
  obtain rfl : id = e.id := h.read_eq Jsonb.exact_string (by simp [fields]) of_decide_eq_true hid
  obtain rfl : adapter = e.adapter := h.read_exact Jsonb.exact_string (by simp [fields]) hadapter
  obtain rfl : baseURL = e.baseURL := h.read_exact Jsonb.exact_string (by simp [fields]) hbaseURL
  obtain rfl : timeouts = e.timeouts :=
    (h.read_pointer ProviderTimeouts.exact (by simp [fields, ProviderTimeouts.json]) htimeouts).1
  rfl

end ProviderEndpoint

namespace Provider

def zero : Provider := ⟨"", "", [], "", .zero, 0⟩

def names : List String := ["name", "type", "endpoints", "api_key_ref", "timeouts", "weight"]

def fields (p : Provider) : List Field :=
  [⟨"name", false, .str p.name⟩, ⟨"type", false, .str p.type⟩,
    ⟨"endpoints", false, .arr (p.endpoints.map ProviderEndpoint.json)⟩,
    ⟨"api_key_ref", false, .str p.apiKeyRef⟩, ⟨"timeouts", false, p.timeouts.json⟩,
    ⟨"weight", false, .num p.weight⟩]

def json (p : Provider) : JsonValue := .obj (encodeFields p.fields)

def unmarshal (p : Provider) (ms : List (String × JsonValue)) : Option Provider := do
  let name ← field string p.name names "name" ms
  let type ← field string p.type names "type" ms
  let endpoints ← field (slice (record ProviderEndpoint.unmarshal) .zero) p.endpoints names
    "endpoints" ms
  let apiKeyRef ← field string p.apiKeyRef names "api_key_ref" ms
  let timeouts ← field (record ProviderTimeouts.unmarshal) p.timeouts names "timeouts" ms
  let weight ← field int p.weight names "weight" ms
  return ⟨name, type, endpoints, apiKeyRef, timeouts, weight⟩

theorem exact : Exact num json (record unmarshal) zero := by
  refine Jsonb.exact_record (fun _ ↦ (by decide : names.Nodup)) fun p ms u h hread ↦ ?_
  simp only [unmarshal, Option.bind_eq_bind, Option.bind_eq_some_iff, Option.pure_def,
    Option.some_inj] at hread
  obtain ⟨name, hname, type, htype, endpoints, hendpoints, apiKeyRef, hapiKeyRef, timeouts,
    htimeouts, weight, hweight, rfl⟩ := hread
  obtain rfl : name = p.name := h.read_exact Jsonb.exact_string (by simp [fields]) hname
  obtain rfl : type = p.type := h.read_exact Jsonb.exact_string (by simp [fields]) htype
  obtain rfl : endpoints = p.endpoints :=
    h.read_exact ProviderEndpoint.exact.slice (by simp [fields]) hendpoints
  obtain rfl : apiKeyRef = p.apiKeyRef :=
    h.read_exact Jsonb.exact_string (by simp [fields]) hapiKeyRef
  obtain rfl : timeouts = p.timeouts :=
    h.read_exact ProviderTimeouts.exact (by simp [fields]) htimeouts
  obtain rfl : weight = p.weight := h.read_exact Jsonb.exact_int (by simp [fields]) hweight
  rfl

end Provider

/-! ## Models -/

namespace Pricing

def zero : Pricing := ⟨0, 0, "", 0⟩

def names : List String :=
  ["prompt_per_1m", "completion_per_1m", "currency", "cache_hit_multiplier"]

def fields (p : Pricing) : List Field :=
  [⟨"prompt_per_1m", false, .num p.promptPer1M⟩,
    ⟨"completion_per_1m", false, .num p.completionPer1M⟩, ⟨"currency", false, .str p.currency⟩,
    ⟨"cache_hit_multiplier", p.cacheHitMultiplier = 0, .num p.cacheHitMultiplier⟩]

def json (p : Pricing) : JsonValue := .obj (encodeFields (fields p))

def unmarshal (p : Pricing) (ms : List (String × JsonValue)) : Option Pricing := do
  let promptPer1M ← field int p.promptPer1M names "prompt_per_1m" ms
  let completionPer1M ← field int p.completionPer1M names "completion_per_1m" ms
  let currency ← field string p.currency names "currency" ms
  let cacheHitMultiplier ← field int p.cacheHitMultiplier names "cache_hit_multiplier" ms
  return ⟨promptPer1M, completionPer1M, currency, cacheHitMultiplier⟩

theorem exact : Exact num json (record unmarshal) zero := by
  refine Jsonb.exact_record (fun _ ↦ (by decide : names.Nodup)) fun p ms u h hread ↦ ?_
  simp only [unmarshal, Option.bind_eq_bind, Option.bind_eq_some_iff, Option.pure_def,
    Option.some_inj] at hread
  obtain ⟨prompt, hprompt, completion, hcompletion, currency, hcurrency, multiplier,
    hmultiplier, rfl⟩ := hread
  obtain rfl : prompt = p.promptPer1M := h.read_exact Jsonb.exact_int (by simp [fields]) hprompt
  obtain rfl : completion = p.completionPer1M :=
    h.read_exact Jsonb.exact_int (by simp [fields]) hcompletion
  obtain rfl : currency = p.currency := h.read_exact Jsonb.exact_string (by simp [fields]) hcurrency
  obtain rfl : multiplier = p.cacheHitMultiplier :=
    h.read_eq Jsonb.exact_int (by simp [fields]) of_decide_eq_true hmultiplier
  rfl

end Pricing

namespace ModelUpstream

def zero : ModelUpstream := ⟨"", "", 0, Pricing.zero⟩

def names : List String := ["provider", "upstream_model", "default_max_tokens", "pricing"]

def fields (mu : ModelUpstream) : List Field :=
  [⟨"provider", false, .str mu.provider⟩, ⟨"upstream_model", false, .str mu.upstreamModel⟩,
    ⟨"default_max_tokens", mu.defaultMaxTokens = 0, .num mu.defaultMaxTokens⟩,
    ⟨"pricing", false, Pricing.json mu.pricing⟩]

def json (mu : ModelUpstream) : JsonValue := .obj (encodeFields (fields mu))

def unmarshal (mu : ModelUpstream) (ms : List (String × JsonValue)) : Option ModelUpstream := do
  let provider ← field string mu.provider names "provider" ms
  let upstreamModel ← field string mu.upstreamModel names "upstream_model" ms
  let defaultMaxTokens ← field int mu.defaultMaxTokens names "default_max_tokens" ms
  let pricing ← field (record Pricing.unmarshal) mu.pricing names "pricing" ms
  return ⟨provider, upstreamModel, defaultMaxTokens, pricing⟩

theorem exact : Exact num json (record unmarshal) zero := by
  refine Jsonb.exact_record (fun _ ↦ (by decide : names.Nodup)) fun mu ms u h hread ↦ ?_
  simp only [unmarshal, Option.bind_eq_bind, Option.bind_eq_some_iff, Option.pure_def,
    Option.some_inj] at hread
  obtain ⟨provider, hprovider, upstreamModel, hupstreamModel, tokens, htokens, pricing,
    hpricing, rfl⟩ := hread
  obtain rfl : provider = mu.provider :=
    h.read_exact Jsonb.exact_string (by simp [fields]) hprovider
  obtain rfl : upstreamModel = mu.upstreamModel :=
    h.read_exact Jsonb.exact_string (by simp [fields]) hupstreamModel
  obtain rfl : tokens = mu.defaultMaxTokens :=
    h.read_eq Jsonb.exact_int (by simp [fields]) of_decide_eq_true htokens
  obtain rfl : pricing = mu.pricing := h.read_exact Pricing.exact (by simp [fields]) hpricing
  rfl

end ModelUpstream

namespace Model

def zero : Model := ⟨"", "", 0, [], [], []⟩

def names : List String :=
  ["alias", "description", "context_length", "capabilities", "tags", "upstreams"]

def fields (m : Model) : List Field :=
  [⟨"alias", false, .str m.modelAlias⟩, ⟨"description", m.description = "", .str m.description⟩,
    ⟨"context_length", m.contextLength = 0, .num m.contextLength⟩,
    ⟨"capabilities", m.capabilities = [], .arr (m.capabilities.map .str)⟩,
    ⟨"tags", m.tags = [], .arr (m.tags.map .str)⟩,
    ⟨"upstreams", false, .arr (m.upstreams.map ModelUpstream.json)⟩]

def json (m : Model) : JsonValue := .obj (encodeFields m.fields)

def unmarshal (m : Model) (ms : List (String × JsonValue)) : Option Model := do
  let modelAlias ← field string m.modelAlias names "alias" ms
  let description ← field string m.description names "description" ms
  let contextLength ← field int m.contextLength names "context_length" ms
  let capabilities ← field (slice string "") m.capabilities names "capabilities" ms
  let tags ← field (slice string "") m.tags names "tags" ms
  let upstreams ← field (slice (record ModelUpstream.unmarshal) ModelUpstream.zero) m.upstreams
    names "upstreams" ms
  return ⟨modelAlias, description, contextLength, capabilities, tags, upstreams⟩

theorem exact : Exact num json (record unmarshal) zero := by
  refine Jsonb.exact_record (fun _ ↦ (by decide : names.Nodup)) fun m ms u h hread ↦ ?_
  simp only [unmarshal, Option.bind_eq_bind, Option.bind_eq_some_iff, Option.pure_def,
    Option.some_inj] at hread
  obtain ⟨modelAlias, halias, description, hdescription, contextLength, hcontextLength,
    capabilities, hcapabilities, tags, htags, upstreams, hupstreams, rfl⟩ := hread
  obtain rfl : modelAlias = m.modelAlias :=
    h.read_exact Jsonb.exact_string (by simp [fields]) halias
  obtain rfl : description = m.description :=
    h.read_eq Jsonb.exact_string (by simp [fields]) of_decide_eq_true hdescription
  obtain rfl : contextLength = m.contextLength :=
    h.read_eq Jsonb.exact_int (by simp [fields]) of_decide_eq_true hcontextLength
  obtain rfl : capabilities = m.capabilities :=
    h.read_eq Jsonb.exact_string.slice (by simp [fields]) of_decide_eq_true hcapabilities
  obtain rfl : tags = m.tags :=
    h.read_eq Jsonb.exact_string.slice (by simp [fields]) of_decide_eq_true htags
  obtain rfl : upstreams = m.upstreams :=
    h.read_exact ModelUpstream.exact.slice (by simp [fields]) hupstreams
  rfl

end Model

/-! ## Routes -/

namespace RouteProvider

def zero : RouteProvider := ⟨"", 0⟩

def names : List String := ["name", "weight"]

def fields (rp : RouteProvider) : List Field :=
  [⟨"name", false, .str rp.name⟩, ⟨"weight", rp.weight = 0, .num rp.weight⟩]

def json (rp : RouteProvider) : JsonValue := .obj (encodeFields (fields rp))

def unmarshal (rp : RouteProvider) (ms : List (String × JsonValue)) : Option RouteProvider := do
  let name ← field string rp.name names "name" ms
  let weight ← field int rp.weight names "weight" ms
  return ⟨name, weight⟩

theorem exact : Exact num json (record unmarshal) zero := by
  refine Jsonb.exact_record (fun _ ↦ (by decide : names.Nodup)) fun rp ms u h hread ↦ ?_
  simp only [unmarshal, Option.bind_eq_bind, Option.bind_eq_some_iff, Option.pure_def,
    Option.some_inj] at hread
  obtain ⟨name, hname, weight, hweight, rfl⟩ := hread
  obtain rfl : name = rp.name := h.read_exact Jsonb.exact_string (by simp [fields]) hname
  obtain rfl : weight = rp.weight :=
    h.read_eq Jsonb.exact_int (by simp [fields]) of_decide_eq_true hweight
  rfl

end RouteProvider

namespace Route

def zero : Route := ⟨"", [], ""⟩

def names : List String := ["model_alias", "providers", "strategy"]

def fields (rt : Route) : List Field :=
  [⟨"model_alias", false, .str rt.modelAlias⟩,
    ⟨"providers", false, .arr (rt.providers.map RouteProvider.json)⟩,
    ⟨"strategy", false, .str rt.strategy⟩]

def json (rt : Route) : JsonValue := .obj (encodeFields rt.fields)

def unmarshal (rt : Route) (ms : List (String × JsonValue)) : Option Route := do
  let modelAlias ← field string rt.modelAlias names "model_alias" ms
  let providers ← field (slice (record RouteProvider.unmarshal) RouteProvider.zero) rt.providers
    names "providers" ms
  let strategy ← field string rt.strategy names "strategy" ms
  return ⟨modelAlias, providers, strategy⟩

theorem exact : Exact num json (record unmarshal) zero := by
  refine Jsonb.exact_record (fun _ ↦ (by decide : names.Nodup)) fun rt ms u h hread ↦ ?_
  simp only [unmarshal, Option.bind_eq_bind, Option.bind_eq_some_iff, Option.pure_def,
    Option.some_inj] at hread
  obtain ⟨modelAlias, halias, providers, hproviders, strategy, hstrategy, rfl⟩ := hread
  obtain rfl : modelAlias = rt.modelAlias :=
    h.read_exact Jsonb.exact_string (by simp [fields]) halias
  obtain rfl : providers = rt.providers :=
    h.read_exact RouteProvider.exact.slice (by simp [fields]) hproviders
  obtain rfl : strategy = rt.strategy :=
    h.read_exact Jsonb.exact_string (by simp [fields]) hstrategy
  rfl

end Route

/-! ## Settings -/

namespace TraceSettings

def zero : TraceSettings := ⟨false, 0, 0⟩

def names : List String := ["capture_payload_enabled", "max_body_kb", "retention_days"]

def fields (t : TraceSettings) : List Field :=
  [⟨"capture_payload_enabled", false, .bool t.capturePayloadEnabled⟩,
    ⟨"max_body_kb", false, .num t.maxBodyKB⟩, ⟨"retention_days", false, .num t.retentionDays⟩]

def json (t : TraceSettings) : JsonValue := .obj (encodeFields t.fields)

def unmarshal (t : TraceSettings) (ms : List (String × JsonValue)) : Option TraceSettings := do
  let capturePayloadEnabled ← field bool t.capturePayloadEnabled names "capture_payload_enabled" ms
  let maxBodyKB ← field int t.maxBodyKB names "max_body_kb" ms
  let retentionDays ← field int t.retentionDays names "retention_days" ms
  return ⟨capturePayloadEnabled, maxBodyKB, retentionDays⟩

theorem exact : Exact num json (record unmarshal) zero := by
  refine Jsonb.exact_record (fun _ ↦ (by decide : names.Nodup)) fun t ms u h hread ↦ ?_
  simp only [unmarshal, Option.bind_eq_bind, Option.bind_eq_some_iff, Option.pure_def,
    Option.some_inj] at hread
  obtain ⟨enabled, henabled, maxBodyKB, hmaxBodyKB, retentionDays, hretentionDays, rfl⟩ := hread
  obtain rfl : enabled = t.capturePayloadEnabled :=
    h.read_exact Jsonb.exact_bool (by simp [fields]) henabled
  obtain rfl : maxBodyKB = t.maxBodyKB := h.read_exact Jsonb.exact_int (by simp [fields]) hmaxBodyKB
  obtain rfl : retentionDays = t.retentionDays :=
    h.read_exact Jsonb.exact_int (by simp [fields]) hretentionDays
  rfl

end TraceSettings

namespace IngressSettings

-- There is one field, and it stands for the record.

def names : List String := ["anthropic_disabled"]

def fields (anthropicDisabled : Bool) : List Field :=
  [⟨"anthropic_disabled", false, .bool anthropicDisabled⟩]

def json (anthropicDisabled : Bool) : JsonValue := .obj (encodeFields (fields anthropicDisabled))

def unmarshal (anthropicDisabled : Bool) (ms : List (String × JsonValue)) : Option Bool :=
  field bool anthropicDisabled names "anthropic_disabled" ms

theorem exact : Exact num json (record unmarshal) false := by
  refine Jsonb.exact_record (fun _ ↦ (by decide : names.Nodup)) fun b ms u h hread ↦ ?_
  exact h.read_exact Jsonb.exact_bool (by simp [fields]) hread

end IngressSettings

namespace GatewaySettings

def names : List String := ["trace", "ingress"]

def fields (s : GatewaySettings) : List Field :=
  [⟨"trace", false, s.trace.json⟩, ⟨"ingress", false, IngressSettings.json s.anthropicDisabled⟩]

def json (s : GatewaySettings) : JsonValue := .obj (encodeFields s.fields)

def unmarshal (s : GatewaySettings) (ms : List (String × JsonValue)) : Option GatewaySettings := do
  let trace ← field (record TraceSettings.unmarshal) s.trace names "trace" ms
  let anthropicDisabled ← field (record IngressSettings.unmarshal) s.anthropicDisabled
    names "ingress" ms
  return ⟨trace, anthropicDisabled⟩

theorem exact : Exact num json (record unmarshal) zero := by
  refine Jsonb.exact_record (fun _ ↦ (by decide : names.Nodup)) fun s ms u h hread ↦ ?_
  simp only [unmarshal, Option.bind_eq_bind, Option.bind_eq_some_iff, Option.pure_def,
    Option.some_inj] at hread
  obtain ⟨trace, htrace, disabled, hdisabled, rfl⟩ := hread
  obtain rfl : trace = s.trace := h.read_exact TraceSettings.exact (by simp [fields]) htrace
  obtain rfl : disabled = s.anthropicDisabled :=
    h.read_exact IngressSettings.exact (by simp [fields]) hdisabled
  rfl

end GatewaySettings

end Config

/-! ## Values of any type -/

section AnyValue

variable {F : Type} {fl : Float64 F} {num : Jsonb.Numeric}

/-- **A number that came back from the database comes back again.** -/
def Float64.Settled (fl : Float64 F) (num : Jsonb.Numeric) : Prop :=
  ∀ y n x, num.write (fl.format y) = some n → fl.parse n = some x →
    ∃ m, num.write (fl.format x) = some m ∧ fl.parse m = some x

namespace AnyValue

open Assoc (collect Keyed)
open Jsonb (normal rank hasNull KeptAs)

/-- What comes back of a value. -/
def stored (fl : Float64 F) (num : Jsonb.Numeric) (a : AnyValue F) : Option (AnyValue F) :=
  (Jsonb.store num (a.json fl)).bind (read fl)

/-- A member is read under its name. -/
def ReadAs (fl : Float64 F) (m : String × JsonValue) (e : String × AnyValue F) : Prop :=
  e.1 = m.1 ∧ read fl m.2 = some e.2

theorem readMembers_eq_some_iff {ms : List (String × JsonValue)} {es : List (String × AnyValue F)} :
    readMembers fl ms = some es ↔ List.Forall₂ (ReadAs fl) ms es := by
  induction ms generalizing es with
  | nil => simp [readMembers, eq_comm]
  | cons m ms ih =>
    simp only [readMembers, Option.bind_eq_bind, Option.bind_eq_some_iff, Option.pure_def,
      Option.some_inj, ih, List.forall₂_cons_left_iff, ReadAs]
    constructor
    · rintro ⟨a, ha, es, hes, rfl⟩
      exact ⟨(m.1, a), es, ⟨rfl, ha⟩, hes, rfl⟩
    · rintro ⟨⟨k, a⟩, es, ⟨rfl, ha⟩, hes, rfl⟩
      exact ⟨a, ha, es, hes, rfl⟩

theorem readItems_eq_some_iff {vs : List JsonValue} {as : List (AnyValue F)} :
    readItems fl vs = some as ↔ List.Forall₂ (fun v a ↦ read fl v = some a) vs as := by
  induction vs generalizing as with
  | nil => simp [readItems, eq_comm]
  | cons v vs ih =>
    simp only [readItems, Option.bind_eq_bind, Option.bind_eq_some_iff, Option.pure_def,
      Option.some_inj, ih, List.forall₂_cons_left_iff]
    constructor
    · rintro ⟨a, ha, as, has, rfl⟩
      exact ⟨a, as, ha, has, rfl⟩
    · rintro ⟨a, as, ha, has, rfl⟩
      exact ⟨a, ha, as, has, rfl⟩

theorem store_number (n : JsonNumber) :
    Jsonb.store num n.json = (num.write n).map JsonNumber.json := by
  cases n <;> rfl

theorem read_number (n : JsonNumber) : read fl n.json = (fl.parse n).map float := by
  cases n <;> rfl

theorem stored_float {x : F} {b : AnyValue F} :
    stored fl num (float x) = some b ↔ ∃ n y, num.write (fl.format x) = some n ∧
    fl.parse n = some y ∧ b = float y := by
  rw [stored, json, store_number, Option.bind_map]
  simp only [Option.bind_eq_some_iff, Function.comp_apply, read_number, Option.map_eq_some_iff]
  constructor
  · rintro ⟨n, hn, y, hy, rfl⟩
    exact ⟨n, y, hn, hy, rfl⟩
  · rintro ⟨n, y, hn, hy, rfl⟩
    exact ⟨n, hn, y, hy, rfl⟩

theorem stored_list {as : List (AnyValue F)} {b : AnyValue F} :
    stored fl num (list as) = some b ↔
      ∃ bs, b = list bs ∧ List.Forall₂ (fun a b ↦ stored fl num a = some b) as bs := by
  have hlist : stored fl num (list as) =
      ((Jsonb.storeItems num (as.map (json fl))).bind (readItems fl)).map list := by
    rw [stored, json, itemsJson_eq, Jsonb.store, Option.bind_map, Option.map_bind]
    rfl
  rw [hlist, Option.map_eq_some_iff]
  refine exists_congr fun bs ↦ ?_
  rw [and_comm, eq_comm]
  refine and_congr_right fun _ ↦ ?_
  simp only [Option.bind_eq_some_iff, Jsonb.storeItems_eq_some_iff, readItems_eq_some_iff, stored,
    List.forall₂_map_left_iff]
  exact Jsonb.exists_forall₂_iff

/-- The entries of a map as they come back: each name once, and in order. -/
structure Normal (es : List (String × AnyValue F)) : Prop where
  keyed : Keyed es
  sorted : es.Pairwise fun e e' ↦ rank e.1 ≤ rank e'.1
  noNull : ∀ e ∈ es, hasNull e.1 = false

theorem keys_of_readAs {ms : List (String × JsonValue)} {es : List (String × AnyValue F)}
    (h : List.Forall₂ (ReadAs fl) ms es) : es.map Prod.fst = ms.map Prod.fst := by
  induction h with
  | nil => rfl
  | cons hm _ ih => rw [List.map_cons, List.map_cons, hm.1, ih]

theorem pairwise_rank {α β : Type} {l : List (String × α)} {l' : List (String × β)}
    (hkeys : l'.map Prod.fst = l.map Prod.fst) (h : l.Pairwise fun e e' ↦ rank e.1 ≤ rank e'.1) :
    l'.Pairwise fun e e' ↦ rank e.1 ≤ rank e'.1 := by
  have hmap : (l.map Prod.fst).Pairwise fun k k' ↦ rank k ≤ rank k' := List.pairwise_map.mpr h
  rw [← hkeys, List.pairwise_map] at hmap
  exact hmap

/-- What comes back of a map. -/
theorem of_stored_map {es : List (String × AnyValue F)} {b : AnyValue F}
    (h : stored fl num (map es) = some b) :
    ∃ bs, b = map bs ∧ Normal bs ∧ ∀ e ∈ bs, ∃ a, (e.1, a) ∈ es ∧ stored fl num a = some e.2 := by
  obtain ⟨v, hv, hb⟩ := Option.bind_eq_some_iff.mp h
  rw [json, Jsonb.store, Option.map_eq_some_iff] at hv
  obtain ⟨ms, hms, rfl⟩ := hv
  rw [read, Option.map_eq_some_iff] at hb
  obtain ⟨bs, hbs, rfl⟩ := hb
  rw [Jsonb.storeMembers_eq_some_iff] at hms
  rw [readMembers_eq_some_iff] at hbs
  have hkeys := keys_of_readAs hbs
  have hkeyed : Keyed bs := by
    rw [Keyed, hkeys]
    exact Jsonb.keyed_normal ms
  -- Each entry goes back to one that was written.
  have hentry : ∀ e ∈ bs, ∃ m ∈ ms, e.1 = m.1 ∧ read fl m.2 = some e.2 := by
    intro e he
    obtain ⟨m, hm, hread⟩ := Jsonb.exists_of_forall₂_mem hbs he
    have hin : m ∈ collect ms := (Jsonb.perm_normal ms).subset hm
    have hlookup : (collect ms).lookup m.1 = some m.2 :=
      (Assoc.keyed_collect ms).lookup_eq_some_iff.mpr hin
    rw [Assoc.lookup_collect] at hlookup
    exact ⟨m, Assoc.mem_values.mp (List.mem_of_getLast? hlookup), hread⟩
  have hwritten :
      ∀ m ∈ ms, hasNull m.1 = false ∧ ∃ a, (m.1, a) ∈ es ∧
      Jsonb.store num (a.json fl) = some m.2 := by
    intro m hm
    obtain ⟨m₀, hm₀, hnull, hname, hstore⟩ := Jsonb.exists_of_forall₂_mem hms hm
    rw [sortMembers, List.mem_insertionSort, membersJson_eq] at hm₀
    obtain ⟨e, he, rfl⟩ := List.mem_map.mp hm₀
    exact ⟨hname ▸ hnull, e.2, hname ▸ he, hstore⟩
  refine ⟨bs, by rw [Jsonb.collect_of_keyed hkeyed], ⟨hkeyed, ?_, fun e he ↦ ?_⟩, fun e he ↦ ?_⟩
  · exact pairwise_rank hkeys (Jsonb.pairwise_normal ms)
  · obtain ⟨m, hm, hname, -⟩ := hentry e he
    exact hname ▸ (hwritten m hm).1
  · obtain ⟨m, hm, hname, hread⟩ := hentry e he
    obtain ⟨-, a, ha, hstore⟩ := hwritten m hm
    exact ⟨a, hname ▸ ha, Option.bind_eq_some_iff.mpr ⟨m.2, hstore, hread⟩⟩

/-- A map of values that come back comes back. -/
theorem stored_map {es : List (String × AnyValue F)} (hnormal : Normal es)
    (h : ∀ e ∈ es, stored fl num e.2 = some e.2) : stored fl num (map es) = some (map es) := by
  have hmembers :
      ∃ ms, List.Forall₂ (KeptAs num) (membersJson fl es) ms ∧ List.Forall₂ (ReadAs fl) ms es := by
    have hnull := hnormal.noNull
    clear hnormal
    induction es with
    | nil => exact ⟨[], .nil, .nil⟩
    | cons e es ih =>
      obtain ⟨he, hes⟩ := List.forall_mem_cons.mp h
      obtain ⟨hnull, hnulls⟩ := List.forall_mem_cons.mp hnull
      obtain ⟨ms, hms, hread⟩ := ih hes hnulls
      obtain ⟨v, hv, hev⟩ := Option.bind_eq_some_iff.mp he
      exact ⟨(e.1, v) :: ms, .cons ⟨hnull, rfl, hv⟩ hms, .cons ⟨rfl, hev⟩ hread⟩
  obtain ⟨ms, hms, hread⟩ := hmembers
  have hkeys : ms.map Prod.fst = es.map Prod.fst := (keys_of_readAs hread).symm
  have hkeyed : Keyed ms := by
    rw [Keyed, hkeys]
    exact hnormal.keyed
  -- The database does not see the order in which the members are written.
  have hsorted : (sortMembers (membersJson fl es)).Perm (membersJson fl es) :=
    List.perm_insertionSort ..
  obtain ⟨ms', hms', hperm⟩ := List.perm_comp_forall₂ hsorted hms
  have hnorm : normal ms' = ms :=
    Jsonb.normal_eq_of_perm hkeyed (pairwise_rank hkeys hnormal.sorted) hperm
  have hread' : read fl (.obj ms) = some (map es) := by
    rw [read, readMembers_eq_some_iff.mpr hread, Option.map_some,
      Jsonb.collect_of_keyed hnormal.keyed]
  rw [stored, json, Jsonb.store, Jsonb.storeMembers_eq_some_iff.mpr hms', Option.map_some, hnorm]
  exact hread'

mutual

/-- **What came back of a value comes back again.** -/
theorem settled (hfl : fl.Settled num) : ∀ (a : AnyValue F) {b : AnyValue F},
    stored fl num a = some b → stored fl num b = some b
  | .nil, _, h => by
    cases Option.some.inj h
    rfl
  | .bool _, _, h => by
    cases Option.some.inj h
    rfl
  | .float x, _, h => by
    obtain ⟨n, y, hn, hy, rfl⟩ := stored_float.mp h
    obtain ⟨m, hm, hym⟩ := hfl x n y hn hy
    exact stored_float.mpr ⟨m, y, hm, hym, rfl⟩
  | .str s, _, h => by
    obtain ⟨v, hv, hb⟩ := Option.bind_eq_some_iff.mp h
    have hs := hv
    rw [json, Jsonb.store] at hs
    split at hs
    · cases hs
    · cases hs
      cases Option.some.inj hb
      exact Option.bind_eq_some_iff.mpr ⟨_, hv, rfl⟩
  | .list as, _, h => by
    obtain ⟨bs, rfl, hbs⟩ := stored_list.mp h
    refine stored_list.mpr ⟨bs, rfl, List.forall₂_same.mpr fun b hb ↦ ?_⟩
    obtain ⟨a, ha, hab⟩ := Jsonb.exists_of_forall₂_mem hbs hb
    exact settled_items hfl as a ha hab
  | .map es, _, h => by
    obtain ⟨bs, rfl, hnormal, hbs⟩ := of_stored_map h
    refine stored_map hnormal fun e he ↦ ?_
    obtain ⟨a, ha, hae⟩ := hbs e he
    exact settled_entries hfl es _ ha hae

theorem settled_items (hfl : fl.Settled num) : ∀ (as : List (AnyValue F)) (a : AnyValue F), a ∈ as →
    ∀ {b : AnyValue F}, stored fl num a = some b → stored fl num b = some b
  | [], _, ha, _, _ => absurd ha List.not_mem_nil
  | a :: as, _, ha, _, h => by
    rcases List.mem_cons.mp ha with heq | ha
    · rw [heq] at h
      exact settled hfl a h
    · exact settled_items hfl as _ ha h

theorem settled_entries (hfl : fl.Settled num) :
    ∀ (es : List (String × AnyValue F)) (e : String × AnyValue F), e ∈ es →
    ∀ {b : AnyValue F}, stored fl num e.2 = some b → stored fl num b = some b
  | [], _, he, _, _ => absurd he List.not_mem_nil
  | (k, a) :: es, _, he, _, h => by
    rcases List.mem_cons.mp he with heq | he
    · rw [heq] at h
      exact settled hfl a h
    · exact settled_entries hfl es _ he h

end

end AnyValue

end AnyValue

namespace Config

open Assoc (collect)
open Jsonb (Field encodeFields roundTrip Exact Settled Kept Numeric)
open Unmarshal

variable {F : Type} {fl : Float64 F} {num : Numeric}

/-! ## Plugins -/

namespace Params

def json (fl : Float64 F) (params : List (String × AnyValue F)) : JsonValue :=
  .obj (sortMembers (AnyValue.membersJson fl params))

/-- A `map[string]any`: the members go into the map that is there. -/
def read (fl : Float64 F) : Reader (List (String × AnyValue F))
  | _, .null => some []
  | params, .obj ms => (AnyValue.readMembers fl ms).map fun new ↦ collect (params ++ new)
  | _, _ => none

theorem stored_eq (params : List (String × AnyValue F)) :
    AnyValue.stored fl num (.map params) =
      (roundTrip num (json fl) (read fl) [] params).map .map := by
  rw [AnyValue.stored, roundTrip, AnyValue.json, json, Jsonb.store, Option.map_bind,
    Option.bind_map, Option.bind_map]
  refine congrArg _ (funext fun ms ↦ ?_)
  rw [Function.comp_apply, Function.comp_apply, AnyValue.read, Function.comp_apply, read,
    Option.map_map]
  rfl

theorem settled (hfl : fl.Settled num) : Settled num (json fl) (read fl) [] := by
  intro params params' h
  have hmap : AnyValue.stored fl num (.map params) = some (.map params') := by
    rw [stored_eq, h]
    rfl
  have hmap' := AnyValue.settled hfl _ hmap
  rw [stored_eq, Option.map_eq_some_iff] at hmap'
  obtain ⟨_, hback, heq⟩ := hmap'
  cases heq
  exact hback

end Params

/-- `PluginConfig`, with the values of its parameters. -/
structure PluginSpec (F : Type) where
  name : String
  phase : String
  params : List (String × AnyValue F)
  enabled : Bool
  scope : String

namespace PluginSpec

def zero : PluginSpec F := ⟨"", "", [], false, ""⟩

def names : List String := ["name", "phase", "params", "enabled", "scope"]

def fields (fl : Float64 F) (pc : PluginSpec F) : List Field :=
  [⟨"name", false, .str pc.name⟩, ⟨"phase", false, .str pc.phase⟩,
    ⟨"params", pc.params.isEmpty, Params.json fl pc.params⟩, ⟨"enabled", false, .bool pc.enabled⟩,
    ⟨"scope", pc.scope = "", .str pc.scope⟩]

def json (fl : Float64 F) (pc : PluginSpec F) : JsonValue := .obj (encodeFields (pc.fields fl))

def unmarshal (fl : Float64 F) (pc : PluginSpec F) (ms : List (String × JsonValue)) :
    Option (PluginSpec F) := do
  let name ← field string pc.name names "name" ms
  let phase ← field string pc.phase names "phase" ms
  let params ← field (Params.read fl) pc.params names "params" ms
  let enabled ← field bool pc.enabled names "enabled" ms
  let scope ← field string pc.scope names "scope" ms
  return ⟨name, phase, params, enabled, scope⟩

theorem names_nodup (pc : PluginSpec F) : ((pc.fields fl).map Field.name).Nodup :=
  (by decide : names.Nodup)

/-- What was read of a plugin: all as it was, but for the parameters. -/
theorem read_eq (hfl : fl.Settled num) {pc pc' : PluginSpec F} {ms : List (String × JsonValue)}
    (h : Kept num (pc.fields fl) ms) (hread : unmarshal fl zero ms = some pc') :
    pc' = { pc with params := pc'.params } ∧ (pc'.params ≠ [] →
      roundTrip num (Params.json fl) (Params.read fl) [] pc'.params = some pc'.params) := by
  simp only [unmarshal, Option.bind_eq_bind, Option.bind_eq_some_iff, Option.pure_def,
    Option.some_inj] at hread
  obtain ⟨name, hname, phase, hphase, params, hparams, enabled, henabled, scope, hscope, rfl⟩ :=
    hread
  obtain rfl : name = pc.name := h.read_exact Jsonb.exact_string (by simp [fields]) hname
  obtain rfl : phase = pc.phase := h.read_exact Jsonb.exact_string (by simp [fields]) hphase
  obtain rfl : enabled = pc.enabled := h.read_exact Jsonb.exact_bool (by simp [fields]) henabled
  obtain rfl : scope = pc.scope :=
    h.read_eq Jsonb.exact_string (by simp [fields]) of_decide_eq_true hscope
  refine ⟨rfl, fun hne ↦ ?_⟩
  have hmem :
    ⟨"params", pc.params.isEmpty, Params.json fl pc.params⟩ ∈ pc.fields fl := by simp [fields]
  cases hempty : pc.params.isEmpty with
  | true =>
    have hzero := h.field_eq hmem (Params.read fl) []
    rw [if_pos hempty] at hzero
    exact absurd (Option.some.inj (hparams.symm.trans hzero)) hne
  | false => exact Params.settled hfl _ _ (h.roundTrip_eq hmem hparams hempty)

/-- **A plugin that came back comes back again.** -/
theorem settled (hfl : fl.Settled num) : Settled num (json fl) (record (unmarshal fl)) zero := by
  intro pc pc' h
  obtain ⟨v, hv, hread⟩ := Option.bind_eq_some_iff.mp h
  obtain ⟨ms, rfl, hkept⟩ := Jsonb.kept_of_store (names_nodup pc) hv
  obtain ⟨hpc', hparams⟩ := read_eq hfl hkept hread
  -- Whatever could be stored of the plugin can be stored again.
  have hsome : ∀ f ∈ pc'.fields fl, f.omitted = false → (Jsonb.store num f.value).isSome := by
    intro f hf homitted
    by_cases hf' : f ∈ pc.fields fl
    · exact hkept.isSome f hf' homitted
    · have hname : f = ⟨"params", pc'.params.isEmpty, Params.json fl pc'.params⟩ := by
        rw [hpc'] at hf
        simp only [fields, List.mem_cons, List.not_mem_nil, or_false] at hf hf'
        tauto
      subst hname
      obtain ⟨w, hw, -⟩ := Option.bind_eq_some_iff.mp (hparams (by simpa using homitted))
      exact Option.isSome_iff_exists.mpr ⟨w, hw⟩
  obtain ⟨w, hw⟩ := Jsonb.store_encodeFields (by simp [fields]; decide) hsome
  obtain ⟨ms', rfl, hkept'⟩ := Jsonb.kept_of_store (names_nodup pc') hw
  have hfield :
      ∀ (name : String) (omitted : Bool) (s : String), ⟨name, omitted, .str s⟩ ∈ pc'.fields fl →
      (omitted = true → s = "") → field string "" names name ms' = some s := by
    intro name omitted s hf hempty
    exact hkept'.field_eq_some hf hempty fun homitted ↦
      Jsonb.roundTrip_string (hkept'.isSome _ hf homitted)
  have hname := hfield "name" false pc'.name (by simp [fields]) Bool.noConfusion
  have hphase := hfield "phase" false pc'.phase (by simp [fields]) Bool.noConfusion
  have hscope := hfield "scope" (pc'.scope = "") pc'.scope (by simp [fields]) of_decide_eq_true
  have henabled : field bool false names "enabled" ms' = some pc'.enabled := by
    have hf : (⟨"enabled", false, .bool pc'.enabled⟩ : Field) ∈ pc'.fields fl := by simp [fields]
    exact hkept'.field_eq_some hf Bool.noConfusion fun _ ↦ rfl
  have hback : field (Params.read fl) [] names "params" ms' = some pc'.params := by
    have hf :
      (⟨"params", pc'.params.isEmpty, Params.json fl pc'.params⟩ : Field) ∈
      pc'.fields fl := by simp [fields]
    exact hkept'.field_eq_some hf List.isEmpty_iff.mp fun hne ↦ hparams (by simpa using hne)
  refine Option.bind_eq_some_iff.mpr ⟨_, hw, ?_⟩
  have hunmarshal : unmarshal fl zero ms' = some pc' := by
    simp only [unmarshal, zero, hname, hphase, hback, henabled, hscope, Option.bind_eq_bind,
      Option.bind_some, Option.pure_def]
  exact hunmarshal

end PluginSpec

/-! ## Snapshots -/

/-- `Dynamic`, with the values of the parameters of its plugins. -/
structure DynamicSpec (F : Type) where
  version : String
  providers : List Provider
  models : List Model
  routes : List Route
  plugins : List (PluginSpec F)
  settings : Option GatewaySettings
  raw : Option JsonValue

namespace DynamicSpec

def zero : DynamicSpec F := ⟨"", [], [], [], [], none, none⟩

def names : List String :=
  ["version", "providers", "models", "routes", "plugins", "settings", "raw"]

def fields (fl : Float64 F) (d : DynamicSpec F) : List Field :=
  [⟨"version", false, .str d.version⟩,
    ⟨"providers", d.providers.isEmpty, .arr (d.providers.map Provider.json)⟩,
    ⟨"models", d.models.isEmpty, .arr (d.models.map Model.json)⟩,
    ⟨"routes", d.routes.isEmpty, .arr (d.routes.map Route.json)⟩,
    ⟨"plugins", d.plugins.isEmpty, .arr (d.plugins.map (PluginSpec.json fl))⟩,
    ⟨"settings", d.settings.isNone, (d.settings.getD .zero).json⟩,
    ⟨"raw", d.raw.isNone, d.raw.getD .null⟩]

def json (fl : Float64 F) (d : DynamicSpec F) : JsonValue := .obj (encodeFields (d.fields fl))

def unmarshal (fl : Float64 F) (d : DynamicSpec F) (ms : List (String × JsonValue)) :
    Option (DynamicSpec F) := do
  let version ← field string d.version names "version" ms
  let providers ← field (slice (record Provider.unmarshal) .zero) d.providers names "providers" ms
  let models ← field (slice (record Model.unmarshal) .zero) d.models names "models" ms
  let routes ← field (slice (record Route.unmarshal) .zero) d.routes names "routes" ms
  let plugins ← field (slice (record (PluginSpec.unmarshal fl)) .zero) d.plugins names "plugins" ms
  let settings ← field (pointer (record GatewaySettings.unmarshal) .zero) d.settings
    names "settings" ms
  let raw ← field rawMessage d.raw names "raw" ms
  return ⟨version, providers, models, routes, plugins, settings, raw⟩

/-- Each part of a snapshot would come back from a `spec` column. -/
structure Restorable (fl : Float64 F) (num : Numeric) (d : DynamicSpec F) : Prop where
  providers :
    ∀ p ∈ d.providers, roundTrip num Provider.json (record Provider.unmarshal) .zero p = some p
  models : ∀ m ∈ d.models, roundTrip num Model.json (record Model.unmarshal) .zero m = some m
  routes : ∀ rt ∈ d.routes, roundTrip num Route.json (record Route.unmarshal) .zero rt = some rt
  plugins :
    ∀ pc ∈ d.plugins, roundTrip num (PluginSpec.json fl)
    (record (PluginSpec.unmarshal fl)) .zero pc = some pc
  settings :
    ∀ s ∈ d.settings, roundTrip num GatewaySettings.json
    (record GatewaySettings.unmarshal) .zero s = some s

/-- **What is read of a saved snapshot can be restored.** -/
theorem restorable (hfl : fl.Settled num) {d₀ d : DynamicSpec F}
    (h : roundTrip num (json fl) (record (unmarshal fl)) zero d₀ = some d) :
    d.Restorable fl num := by
  obtain ⟨v, hv, hread⟩ := Option.bind_eq_some_iff.mp h
  obtain ⟨ms, rfl, hkept⟩ := Jsonb.kept_of_store (by exact (by decide : names.Nodup)) hv
  have hread' : unmarshal fl zero ms = some d := hread
  simp only [unmarshal, Option.bind_eq_bind, Option.bind_eq_some_iff, Option.pure_def,
    Option.some_inj] at hread'
  obtain ⟨version, -, providers, hproviders, models, hmodels, routes, hroutes, plugins, hplugins,
    settings, hsettings, raw, -, rfl⟩ := hread'
  have hp :
      (⟨"providers", d₀.providers.isEmpty, .arr (d₀.providers.map Provider.json)⟩ : Field) ∈
      d₀.fields fl := by
    simp [fields]
  have hm :
      (⟨"models", d₀.models.isEmpty, .arr (d₀.models.map Model.json)⟩ : Field) ∈ d₀.fields fl := by
    simp [fields]
  have hr :
      (⟨"routes", d₀.routes.isEmpty, .arr (d₀.routes.map Route.json)⟩ : Field) ∈ d₀.fields fl := by
    simp [fields]
  have hpc :
      (⟨"plugins", d₀.plugins.isEmpty, .arr (d₀.plugins.map (PluginSpec.json fl))⟩ : Field) ∈
      d₀.fields fl := by
    simp [fields]
  have hs :
      (⟨"settings", d₀.settings.isNone, .obj (encodeFields (d₀.settings.getD .zero).fields)⟩ :
      Field) ∈ d₀.fields fl := by
    simp [fields, GatewaySettings.json]
  obtain ⟨rfl, hback⟩ := hkept.read_pointer GatewaySettings.exact hs hsettings
  exact
    { providers := hkept.mem_slice Provider.exact.settled hp hproviders
      models := hkept.mem_slice Model.exact.settled hm hmodels
      routes := hkept.mem_slice Route.exact.settled hr hroutes
      plugins := hkept.mem_slice (PluginSpec.settled hfl) hpc hplugins
      settings := hback }

end DynamicSpec

/-! ## The documents of the desktop

The configuration file of the desktop goes through the same tags. -/

theorem ProviderTimeouts.enc_eq : Desktop.providerTimeouts.enc = json := rfl

theorem ProviderEndpoint.enc_eq : Desktop.providerEndpoint.enc = json := by
  funext e
  cases htimeouts :
    e.timeouts <;> simp [json, fields, Desktop.providerEndpoint, ProviderTimeouts.enc_eq, htimeouts]

theorem Provider.enc_eq : Desktop.provider.enc = json := by
  funext p
  simp [json, fields, Desktop.provider, ProviderEndpoint.enc_eq, ProviderTimeouts.enc_eq]

theorem Pricing.enc_eq : Desktop.pricing.enc = Pricing.json := by
  funext p
  simp [Pricing.json, Pricing.fields, Desktop.pricing]

theorem ModelUpstream.enc_eq : Desktop.modelUpstream.enc = ModelUpstream.json := by
  funext mu
  simp [ModelUpstream.json, ModelUpstream.fields, Desktop.modelUpstream, Pricing.enc_eq]

theorem Model.enc_eq : Desktop.model.enc = json := by
  funext m
  simp [json, fields, Desktop.model, ModelUpstream.enc_eq]

theorem RouteProvider.enc_eq : Desktop.routeProvider.enc = RouteProvider.json := by
  funext rp
  simp [RouteProvider.json, RouteProvider.fields, Desktop.routeProvider]

theorem Route.enc_eq : Desktop.route.enc = json := by
  funext rt
  simp [json, fields, Desktop.route, RouteProvider.enc_eq]

theorem GatewaySettings.enc_eq : Desktop.gatewaySettings.enc = json := rfl

end Config

end Voxeltoad
