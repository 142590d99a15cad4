import Voxeltoad.Config.Schema
import Voxeltoad.Lib.Codec

/-!
# The configuration file of the desktop

`cmd/desktop/config/load.go`.  The desktop keeps its configuration in a YAML file.  Between the file
and `config.Dynamic` stand mirrors of the configuration types, with YAML tags, and a detour through
JSON: to load, the file is read into the mirror, the mirror is written as JSON, and that is read
into `config.Dynamic`; to save, the other way round.  The `gateway` section of the file is no part
of `config.Dynamic`; `SaveFile` reads it from the file that is there and puts it back.

The mirrors are written by hand.  A field that the mirror lacks is lost on the way, and two are
lacking: the ingress settings, and `Raw`.

The JSON is real (`JsonValue.marshal`); the YAML library is a parameter, and what is asked of it is
that it reads what it wrote.  A slice or a map that is nil and one that is empty are the same list
here.
-/

set_option autoImplicit false

namespace Voxeltoad
namespace Desktop

open Fields Codec

/-! ## The configuration types -/

/-- `config.PluginConfig`, with its parameters. -/
structure PluginConfig where
  name : String
  phase : String
  params : List (String × JsonValue)
  enabled : Bool
  scope : String

/-- **`config.Dynamic`**, in full. -/
structure Dynamic where
  version : String
  providers : List Config.Provider
  models : List Config.Model
  routes : List Config.Route
  plugins : List PluginConfig
  settings : Option Config.GatewaySettings
  raw : Option JsonValue

/-! ### Their JSON tags -/

def providerTimeouts : Codec Config.ProviderTimeouts :=
  (((field "connect" int 0).and (field "first_byte" int 0)).and (field "overall" int 0)).map
    (fun ((connect, firstByte), overall) ↦ ⟨connect, firstByte, overall⟩)
    (fun t ↦ ((t.connect, t.firstByte), t.overall)) (fun _ ↦ rfl) |>.record

def providerEndpoint : Codec Config.ProviderEndpoint :=
  ((((omitString "id").and (field "adapter" string "")).and (field "base_url" string "")).and
      (opt "timeouts" providerTimeouts)).map
    (fun (((id, adapter), baseURL), timeouts) ↦ ⟨id, adapter, baseURL, timeouts⟩)
    (fun e ↦ (((e.id, e.adapter), e.baseURL), e.timeouts)) (fun _ ↦ rfl) |>.record

def provider : Codec Config.Provider :=
  ((((((field "name" string "").and (field "type" string "")).and
      (field "endpoints" providerEndpoint.list [])).and (field "api_key_ref" string "")).and
      (field "timeouts" providerTimeouts ⟨0, 0, 0⟩)).and (field "weight" int 0)).map
    (fun (((((name, type), endpoints), apiKeyRef), timeouts), weight) ↦
      ⟨name, type, endpoints, apiKeyRef, timeouts, weight⟩)
    (fun p ↦ (((((p.name, p.type), p.endpoints), p.apiKeyRef), p.timeouts), p.weight))
    (fun _ ↦ rfl) |>.record

def pricing : Codec Pricing :=
  ((((field "prompt_per_1m" int 0).and (field "completion_per_1m" int 0)).and
      (field "currency" string "")).and (omitInt "cache_hit_multiplier")).map
    (fun (((prompt, completion), currency), multiplier) ↦
      ⟨prompt, completion, currency, multiplier⟩)
    (fun p ↦ (((p.promptPer1M, p.completionPer1M), p.currency), p.cacheHitMultiplier))
    (fun _ ↦ rfl) |>.record

def modelUpstream : Codec ModelUpstream :=
  ((((field "provider" string "").and (field "upstream_model" string "")).and
      (omitInt "default_max_tokens")).and (field "pricing" pricing ⟨0, 0, "", 0⟩)).map
    (fun (((provider, upstreamModel), maxTokens), pricing) ↦
      ⟨provider, upstreamModel, maxTokens, pricing⟩)
    (fun u ↦ (((u.provider, u.upstreamModel), u.defaultMaxTokens), u.pricing))
    (fun _ ↦ rfl) |>.record

def model : Codec Config.Model :=
  ((((((field "alias" string "").and (omitString "description")).and (omitInt "context_length")).and
      (omitList "capabilities" string.list)).and (omitList "tags" string.list)).and
      (field "upstreams" modelUpstream.list [])).map
    (fun (((((modelAlias, description), contextLength), capabilities), tags), upstreams) ↦
      ⟨modelAlias, description, contextLength, capabilities, tags, upstreams⟩)
    (fun m ↦
      (((((m.modelAlias, m.description), m.contextLength), m.capabilities), m.tags), m.upstreams))
    (fun _ ↦ rfl) |>.record

def routeProvider : Codec RouteProvider :=
  ((field "name" string "").and (omitInt "weight")).map (fun (name, weight) ↦ ⟨name, weight⟩)
    (fun r ↦ (r.name, r.weight)) (fun _ ↦ rfl) |>.record

def route : Codec Config.Route :=
  (((field "model_alias" string "").and (field "providers" routeProvider.list [])).and
      (field "strategy" string "")).map
    (fun ((modelAlias, providers), strategy) ↦ ⟨modelAlias, providers, strategy⟩)
    (fun r ↦ ((r.modelAlias, r.providers), r.strategy)) (fun _ ↦ rfl) |>.record

def pluginConfig : Codec PluginConfig :=
  (((((field "name" string "").and (field "phase" string "")).and (omitList "params" entries)).and
      (field "enabled" bool false)).and (omitString "scope")).map
    (fun ((((name, phase), params), enabled), scope) ↦ ⟨name, phase, params, enabled, scope⟩)
    (fun p ↦ ((((p.name, p.phase), p.params), p.enabled), p.scope)) (fun _ ↦ rfl) |>.record

def traceSettings : Codec Config.TraceSettings :=
  (((field "capture_payload_enabled" bool false).and (field "max_body_kb" int 0)).and
      (field "retention_days" int 0)).map
    (fun ((capture, maxBodyKB), retentionDays) ↦ ⟨capture, maxBodyKB, retentionDays⟩)
    (fun t ↦ ((t.capturePayloadEnabled, t.maxBodyKB), t.retentionDays)) (fun _ ↦ rfl) |>.record

/-- `IngressSettings`: one flag. -/
def ingressSettings : Codec Bool := (field "anthropic_disabled" bool false).record

def gatewaySettings : Codec Config.GatewaySettings :=
  ((field "trace" traceSettings ⟨false, 0, 0⟩).and (field "ingress" ingressSettings false)).map
    (fun (trace, anthropicDisabled) ↦ ⟨trace, anthropicDisabled⟩)
    (fun s ↦ (s.trace, s.anthropicDisabled)) (fun _ ↦ rfl) |>.record

def dynamicFields : Fields Dynamic :=
  (((((((field "version" string "").and (omitList "providers" provider.list)).and
      (omitList "models" model.list)).and (omitList "routes" route.list)).and
      (omitList "plugins" pluginConfig.list)).and (opt "settings" gatewaySettings)).and
      (raw "raw")).map
    (fun ((((((version, providers), models), routes), plugins), settings), raw) ↦
      ⟨version, providers, models, routes, plugins, settings, raw⟩)
    (fun d ↦ ((((((d.version, d.providers), d.models), d.routes), d.plugins), d.settings), d.raw))
    (fun _ ↦ rfl)

def dynamic : Codec Dynamic := dynamicFields.record

/-! ## The mirrors

Except for `yamlDynamic` itself, the YAML tags of a mirror are its JSON tags, and one codec serves
both. -/

/-- `yamlProviderTimeouts`.  The YAML library writes a duration as a text of its own, and reads it
back. -/
structure YamlProviderTimeouts where
  connect : Int
  firstByte : Int
  overall : Int

def yamlProviderTimeouts : Codec YamlProviderTimeouts :=
  (((field "connect" int 0).and (field "first_byte" int 0)).and (field "overall" int 0)).map
    (fun ((connect, firstByte), overall) ↦ ⟨connect, firstByte, overall⟩)
    (fun t ↦ ((t.connect, t.firstByte), t.overall)) (fun _ ↦ rfl) |>.record

structure YamlProviderEndpoint where
  id : String
  adapter : String
  baseURL : String
  timeouts : Option YamlProviderTimeouts

def yamlProviderEndpoint : Codec YamlProviderEndpoint :=
  ((((omitString "id").and (field "adapter" string "")).and (field "base_url" string "")).and
      (opt "timeouts" yamlProviderTimeouts)).map
    (fun (((id, adapter), baseURL), timeouts) ↦ ⟨id, adapter, baseURL, timeouts⟩)
    (fun e ↦ (((e.id, e.adapter), e.baseURL), e.timeouts)) (fun _ ↦ rfl) |>.record

structure YamlProvider where
  name : String
  type : String
  endpoints : List YamlProviderEndpoint
  apiKeyRef : String
  weight : Int
  timeouts : YamlProviderTimeouts

def yamlProvider : Codec YamlProvider :=
  ((((((field "name" string "").and (field "type" string "")).and
      (field "endpoints" yamlProviderEndpoint.list [])).and (field "api_key_ref" string "")).and
      (field "timeouts" yamlProviderTimeouts ⟨0, 0, 0⟩)).and (field "weight" int 0)).map
    (fun (((((name, type), endpoints), apiKeyRef), timeouts), weight) ↦
      ⟨name, type, endpoints, apiKeyRef, weight, timeouts⟩)
    (fun p ↦ (((((p.name, p.type), p.endpoints), p.apiKeyRef), p.timeouts), p.weight))
    (fun _ ↦ rfl) |>.record

structure YamlPricing where
  promptPer1M : Int
  completionPer1M : Int
  currency : String
  cacheHitMultiplier : Int

def yamlPricing : Codec YamlPricing :=
  ((((field "prompt_per_1m" int 0).and (field "completion_per_1m" int 0)).and
      (field "currency" string "")).and (omitInt "cache_hit_multiplier")).map
    (fun (((prompt, completion), currency), multiplier) ↦
      ⟨prompt, completion, currency, multiplier⟩)
    (fun p ↦ (((p.promptPer1M, p.completionPer1M), p.currency), p.cacheHitMultiplier))
    (fun _ ↦ rfl) |>.record

structure YamlModelUpstream where
  provider : String
  upstreamModel : String
  defaultMaxTokens : Int
  pricing : YamlPricing

def yamlModelUpstream : Codec YamlModelUpstream :=
  ((((field "provider" string "").and (field "upstream_model" string "")).and
      (omitInt "default_max_tokens")).and (field "pricing" yamlPricing ⟨0, 0, "", 0⟩)).map
    (fun (((provider, upstreamModel), maxTokens), pricing) ↦
      ⟨provider, upstreamModel, maxTokens, pricing⟩)
    (fun u ↦ (((u.provider, u.upstreamModel), u.defaultMaxTokens), u.pricing))
    (fun _ ↦ rfl) |>.record

structure YamlModel where
  modelAlias : String
  description : String
  contextLength : Int
  capabilities : List String
  tags : List String
  upstreams : List YamlModelUpstream

def yamlModel : Codec YamlModel :=
  ((((((field "alias" string "").and (omitString "description")).and (omitInt "context_length")).and
      (omitList "capabilities" string.list)).and (omitList "tags" string.list)).and
      (field "upstreams" yamlModelUpstream.list [])).map
    (fun (((((modelAlias, description), contextLength), capabilities), tags), upstreams) ↦
      ⟨modelAlias, description, contextLength, capabilities, tags, upstreams⟩)
    (fun m ↦
      (((((m.modelAlias, m.description), m.contextLength), m.capabilities), m.tags), m.upstreams))
    (fun _ ↦ rfl) |>.record

structure YamlRouteProvider where
  name : String
  weight : Int

def yamlRouteProvider : Codec YamlRouteProvider :=
  ((field "name" string "").and (omitInt "weight")).map (fun (name, weight) ↦ ⟨name, weight⟩)
    (fun r ↦ (r.name, r.weight)) (fun _ ↦ rfl) |>.record

structure YamlRoute where
  modelAlias : String
  providers : List YamlRouteProvider
  strategy : String

def yamlRoute : Codec YamlRoute :=
  (((field "model_alias" string "").and (field "providers" yamlRouteProvider.list [])).and
      (field "strategy" string "")).map
    (fun ((modelAlias, providers), strategy) ↦ ⟨modelAlias, providers, strategy⟩)
    (fun r ↦ ((r.modelAlias, r.providers), r.strategy)) (fun _ ↦ rfl) |>.record

structure YamlPluginConfig where
  name : String
  phase : String
  params : List (String × JsonValue)
  enabled : Bool
  scope : String

def yamlPluginConfig : Codec YamlPluginConfig :=
  (((((field "name" string "").and (field "phase" string "")).and (omitList "params" entries)).and
      (field "enabled" bool false)).and (omitString "scope")).map
    (fun ((((name, phase), params), enabled), scope) ↦ ⟨name, phase, params, enabled, scope⟩)
    (fun p ↦ ((((p.name, p.phase), p.params), p.enabled), p.scope)) (fun _ ↦ rfl) |>.record

structure YamlTraceSettings where
  capturePayloadEnabled : Bool
  maxBodyKB : Int
  retentionDays : Int

def yamlTraceSettings : Codec YamlTraceSettings :=
  (((field "capture_payload_enabled" bool false).and (field "max_body_kb" int 0)).and
      (field "retention_days" int 0)).map
    (fun ((capture, maxBodyKB), retentionDays) ↦ ⟨capture, maxBodyKB, retentionDays⟩)
    (fun t ↦ ((t.capturePayloadEnabled, t.maxBodyKB), t.retentionDays)) (fun _ ↦ rfl) |>.record

/-- `yamlGatewaySettings`: the trace settings, and nothing else. -/
structure YamlGatewaySettings where
  trace : YamlTraceSettings

def yamlGatewaySettings : Codec YamlGatewaySettings :=
  (field "trace" yamlTraceSettings ⟨false, 0, 0⟩).map (fun trace ↦ ⟨trace⟩) (fun s ↦ s.trace)
    (fun _ ↦ rfl) |>.record

/-- `yamlGateway`, and `GatewaySection`. -/
structure GatewaySection where
  addr : String
  sessionHeaders : List String
  deriving DecidableEq, Repr

def yamlGateway : Codec GatewaySection :=
  ((field "addr" string "").and (omitList "session_headers" string.list)).map
    (fun (addr, sessionHeaders) ↦ ⟨addr, sessionHeaders⟩) (fun g ↦ (g.addr, g.sessionHeaders))
    (fun _ ↦ rfl) |>.record

/-- `yamlDynamic`, the gateway section apart. -/
structure YamlBody where
  version : String
  providers : List YamlProvider
  models : List YamlModel
  routes : List YamlRoute
  plugins : List YamlPluginConfig
  settings : Option YamlGatewaySettings

/-- **`yamlDynamic`.** -/
structure YamlDynamic extends YamlBody where
  gateway : Option GatewaySection

/-- Its JSON tags.  The gateway section is excluded. -/
def yamlBodyJSON : Fields YamlBody :=
  ((((((field "version" string "").and (omitList "providers" yamlProvider.list)).and
      (omitList "models" yamlModel.list)).and (omitList "routes" yamlRoute.list)).and
      (omitList "plugins" yamlPluginConfig.list)).and (opt "settings" yamlGatewaySettings)).map
    (fun (((((version, providers), models), routes), plugins), settings) ↦
      ⟨version, providers, models, routes, plugins, settings⟩)
    (fun d ↦ (((((d.version, d.providers), d.models), d.routes), d.plugins), d.settings))
    (fun _ ↦ rfl)

/-- Its YAML tags, with the lists that are not left out. -/
def yamlBodyYAML : Fields YamlBody :=
  ((((((field "version" string "").and (field "providers" yamlProvider.list [])).and
      (field "models" yamlModel.list [])).and (field "routes" yamlRoute.list [])).and
      (field "plugins" yamlPluginConfig.list [])).and (opt "settings" yamlGatewaySettings)).map
    (fun (((((version, providers), models), routes), plugins), settings) ↦
      ⟨version, providers, models, routes, plugins, settings⟩)
    (fun d ↦ (((((d.version, d.providers), d.models), d.routes), d.plugins), d.settings))
    (fun _ ↦ rfl)

def yamlDynamic : Codec YamlDynamic :=
  ((opt "gateway" yamlGateway).and yamlBodyYAML).map (fun (gateway, body) ↦ ⟨body, gateway⟩)
    (fun d ↦ (d.gateway, d.toYamlBody)) (fun _ ↦ rfl) |>.record

/-! ## Loading and saving -/

/-- The YAML library: it writes documents and reads them. -/
structure Yaml where
  marshal : JsonValue → List UInt8
  unmarshal : List UInt8 → Option JsonValue

/-- **It reads what it wrote.** -/
def Yaml.Faithful (yaml : Yaml) : Prop := ∀ v, yaml.unmarshal (yaml.marshal v) = some v

/-- A file that does not hold what it should. -/
inductive FileError where
  | yaml
  | json
  | gateway (e : FileError)
  deriving DecidableEq, Repr

variable (yaml : Yaml)

/-- `yaml.Unmarshal` into the mirror. -/
def parseFile (data : List UInt8) : Except FileError YamlDynamic :=
  match (yaml.unmarshal data).bind yamlDynamic.dec with
  | some yd => .ok yd
  | none => .error .yaml

/-- `json.Unmarshal` of what `json.Marshal` wrote. -/
def throughJSON {α β : Type} (enc : α → JsonValue) (dec : JsonValue → Option β) (a : α) :
    Except FileError β :=
  match (JsonValue.unmarshal (enc a).marshal).bind dec with
  | some b => .ok b
  | none => .error .json

/-- **`LoadFromFile`**, on the contents of the file. -/
def loadFromFile (data : List UInt8) : Except FileError Dynamic := do
  let yd ← parseFile yaml data
  let dyn ← throughJSON yamlBodyJSON.record.enc dynamic.dec yd.toYamlBody
  .ok (if dyn.version = "" then { dyn with version := "local" } else dyn)

/-- `LoadGatewaySection`. -/
def loadGatewaySection (data : List UInt8) : Except FileError GatewaySection := do
  let yd ← parseFile yaml data
  .ok (yd.gateway.getD ⟨"", []⟩)

/-- **`SaveFile`**: what is written in the place of `data`.  Without a gateway section of its own,
the one in the file is kept. -/
def saveFile (data : List UInt8) (dyn : Dynamic) (gateway : Option GatewaySection) :
    Except FileError (List UInt8) := do
  let body ← throughJSON dynamic.enc yamlBodyJSON.record.dec dyn
  let gw ← match gateway with
    | some gw => .ok gw
    | none =>
      match loadGatewaySection yaml data with
      | .ok gw => .ok gw
      | .error e => .error (.gateway e)
  let section' := if gw.addr ≠ "" ∨ gw.sessionHeaders ≠ [] then some gw else none
  .ok (yaml.marshal (yamlDynamic.enc { body with gateway := section' }))

/-! ## The mirror of a configuration -/

def mirrorTimeouts (t : Config.ProviderTimeouts) : YamlProviderTimeouts :=
  ⟨t.connect, t.firstByte, t.overall⟩

def mirrorEndpoint (e : Config.ProviderEndpoint) : YamlProviderEndpoint :=
  ⟨e.id, e.adapter, e.baseURL, e.timeouts.map mirrorTimeouts⟩

def mirrorProvider (p : Config.Provider) : YamlProvider :=
  ⟨p.name, p.type, p.endpoints.map mirrorEndpoint, p.apiKeyRef, p.weight, mirrorTimeouts p.timeouts⟩

def mirrorPricing (p : Pricing) : YamlPricing :=
  ⟨p.promptPer1M, p.completionPer1M, p.currency, p.cacheHitMultiplier⟩

def mirrorUpstream (u : ModelUpstream) : YamlModelUpstream :=
  ⟨u.provider, u.upstreamModel, u.defaultMaxTokens, mirrorPricing u.pricing⟩

def mirrorModel (m : Config.Model) : YamlModel :=
  ⟨m.modelAlias, m.description, m.contextLength, m.capabilities, m.tags,
    m.upstreams.map mirrorUpstream⟩

def mirrorRouteProvider (r : RouteProvider) : YamlRouteProvider := ⟨r.name, r.weight⟩

def mirrorRoute (r : Config.Route) : YamlRoute :=
  ⟨r.modelAlias, r.providers.map mirrorRouteProvider, r.strategy⟩

def mirrorPlugin (p : PluginConfig) : YamlPluginConfig :=
  ⟨p.name, p.phase, p.params, p.enabled, p.scope⟩

def mirrorTrace (t : Config.TraceSettings) : YamlTraceSettings :=
  ⟨t.capturePayloadEnabled, t.maxBodyKB, t.retentionDays⟩

/-- What the mirror has of the settings. -/
def mirrorSettings (s : Config.GatewaySettings) : YamlGatewaySettings := ⟨mirrorTrace s.trace⟩

/-- What the mirror has of a configuration. -/
def mirror (d : Dynamic) : YamlBody where
  version := d.version
  providers := d.providers.map mirrorProvider
  models := d.models.map mirrorModel
  routes := d.routes.map mirrorRoute
  plugins := d.plugins.map mirrorPlugin
  settings := d.settings.map mirrorSettings

theorem mirrors_timeouts :
    Mirrors providerTimeouts yamlProviderTimeouts mirrorTimeouts := fun _ ↦ rfl

theorem mirrors_endpoint : Mirrors providerEndpoint yamlProviderEndpoint mirrorEndpoint := by
  rintro ⟨id, adapter, baseURL, _ | timeouts⟩
  · rfl
  · rfl

theorem mirrors_provider : Mirrors provider yamlProvider mirrorProvider := by
  intro p
  have hendpoints := mirrors_endpoint.list p.endpoints
  simp only [provider, yamlProvider, mirrorProvider, Fields.record, Fields.map,
    Fields.and, Fields.field, hendpoints, mirrors_timeouts p.timeouts]

theorem mirrors_upstream : Mirrors modelUpstream yamlModelUpstream mirrorUpstream := fun _ ↦ rfl

theorem mirrors_model : Mirrors model yamlModel mirrorModel := by
  intro m
  have hupstreams := mirrors_upstream.list m.upstreams
  simp only [model, yamlModel, mirrorModel, Fields.record, Fields.map, Fields.and,
    Fields.field, hupstreams]

theorem mirrors_route : Mirrors route yamlRoute mirrorRoute := by
  intro r
  have hproviders : routeProvider.list.enc r.providers =
      yamlRouteProvider.list.enc (r.providers.map mirrorRouteProvider) :=
    (Mirrors.list (f := mirrorRouteProvider) (fun _ ↦ rfl) r.providers).symm
  simp only [route, yamlRoute, mirrorRoute, Fields.record, Fields.map, Fields.and,
    Fields.field, hproviders]

theorem mirrors_plugin : Mirrors pluginConfig yamlPluginConfig mirrorPlugin := fun _ ↦ rfl

/-! ## What is lost on the way -/

/-- The first five fields, which the mirror has as they are. -/
def commonFields :=
  ((((field "version" string "").and (omitList "providers" provider.list)).and
    (omitList "models" model.list)).and (omitList "routes" route.list)).and
    (omitList "plugins" pluginConfig.list)

def yamlCommonFields :=
  ((((field "version" string "").and (omitList "providers" yamlProvider.list)).and
    (omitList "models" yamlModel.list)).and (omitList "routes" yamlRoute.list)).and
    (omitList "plugins" yamlPluginConfig.list)

def Dynamic.common (d : Dynamic) :
    (((String × List Config.Provider) × List Config.Model) × List Config.Route) ×
    List PluginConfig :=
  ((((d.version, d.providers), d.models), d.routes), d.plugins)

def YamlBody.common (b : YamlBody) :
    (((String × List YamlProvider) × List YamlModel) × List YamlRoute) × List YamlPluginConfig :=
  ((((b.version, b.providers), b.models), b.routes), b.plugins)

theorem omitList_enc {α β : Type} {c : Codec α} {c' : Codec β} {f : α → β} (h : Mirrors c c' f)
    (k : String) (as : List α) :
    (omitList k c'.list).enc (as.map f) = (omitList k c.list).enc as := by
  simp only [omitList, omitEmpty, List.isEmpty_map, h.list as]

theorem common_enc (d : Dynamic) :
    yamlCommonFields.enc (mirror d).common = commonFields.enc d.common := by
  simp only [yamlCommonFields, commonFields, Fields.and, mirror, YamlBody.common, Dynamic.common,
    omitList_enc mirrors_provider, omitList_enc mirrors_model, omitList_enc mirrors_route,
    omitList_enc mirrors_plugin]

/-- The names of the fields that are not common. -/
theorem key_of_mem_rest {settings : List (String × JsonValue)} {raw : List (String × JsonValue)}
    (hsettings : ∀ e ∈ settings, e.1 ∈ ["settings"]) (hraw : ∀ e ∈ raw, e.1 ∈ ["raw"]) :
    ∀ e ∈ settings ++ raw, e.1 ∉ ["version", "providers", "models", "routes", "plugins"] := by
  intro e he
  rcases List.mem_append.mp he with he | he
  · rw [List.mem_singleton.mp (hsettings e he)]
    decide
  · rw [List.mem_singleton.mp (hraw e he)]
    decide

/-- The mirror reads the trace settings. -/
theorem yamlGatewaySettings_dec (s : Config.GatewaySettings) :
    yamlGatewaySettings.dec (gatewaySettings.enc s) = some (mirrorSettings s) := by
  have htrace :=
    (field "trace" yamlTraceSettings ⟨false, 0, 0⟩).dec_append_left (mirrorTrace s.trace)
    [("ingress", ingressSettings.enc s.anthropicDisabled)] (by simp [field])
  exact congrArg (Option.map YamlGatewaySettings.mk) htrace

/-- What comes back of the settings. -/
def restoredSettings (s : YamlGatewaySettings) : Config.GatewaySettings :=
  ⟨⟨s.trace.capturePayloadEnabled, s.trace.maxBodyKB, s.trace.retentionDays⟩, false⟩

theorem gatewaySettings_dec (s : YamlGatewaySettings) :
    gatewaySettings.dec (yamlGatewaySettings.enc s) = some (restoredSettings s) := by
  let look : String → Option JsonValue := fun k ↦
    ((field "trace" traceSettings ⟨false, 0, 0⟩).enc (restoredSettings s).trace).lookup k
  have htrace :
      (field "trace" traceSettings ⟨false, 0, 0⟩).dec look = some (restoredSettings s).trace :=
    (field "trace" traceSettings ⟨false, 0, 0⟩).law _
  -- The mirror has not written the ingress settings.
  have hingress : (field "ingress" ingressSettings false).dec look = some false := rfl
  have hboth :
      ((field "trace" traceSettings ⟨false, 0, 0⟩).and (field "ingress" ingressSettings false)).dec
      look =
      some ((restoredSettings s).trace, false) := dec_and htrace hingress
  exact congrArg (Option.map fun x ↦ (⟨x.1, x.2⟩ : Config.GatewaySettings)) hboth

/-- What comes back of a configuration: all but the ingress settings and `Raw`. -/
def Dynamic.returned (d : Dynamic) : Dynamic :=
  { d with settings := d.settings.map fun s ↦ ⟨s.trace, false⟩, raw := none }

/-- **To the mirror**: it skips what it does not have. -/
theorem yamlBodyJSON_dec (d : Dynamic) :
    yamlBodyJSON.record.dec (dynamic.enc d) = some (mirror d) := by
  let settings := (opt "settings" gatewaySettings).enc d.settings
  let rest := (raw "raw").enc d.raw
  have henc : dynamicFields.enc d = (commonFields.enc d.common ++ settings) ++ rest := rfl
  let look : String → Option JsonValue := fun k ↦ (dynamicFields.enc d).lookup k
  have hcommon : yamlCommonFields.dec look = some (mirror d).common := by
    have hkeys := key_of_mem_rest ((opt "settings" gatewaySettings).keys_enc d.settings)
      ((raw "raw").keys_enc d.raw)
    have hdec := yamlCommonFields.dec_append_left (mirror d).common (settings ++ rest) hkeys
    rw [common_enc, ← List.append_assoc, ← henc] at hdec
    exact hdec
  have hsettings : (opt "settings" yamlGatewaySettings).dec look =
      some (d.settings.map mirrorSettings) := by
    refine opt_dec yamlGatewaySettings_dec ?_
    have hother : rest.lookup "settings" = none := (raw "raw").lookup_enc d.raw (by decide)
    dsimp only [look]
    rw [henc, List.lookup_append, List.lookup_append, hother,
      commonFields.lookup_enc d.common (by decide), Option.none_or, Option.or_none]
  have hboth : (yamlCommonFields.and (opt "settings" yamlGatewaySettings)).dec look =
      some ((mirror d).common, d.settings.map mirrorSettings) := dec_and hcommon hsettings
  exact congrArg (Option.map fun x ↦
    (⟨x.1.1.1.1.1, x.1.1.1.1.2, x.1.1.1.2, x.1.1.2, x.1.2, x.2⟩ : YamlBody)) hboth

/-- **From the mirror**: what it does not have is read as empty. -/
theorem dynamic_dec (d : Dynamic) :
    dynamic.dec (yamlBodyJSON.record.enc (mirror d)) = some d.returned := by
  let settings := (opt "settings" yamlGatewaySettings).enc (d.settings.map mirrorSettings)
  have henc : yamlBodyJSON.enc (mirror d) = commonFields.enc d.common ++ settings := by
    rw [← common_enc]
    rfl
  let look : String → Option JsonValue := fun k ↦ (yamlBodyJSON.enc (mirror d)).lookup k
  have hcommon : commonFields.dec look = some d.common := by
    have hdec := commonFields.dec_append_left d.common settings fun e he ↦ by
      rw [List.mem_singleton.mp ((opt "settings" yamlGatewaySettings).keys_enc _ e he)]
      decide
    rw [← henc] at hdec
    exact hdec
  have hsettings : (opt "settings" gatewaySettings).dec look = some d.returned.settings := by
    have hdec : (opt "settings" gatewaySettings).dec look =
        some ((d.settings.map mirrorSettings).map restoredSettings) := by
      refine opt_dec gatewaySettings_dec ?_
      dsimp only [look]
      rw [henc, List.lookup_append, commonFields.lookup_enc d.common (by decide), Option.none_or]
    rw [hdec, Option.map_map]
    rfl
  have hraw : (raw "raw").dec look = some none := by
    have hother : settings.lookup "raw" = none :=
      (opt "settings" yamlGatewaySettings).lookup_enc _ (by decide)
    have hnone : look "raw" = none := by
      dsimp only [look]
      rw [henc, List.lookup_append, hother, commonFields.lookup_enc d.common (by decide),
        Option.none_or]
    exact congrArg some hnone
  have hall : ((commonFields.and (opt "settings" gatewaySettings)).and (raw "raw")).dec look =
      some ((d.common, d.returned.settings), none) := dec_and (dec_and hcommon hsettings) hraw
  exact congrArg
    (Option.map fun x ↦ (⟨x.1.1.1.1.1.1, x.1.1.1.1.1.2, x.1.1.1.1.2, x.1.1.1.2, x.1.1.2,
    x.1.2, x.2⟩ : Dynamic)) hall

/-! ## The round trip -/

section RoundTrip

variable {yaml : Yaml} {data : List UInt8} {d : Dynamic} {gateway : GatewaySection}

theorem throughJSON_eq {α β : Type} {enc : α → JsonValue} {dec : JsonValue → Option β}
    {a : α} {b : β} (h : dec (enc a) = some b) : throughJSON enc dec a = .ok b := by
  rw [throughJSON, JsonValue.unmarshal_marshal, Option.bind_some, h]

theorem parseFile_marshal (hyaml : yaml.Faithful) (yd : YamlDynamic) :
    parseFile yaml (yaml.marshal (yamlDynamic.enc yd)) = .ok yd := by
  rw [parseFile, hyaml, Option.bind_some, yamlDynamic.law]

/-- The file that is written. -/
def saved (d : Dynamic) (gateway : GatewaySection) : YamlDynamic :=
  { mirror d with
    gateway := if gateway.addr ≠ "" ∨ gateway.sessionHeaders ≠ [] then some gateway else none }

theorem saveFile_eq (hgateway : loadGatewaySection yaml data = .ok gateway) :
    saveFile yaml data d none = .ok (yaml.marshal (yamlDynamic.enc (saved d gateway))) := by
  rw [saveFile, throughJSON_eq (yamlBodyJSON_dec d), hgateway]
  rfl

theorem loadFromFile_saved (hyaml : yaml.Faithful) (hversion : d.version ≠ "") :
    loadFromFile yaml (yaml.marshal (yamlDynamic.enc (saved d gateway))) = .ok d.returned := by
  have hjson : throughJSON yamlBodyJSON.record.enc dynamic.dec (saved d gateway).toYamlBody =
      .ok d.returned := throughJSON_eq (dynamic_dec d)
  rw [loadFromFile, parseFile_marshal hyaml]
  dsimp only [bind, Except.bind]
  rw [hjson]
  dsimp only
  rw [if_neg (show d.returned.version ≠ "" from hversion)]

theorem loadGatewaySection_saved (hyaml : yaml.Faithful) :
    loadGatewaySection yaml (yaml.marshal (yamlDynamic.enc (saved d gateway))) = .ok gateway := by
  rw [loadGatewaySection, parseFile_marshal hyaml]
  dsimp only [bind, Except.bind, saved]
  split
  · rfl
  · rename_i hempty
    obtain ⟨addr, headers⟩ := gateway
    simp only [ne_eq, not_or, not_not] at hempty
    rw [hempty.1, hempty.2]
    rfl

end RoundTrip

/-- **The round trip of the file.**  Loading what `SaveFile` wrote yields the configuration again,
and the gateway section of the file, if and only if there are no ingress settings to lose and no
`Raw`. -/
theorem file_round_trip_iff (yaml : Yaml) (hyaml : yaml.Faithful) (data : List UInt8) (d : Dynamic)
    (gateway : GatewaySection) (hversion : d.version ≠ "")
    (hgateway : loadGatewaySection yaml data = .ok gateway) :
    (∃ data', saveFile yaml data d none = .ok data' ∧ loadFromFile yaml data' = .ok d ∧
        loadGatewaySection yaml data' = .ok gateway) ↔
      (∀ s ∈ d.settings, s.anthropicDisabled = false) ∧ d.raw = none := by
  constructor
  · rintro ⟨data', hsave, hload, -⟩
    rw [saveFile_eq hgateway] at hsave
    cases hsave
    rw [loadFromFile_saved hyaml hversion] at hload
    have heq : d.returned = d := Except.ok.inj hload
    refine ⟨fun s hs ↦ ?_, (congrArg Dynamic.raw heq).symm⟩
    have hsettings := congrArg Dynamic.settings heq
    rw [Dynamic.returned, hs, Option.map_some] at hsettings
    exact (congrArg Config.GatewaySettings.anthropicDisabled (Option.some.inj hsettings)).symm
  · rintro ⟨hsettings, hraw⟩
    have hreturned : d.returned = d := by
      obtain ⟨version, providers, models, routes, plugins, settings, raw⟩ := d
      simp only at hraw
      subst hraw
      cases settings with
      | none => rfl
      | some s =>
        have hingress : s.anthropicDisabled = false := hsettings s rfl
        rw [Dynamic.returned, Option.map_some, ← hingress]
    refine ⟨_, saveFile_eq hgateway, ?_, loadGatewaySection_saved hyaml⟩
    rw [loadFromFile_saved hyaml hversion, hreturned]

/-- JSON is YAML, and a library that writes nothing else is a faithful one. -/
def Yaml.flow : Yaml := ⟨JsonValue.marshal, JsonValue.unmarshal⟩

theorem Yaml.flow_faithful : Yaml.flow.Faithful := JsonValue.unmarshal_marshal

/-- A configuration with a provider, a plugin and settings. -/
def Dynamic.sample (anthropicDisabled : Bool) : Dynamic where
  version := "3"
  providers := [⟨"p", "openai", [⟨"", "openai", "https://upstream", some ⟨1, 2, 3⟩⟩], "plain://k",
    ⟨4, 5, 6⟩, 1⟩]
  models := [⟨"m", "", 128000, ["vision"], [], [⟨"p", "gpt", 0, ⟨1, 2, "usd", 0⟩⟩]⟩]
  routes := [⟨"m", [⟨"p", 0⟩], "priority"⟩]
  plugins := [⟨"ratelimit", "pre", [("rpm", .num 60)], true, ""⟩]
  settings := some ⟨⟨true, 64, 30⟩, anthropicDisabled⟩
  raw := none

/-- The file before: nothing but where the gateway listens. -/
def listening : List UInt8 :=
  Yaml.flow.marshal
  (yamlDynamic.enc ⟨⟨"", [], [], [], [], none⟩, some ⟨"127.0.0.1:8787", ["X-Session"]⟩⟩)

theorem loadGatewaySection_listening :
    loadGatewaySection Yaml.flow listening = .ok ⟨"127.0.0.1:8787", ["X-Session"]⟩ := by
  rw [loadGatewaySection, listening, parseFile_marshal Yaml.flow_faithful]
  rfl

theorem file_round_trip_sample :
    ∃ data', saveFile Yaml.flow listening (.sample false) none = .ok data' ∧
      loadFromFile Yaml.flow data' = .ok (.sample false) ∧
      loadGatewaySection Yaml.flow data' = .ok ⟨"127.0.0.1:8787", ["X-Session"]⟩ := by
  refine (file_round_trip_iff Yaml.flow Yaml.flow_faithful listening (.sample false)
    ⟨"127.0.0.1:8787", ["X-Session"]⟩ (by decide) loadGatewaySection_listening).mpr ⟨?_, rfl⟩
  rintro s hs
  cases hs
  rfl

/-- An operator who has turned the Anthropic ingress off finds it on again. -/
theorem file_loses_ingress :
    ¬∀ (yaml : Yaml) (data : List UInt8) (d : Dynamic) (gateway : GatewaySection), yaml.Faithful →
      d.version ≠ "" → loadGatewaySection yaml data = .ok gateway →
      ∃ data', saveFile yaml data d none = .ok data' ∧ loadFromFile yaml data' = .ok d ∧
        loadGatewaySection yaml data' = .ok gateway := by
  intro hall
  obtain ⟨data', hsave, hload, -⟩ := hall Yaml.flow listening (.sample true) _ Yaml.flow_faithful
    (by decide) loadGatewaySection_listening
  rw [saveFile_eq loadGatewaySection_listening] at hsave
  cases hsave
  rw [loadFromFile_saved Yaml.flow_faithful (by decide)] at hload
  have hsettings := congrArg Dynamic.settings (Except.ok.inj hload)
  revert hsettings
  decide

end Desktop
end Voxeltoad
