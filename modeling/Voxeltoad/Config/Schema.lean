import Voxeltoad.Config.Dynamic

/-!
# The configuration as it is stored

`internal/config/schema.go` in full: the `spec` documents that the admin API writes and a snapshot
carries.  The types of `Config/Dynamic.lean` are what the proxy reads of them; here are also the
credential reference, the timeouts, the plugins and the gateway settings, and the strategy of a
route is the text that the operator sent.

Documents are stored and sent as JSON, which is taken to be lossless.
-/

set_option autoImplicit false

namespace Voxeltoad
namespace Config

/-- `ProviderTimeouts`, in nanoseconds. -/
structure ProviderTimeouts where
  connect : Int
  firstByte : Int
  overall : Int
  deriving DecidableEq, Repr

/-- `ProviderEndpoint`. -/
structure ProviderEndpoint where
  id : String
  adapter : String
  baseURL : String
  /-- Overrides the timeouts of the provider. -/
  timeouts : Option ProviderTimeouts
  deriving DecidableEq, Repr

/-- `EndpointID`. -/
def ProviderEndpoint.endpointID (e : ProviderEndpoint) : String :=
  (Voxeltoad.ProviderEndpoint.mk e.id e.adapter).endpointID

/-- `Provider`. -/
structure Provider where
  name : String
  type : String
  endpoints : List ProviderEndpoint
  /-- A reference to the credential that all endpoints share. -/
  apiKeyRef : String
  timeouts : ProviderTimeouts
  weight : Int
  deriving DecidableEq, Repr

/-- `Model`. -/
structure Model where
  modelAlias : String
  description : String
  contextLength : Int
  capabilities : List String
  tags : List String
  upstreams : List ModelUpstream
  deriving DecidableEq, Repr

/-- `Route`. -/
structure Route where
  modelAlias : String
  providers : List RouteProvider
  strategy : String
  deriving DecidableEq, Repr

/-- `PluginConfig`.  The parameters are a JSON object that nothing here looks into. -/
structure PluginConfig where
  name : String
  phase : String
  params : String
  enabled : Bool
  scope : String
  deriving DecidableEq, Repr

/-- `TraceSettings`. -/
structure TraceSettings where
  capturePayloadEnabled : Bool
  maxBodyKB : Int
  retentionDays : Int
  deriving DecidableEq, Repr

/-- `GatewaySettings`. -/
structure GatewaySettings where
  trace : TraceSettings
  /-- `IngressSettings`. -/
  anthropicDisabled : Bool
  deriving DecidableEq, Repr

/-- The settings of the seeded `{}`. -/
def GatewaySettings.zero : GatewaySettings := ⟨⟨false, 0, 0⟩, false⟩

/-- `Dynamic`: one snapshot.  `settings` is `none` in a snapshot from before there were settings. -/
structure Dynamic where
  version : String
  providers : List Provider
  models : List Model
  routes : List Route
  plugins : List PluginConfig
  settings : Option GatewaySettings
  deriving DecidableEq, Repr

/-- `&Dynamic{}`. -/
def Dynamic.zero : Dynamic := ⟨"", [], [], [], [], none⟩

/-! ## Validation -/

/-- How `strconv.Quote` writes a character.  Every character outside ASCII counts as printable. -/
def quoteChar (c : Char) : String :=
  match c with
  | '"' => "\\\""
  | '\\' => "\\\\"
  | '\x07' => "\\a"
  | '\x08' => "\\b"
  | '\x0c' => "\\f"
  | '\n' => "\\n"
  | '\r' => "\\r"
  | '\t' => "\\t"
  | '\x0b' => "\\v"
  | c =>
    if c.toNat < 32 ∨ c.toNat = 127 then
      "\\x" ++ String.ofList [(c.toNat / 16).digitChar, (c.toNat % 16).digitChar]
    else c.toString

/-- The verb `%q`. -/
def quote (s : String) : String := "\"" ++ String.join (s.toList.map quoteChar) ++ "\""

/-- The loop of `ValidateProvider` from endpoint `i` on, when the ids `seen` were before it. -/
def validateEndpoints (name : String) :
    Nat → List String → List ProviderEndpoint → Except String Unit
  | _, _, [] => .ok ()
  | i, seen, ep :: eps =>
    if ep.adapter ≠ "openai" ∧ ep.adapter ≠ "claude" then
      .error ("provider " ++ quote name ++ " endpoint[" ++ toString i ++ "]: unknown adapter " ++
        quote ep.adapter)
    else if ep.baseURL = "" then
      .error ("provider " ++ quote name ++ " endpoint[" ++ toString i ++ "]: base_url is required")
    else if ep.endpointID ∈ seen then
      .error ("provider " ++ quote name ++ ": duplicate endpoint id " ++ quote ep.endpointID ++
        " (give each endpoint sharing an adapter an explicit id)")
    else validateEndpoints name (i + 1) (ep.endpointID :: seen) eps

/-- **`ValidateProvider`**: the first violation. -/
def validateProvider (name : String) (endpoints : List ProviderEndpoint) : Except String Unit :=
  if endpoints = [] then
    .error ("provider " ++ quote name ++ ": at least one endpoint is required")
  else validateEndpoints name 0 [] endpoints

end Config
end Voxeltoad
