import Mathlib.Data.List.Sort
import Mathlib.Data.String.Basic
import Voxeltoad.Admin.Response
import Voxeltoad.Config.Rollback

/-!
# The configuration endpoints

`internal/admin/crud_provider.go`, `crud_model.go`, `crud_route.go`, `crud_plugin.go`,
`gateway_settings.go` and `config_history.go`.  The tables refer to each other only by names inside
JSON documents, so what the database would check is checked here: an upstream of a model must be a
provider, a provider of a route must be an upstream of its model, and what is referred to is not
deleted.

The checks are the same for `POST` and `PATCH`, which first merges the patch into the row.  The
paged lists of models, routes and plugins are not modelled.  `nonce` is the random nonce that a key
is encrypted with; the credential service may be missing.
-/

set_option autoImplicit false

namespace Voxeltoad
namespace Admin

open Response
open Config hiding Op

/-! ## Requests -/

/-- `providerRequest`. -/
structure ProviderRequest where
  provider : Config.Provider
  apiKey : String
  deriving DecidableEq, Repr

/-- The body of `PATCH …/credential`. -/
structure PatchCredential where
  apiKey : String
  apiKeyRef : String
  deriving DecidableEq, Repr

/-- A request to the configuration endpoints. -/
inductive ConfigCall where
  | postProvider (body : ProviderRequest) (nonce : List UInt8)
  | listProviders
  | patchProvider (name : String) (patch : ProviderPatch)
  | deleteProvider (name : String)
  | patchCredential (name : String) (body : PatchCredential) (nonce : List UInt8)
  | postModel (m : Config.Model)
  | patchModel (modelAlias : String) (patch : ModelPatch)
  | deleteModel (modelAlias : String)
  | postRoute (rt : Config.Route)
  | patchRoute (modelAlias : String) (patch : RoutePatch)
  | deleteRoute (modelAlias : String)
  | postPlugin (pc : PluginConfig)
  | getPlugin (name scope : String)
  | patchPlugin (name scope : String) (patch : PluginPatch)
  | deletePlugin (name scope : String)
  | getSettings
  | putSettings (s : GatewaySettings)
  | history (cursor : Option Nat) (limit : Int)
  | diff (fromVersion toVersion : Option Int)
  | version (version : Option Int)
  | rollback (version : Int)
  | preview (d : Config.Dynamic)
  deriving DecidableEq, Repr

/-- `ConfigDiff`, and the inline diff of a preview: for providers, models, routes and plugins the
keys that came and the keys that went. -/
structure ConfigDiff where
  added : List (List String)
  deleted : List (List String)
  deriving DecidableEq, Repr

/-- The payloads of the configuration endpoints. -/
inductive ConfigReply where
  | empty
  | provider (p : Config.Provider)
  | providers (data : List Config.Provider)
  | apiKeyRef (ref : String)
  | model (m : Config.Model)
  | route (rt : Config.Route)
  | plugin (pc : PluginConfig)
  | settings (s : GatewaySettings)
  | versions (data : List Nat) (next : Option Nat)
  | diff (fromVersion toVersion : Nat) (diff : ConfigDiff)
  | snapshot (d : Config.Dynamic)
  | preview (diff : ConfigDiff) (newResources deletedResources : Nat)
  /-- The `errors` of a preview. -/
  | errors (messages : List String)
  /-- `errBody`. -/
  | errBody (code message : String)
  deriving DecidableEq, Repr

/-! ## Providers -/

/-- `maskAPIKeyRef`. -/
def maskAPIKeyRef (ref : String) : String :=
  if dbProviderRefPrefix.toList <+: ref.toList then ref
  else
    match cutScheme ref with
    | some (scheme, _) => scheme ++ "://***"
    | none => if ref = "" then "" else "***"

/-- `maskedProvider`. -/
def maskedProvider (p : Config.Provider) : Config.Provider :=
  { p with apiKeyRef := maskAPIKeyRef p.apiKeyRef }

/-- The credential service, when it is configured: how it encrypts under a nonce. -/
abbrev Service := Option (List UInt8 → String → Credential)

variable (service : Service)

/-- `persistProviderCredential`.  Nothing is stored when no key was sent. -/
def persistProviderCredential (t : Tables) (name apiKey : String) (nonce : List UInt8) :
    Except String Tables :=
  if apiKey = "" then .ok t
  else
    match service with
    | none => .error "credential encryption service not configured"
    | some encrypt =>
      match t.upsertCredential name (encrypt nonce apiKey) with
      | none =>
        .error ("store credential: store: upsert credential for " ++ quote name ++ ": " ++
          (DbError.foreignKey "provider_credentials" "fk_provider_credentials_provider").text)
      | some t => .ok t

/-- **Provider `POST`.**  The provider is written before its credential. -/
def postProvider (body : ProviderRequest) (nonce : List UInt8) (t : Tables) :
    Response ConfigReply × Tables :=
  if body.provider.name = "" then (badRequest "provider name is required", t)
  else
    match validateProvider body.provider.name body.provider.endpoints with
    | .error msg => (badRequest msg, t)
    | .ok () =>
      let p : Config.Provider :=
        { body.provider with
          apiKeyRef :=
            effectiveAPIKeyRef body.provider.name body.apiKey body.provider.apiKeyRef }
      let t := t.upsertProvider p
      match persistProviderCredential service t p.name body.apiKey nonce with
      | .error msg => (.error .providerCreateFailed msg, t)
      | .ok t => (.ok 201 p.name (.provider (maskedProvider p)), t)

/-- **Provider `PATCH`.**  The answer is not masked. -/
def patchProvider (name : String) (patch : ProviderPatch) (t : Tables) :
    Response ConfigReply × Tables :=
  match patch.endpoints.elim (.ok ()) (validateProvider name) with
  | .error msg => (badRequest msg, t)
  | .ok () =>
    match t.patchProvider name patch with
    | none => (.error .providerNotFound "", t)
    | some (p, t) => (.ok 200 name (.provider p), t)

/-- The models whose upstreams name the provider. -/
def modelsReferring (t : Tables) (name : String) : List String :=
  ((t.models.filter fun m ↦ ∃ u ∈ m.upstreams, u.provider = name).map
    Config.Model.modelAlias).insertionSort (· ≤ ·)

/-- The routes whose providers name the provider. -/
def routesReferring (t : Tables) (name : String) : List String :=
  ((t.routes.filter fun rt ↦ ∃ rp ∈ rt.providers, rp.name = name).map
    Config.Route.modelAlias).insertionSort (· ≤ ·)

/-- **Provider `DELETE`.** -/
def deleteProvider (name : String) (t : Tables) : Response ConfigReply × Tables :=
  let refModels := modelsReferring t name
  let refRoutes := routesReferring t name
  if refModels ≠ [] ∨ refRoutes ≠ [] then
    (.error .providerDeleteFailed ("provider is referenced" ++
      (if refModels ≠ [] then " by model(s) " ++ String.intercalate ", " refModels else "") ++
      (if refRoutes ≠ [] then " by route(s) " ++ String.intercalate ", " refRoutes else "") ++
      "; delete or repoint them first"), t)
  else (.ok 204 name .empty, (t.deleteProvider name).deleteCredential name)

/-- **Provider `PATCH …/credential`.**  The credential is written before the provider. -/
def patchCredential (name : String) (body : PatchCredential) (nonce : List UInt8) (t : Tables) :
    Response ConfigReply × Tables :=
  if body.apiKey = "" ∧ body.apiKeyRef = "" then
    (badRequest "api_key or api_key_ref is required", t)
  else
    match persistProviderCredential service t name body.apiKey nonce with
    | .error msg => (.error .providerUpdateFailed msg, t)
    | .ok t =>
      let ref := effectiveAPIKeyRef name body.apiKey body.apiKeyRef
      match t.getProvider name with
      | none => (.error .providerNotFound "", t)
      | some p =>
        (.ok 200 name (.apiKeyRef (maskAPIKeyRef ref)),
          t.upsertProvider { p with apiKeyRef := ref })

/-! ## Models -/

/-- What a model of the alias with these upstreams would break: an upstream that is not a provider,
or a route whose provider is not an upstream. -/
def checkUpstreams (t : Tables) (modelAlias : String) (upstreams : List ModelUpstream) :
    Option String :=
  match upstreams.find? fun u ↦ u.provider ∉ t.providers.map Config.Provider.name with
  | some u => some ("model upstream references unknown provider " ++ u.provider)
  | none =>
    match (t.getRoute modelAlias).bind fun rt ↦
        rt.providers.find? fun rp ↦ rp.name ∉ upstreams.map ModelUpstream.provider with
    | some rp =>
      some ("updating model would orphan route " ++ modelAlias ++ ": provider " ++ rp.name ++
        " is in the route but not in the new upstreams")
    | none => none

/-- **Model `POST`.** -/
def postModel (m : Config.Model) (t : Tables) : Response ConfigReply × Tables :=
  if m.modelAlias = "" then (badRequest "model alias is required", t)
  else
    match checkUpstreams t m.modelAlias m.upstreams with
    | some msg => (badRequest msg, t)
    | none => (.ok 201 m.modelAlias (.model m), t.upsertModel m)

/-- **Model `PATCH`.** -/
def patchModel (modelAlias : String) (patch : ModelPatch) (t : Tables) :
    Response ConfigReply × Tables :=
  match t.getModel modelAlias with
  | none => (.error .modelNotFound "", t)
  | some current =>
    match checkUpstreams t modelAlias (patch.apply current).upstreams with
    | some msg => (badRequest msg, t)
    | none =>
      match t.patchModel modelAlias patch with
      | none => (.error .modelNotFound "", t)
      | some (m, t) => (.ok 200 modelAlias (.model m), t)

/-- **Model `DELETE`.** -/
def deleteModel (modelAlias : String) (t : Tables) : Response ConfigReply × Tables :=
  let refRoutes := (t.routes.filter fun rt ↦ rt.modelAlias = modelAlias).map Config.Route.modelAlias
  if refRoutes ≠ [] then
    (.error .modelDeleteFailed ("referenced by route(s) " ++ String.intercalate ", " refRoutes ++
      "; delete or repoint them first"), t)
  else (.ok 204 modelAlias .empty, t.deleteModel modelAlias)

/-! ## Routes -/

/-- What a route of the alias with this strategy and these providers would break. -/
def checkRoute (t : Tables) (modelAlias strategy : String) (providers : List RouteProvider) :
    Option String :=
  if strategy ∉ ["priority", "weighted", "round_robin", "session_affinity"] then
    some "route strategy must be one of priority, weighted, round_robin, session_affinity"
  else
    match providers.find? fun rp ↦ rp.name ∉ t.providers.map Config.Provider.name with
    | some rp => some ("route references unknown provider " ++ rp.name)
    | none =>
      match t.getModel modelAlias with
      | none => some ("route references unknown model " ++ modelAlias)
      | some m =>
        match providers.find? fun rp ↦ rp.name ∉ m.upstreams.map ModelUpstream.provider with
        | some rp =>
          some ("route provider " ++ rp.name ++ " is not an upstream of model " ++ modelAlias)
        | none => none

/-- **Route `POST`.** -/
def postRoute (rt : Config.Route) (t : Tables) : Response ConfigReply × Tables :=
  if rt.modelAlias = "" then (badRequest "route model_alias is required", t)
  else
    match checkRoute t rt.modelAlias rt.strategy rt.providers with
    | some msg => (badRequest msg, t)
    | none => (.ok 201 rt.modelAlias (.route rt), t.upsertRoute rt)

/-- **Route `PATCH`.** -/
def patchRoute (modelAlias : String) (patch : RoutePatch) (t : Tables) :
    Response ConfigReply × Tables :=
  match t.getRoute modelAlias with
  | none => (.error .routeNotFound "", t)
  | some current =>
    let merged := patch.apply current
    match checkRoute t modelAlias merged.strategy merged.providers with
    | some msg => (badRequest msg, t)
    | none =>
      match t.patchRoute modelAlias patch with
      | none => (.error .routeNotFound "", t)
      | some (rt, t) => (.ok 200 modelAlias (.route rt), t)

/-! ## Plugins and settings -/

/-- **Plugin `POST`.** -/
def postPlugin (pc : PluginConfig) (t : Tables) : Response ConfigReply × Tables :=
  if pc.name = "" then (badRequest "plugin name is required", t)
  else if pc.phase ∉ ["pre", "post"] then (badRequest "plugin phase must be one of pre, post", t)
  else (.ok 201 pc.name (.plugin pc), t.upsertPlugin pc)

/-- **Plugin `GET`**, by name. -/
def getPlugin (name scope : String) (t : Tables) : Response ConfigReply :=
  match t.getPlugin name scope with
  | none => .error .pluginNotFound ""
  | some pc => .ok 200 "" (.plugin pc)

/-- **Plugin `PATCH`.** -/
def patchPlugin (name scope : String) (patch : PluginPatch) (t : Tables) :
    Response ConfigReply × Tables :=
  if ∃ phase ∈ patch.phase, phase ∉ ["pre", "post"] then
    (badRequest "plugin phase must be one of pre, post", t)
  else
    match t.patchPlugin name scope patch with
    | none => (.error .pluginNotFound "", t)
    | some (pc, t) => (.ok 200 name (.plugin pc), t)

/-- **Settings `PUT`.** -/
def putSettings (s : GatewaySettings) (t : Tables) : Response ConfigReply × Tables :=
  let s := { s with trace := { s.trace with maxBodyKB := max s.trace.maxBodyKB 0 } }
  (.ok 200 "default" (.settings s), t.updateSettings s)

/-! ## History -/

/-- `ListSnapshots`. -/
def history (cursor : Option Nat) (limit : Int) (t : Tables) : Response ConfigReply :=
  let limit := if limit ≤ 0 ∨ 100 < limit then 50 else limit.toNat
  let versions := (t.snapshots.map SnapshotRow.version).filter fun v ↦ ∀ c ∈ cursor, v < c
  let rows := versions.insertionSort (· ≥ ·)
  let page := rows.take limit
  .ok 200 "" (.versions page (if limit < rows.length then page.getLast? else none))

/-- The keys of the four lists of resources. -/
def resourceKeys (d : Config.Dynamic) : List (List String) :=
  [d.providers.map Config.Provider.name, d.models.map Config.Model.modelAlias,
    d.routes.map Config.Route.modelAlias, d.plugins.map fun pc ↦ pc.name ++ "/" ++ pc.scope]

/-- The keys that are in the first and not in the second, list by list.  A Go map yields them in any
order. -/
def missingKeys (xs ys : List (List String)) : List (List String) :=
  List.zipWith (fun x y ↦ (x.filter (· ∉ y)).dedup) xs ys

/-- `Diff`, and `computeInlineDiff`. -/
def computeDiff (d d' : Config.Dynamic) : ConfigDiff :=
  ⟨missingKeys (resourceKeys d') (resourceKeys d), missingKeys (resourceKeys d) (resourceKeys d')⟩

/-- The diff endpoint.  A parameter that is not an integer is `none`. -/
def diffHandler (fromVersion toVersion : Option Int) (t : Tables) : Response ConfigReply :=
  match fromVersion.filter (0 < ·), toVersion.filter (0 < ·) with
  | none, _ => badRequest "from parameter is required (positive integer)"
  | some _, none => badRequest "to parameter is required (positive integer)"
  | some v, some v' =>
    match t.getSnapshot v.toNat, t.getSnapshot v'.toNat with
    | none, _ => internalErr ("source version " ++ toString v ++ " not found")
    | some _, none => internalErr ("target version " ++ toString v' ++ " not found")
    | some d, some d' => .ok 200 "" (.diff v.toNat v'.toNat (computeDiff d d'))

/-- The snapshot of a version, as it was saved. -/
def versionHandler (version : Option Int) (t : Tables) : Response ConfigReply :=
  match version with
  | none => badRequest "version must be an integer"
  | some v =>
    match (if v < 0 then none else t.getSnapshot v.toNat) with
    | none => .ok 404 "" (.errBody "version_not_found" "version not found")
    | some d => .ok 200 "" (.snapshot d)

/-- **The rollback endpoint.** -/
def rollbackHandler (version : Int) (t : Tables) : Response ConfigReply × Tables :=
  if version ≤ 0 then (badRequest "version is required (positive integer)", t)
  else
    match t.rollback version.toNat with
    | .error e => (internalErr e.text, t)
    | .ok t => (.ok 200 "" .empty, t)

/-- `validateDynamicConfig`. -/
def validateDynamicConfig (d : Config.Dynamic) : List String :=
  ((d.providers.filter fun p ↦ p.name = "").map fun _ ↦ "provider name is required") ++
    ((d.models.filter fun m ↦ m.modelAlias = "").map fun _ ↦ "model alias is required") ++
    ((d.routes.filter fun rt ↦ rt.modelAlias = "").map fun _ ↦ "route model_alias is required")

/-- **The preview endpoint.** -/
def previewHandler (d : Config.Dynamic) (t : Tables) : Response ConfigReply :=
  let errors := validateDynamicConfig d
  if errors ≠ [] then .ok 400 "" (.errors errors)
  else
    let diff := computeDiff (t.toContents.dynamic t.generation) d
    .ok 200 "" (.preview diff diff.added.flatten.length diff.deleted.flatten.length)

/-- The handler of a request. -/
def handleConfig : ConfigCall → Tables → Response ConfigReply × Tables
  | .postProvider body nonce, t => postProvider service body nonce t
  | .listProviders, t => (.ok 200 "" (.providers (t.providers.map maskedProvider)), t)
  | .patchProvider name patch, t => patchProvider name patch t
  | .deleteProvider name, t => deleteProvider name t
  | .patchCredential name body nonce, t => patchCredential service name body nonce t
  | .postModel m, t => postModel m t
  | .patchModel modelAlias patch, t => patchModel modelAlias patch t
  | .deleteModel modelAlias, t => deleteModel modelAlias t
  | .postRoute rt, t => postRoute rt t
  | .patchRoute modelAlias patch, t => patchRoute modelAlias patch t
  | .deleteRoute modelAlias, t => (.ok 204 modelAlias .empty, t.deleteRoute modelAlias)
  | .postPlugin pc, t => postPlugin pc t
  | .getPlugin name scope, t => (getPlugin name scope t, t)
  | .patchPlugin name scope patch, t => patchPlugin name scope patch t
  | .deletePlugin name scope, t => (.ok 204 name .empty, t.deletePlugin name scope)
  | .getSettings, t => (.ok 200 "" (.settings t.settings), t)
  | .putSettings s, t => putSettings s t
  | .history cursor limit, t => (history cursor limit t, t)
  | .diff v v', t => (diffHandler v v' t, t)
  | .version v, t => (versionHandler v t, t)
  | .rollback v, t => rollbackHandler v t
  | .preview d, t => (previewHandler d t, t)

end Admin
end Voxeltoad
