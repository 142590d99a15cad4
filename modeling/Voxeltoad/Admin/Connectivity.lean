import Mathlib.Data.List.DropRight
import Voxeltoad.Admin.Config

/-!
# Connectivity tests

`internal/admin/provider_conn.go`.  A test resolves a key, of a stored provider or of one that is
not saved yet, and probes the upstream with it.  A test that fails is a result and not an error of
the API, so both endpoints answer 200; nothing is written, and nothing is audited.

An upstream is what it makes of a probe, and the probe has the key.  On the admin plane no `db`
scheme is registered: the stored credential is read by the handler itself.
-/

set_option autoImplicit false

namespace Voxeltoad
namespace Admin

open Response
open Config hiding Op

/-- `providerConnResult`. -/
structure ConnResult where
  ok : Bool
  latencyMs : Int
  status : Nat
  error : String
  deriving DecidableEq, Repr

/-- `providerConnRequest`. -/
structure ConnRequest where
  name : String
  adapter : String
  baseURL : String
  apiKey : String
  apiKeyRef : String
  deriving DecidableEq, Repr

/-- The request that is sent to the upstream. -/
structure ProbeRequest where
  url : String
  header : List (String × String)
  deriving DecidableEq, Repr

/-- What comes of it. -/
inductive Probe where
  /-- The URL does not parse, or has no scheme or host. -/
  | invalidURL
  | unreachable (latencyMs : Int) (err : String)
  /-- `snippet` is the beginning of the body, without the spaces around it. -/
  | answered (latencyMs : Int) (status : Nat) (snippet : String)
  deriving DecidableEq, Repr

/-- `bodySnippet`. -/
def bodySnippet (snippet : String) : String := if snippet = "" then "" else ": " ++ snippet

/-- What an upstream makes of a probe. -/
def Upstream : Type := ProbeRequest → Probe

/-- `GET {baseURL}/models`, with the key where the adapter has it. -/
def probeRequest (adapter baseURL apiKey : String) : ProbeRequest where
  url := String.ofList (baseURL.toList.rdropWhile (· = '/')) ++ "/models"
  header :=
    if apiKey = "" then []
    else if adapter = "claude" then [("x-api-key", apiKey), ("anthropic-version", "2023-06-01")]
    else [("Authorization", "Bearer " ++ apiKey)]

/-- An upstream that answers is reachable, unless it refuses the key or is broken. -/
def Probe.result : Probe → ConnResult
  | .invalidURL => ⟨false, 0, 0, "invalid base_url"⟩
  | .unreachable latency err => ⟨false, latency, 0, "unreachable: " ++ err⟩
  | .answered latency status snippet =>
    if status = 401 ∨ status = 403 then
      ⟨false, latency, status,
        "authentication failed (upstream returned " ++ toString status ++ ")" ++
          bodySnippet snippet⟩
    else if 500 ≤ status then
      ⟨false, latency, status,
        "upstream server error (" ++ toString status ++ ")" ++ bodySnippet snippet⟩
    else ⟨true, latency, status, ""⟩

/-- **`probeProvider`.** -/
def probeProvider (upstream : Upstream) (adapter baseURL apiKey : String) : ConnResult :=
  (upstream (probeRequest adapter baseURL apiKey)).result

/-- The result of a test whose key does not resolve. -/
def unresolved (msg : String) : ConnResult := ⟨false, 0, 0, "resolve credential: " ++ msg⟩

variable (env : String → Option String) (service : Service)
  (decrypt : Credential → Except String String)

/-- `ResolveSecret`, with the schemes of the admin plane. -/
def resolveRef (ref : String) : Except String String :=
  if ref = "" then .error "config: empty api_key_ref"
  else
    match cutScheme ref with
    | none => .ok ref
    | some ("env", varName) =>
      match env varName with
      | none =>
        .error ("config: env var " ++ quote varName ++ " referenced by api_key_ref is not set")
      | some v => .ok v
    | some ("plain", s) => .ok s
    | some (scheme, _) =>
      .error ("config: unknown secret scheme " ++ quote scheme ++ " in api_key_ref")

/-- `resolveProviderKey`. -/
def resolveProviderKey (t : Tables) (name ref : String) : Except String String :=
  if ref = "" then .ok ""
  else if dbProviderRefPrefix.toList <+: ref.toList then
    match service with
    | none => .error "credential store not configured"
    | some _ =>
      match t.getCredential name with
      | none => .error ("stored credential for provider " ++ quote name ++ " not found")
      | some cred => decrypt cred
  else resolveRef env ref

/-- `isMaskedRef`. -/
def IsMaskedRef (ref : String) : Prop := ref = "***" ∨ "://***".toList <:+ ref.toList

instance (ref : String) : Decidable (IsMaskedRef ref) := inferInstanceAs (Decidable (_ ∨ _))

/-- The last resort of `resolveConnRequestKey`: the provider that the request names, if it is
stored. -/
def storedKey (t : Tables) (name : String) : Except String String :=
  if name = "" then .ok ""
  else
    match t.getProvider name with
    | none => .ok ""
    | some p => resolveProviderKey env service decrypt t p.name p.apiKeyRef

/-- `resolveConnRequestKey`: the key that was sent, or what its reference resolves to, or the stored
one. -/
def resolveConnRequestKey (t : Tables) (req : ConnRequest) : Except String String :=
  if req.apiKey ≠ "" then .ok req.apiKey
  else
    let ref := if IsMaskedRef req.apiKeyRef then "" else req.apiKeyRef
    if ref ≠ "" then
      match resolveRef env ref with
      | .ok key => .ok key
      | .error msg =>
        if req.name = "" then .error msg else storedKey env service decrypt t req.name
    else storedKey env service decrypt t req.name

/-- **`POST /providers/:name/test`.** -/
def testProvider (name : String) (upstream : Upstream) (t : Tables) : Response ConnResult :=
  match t.getProvider name with
  | none => .error .providerNotFound ""
  | some p =>
    match resolveProviderKey env service decrypt t p.name p.apiKeyRef with
    | .error msg => .ok 200 "" (unresolved msg)
    | .ok key =>
      match p.endpoints with
      | [] => .ok 200 "" ⟨false, 0, 0, "provider has no endpoints"⟩
      | primary :: _ => .ok 200 "" (probeProvider upstream primary.adapter primary.baseURL key)

/-- **`POST /provider-tests`.** -/
def testConn (req : ConnRequest) (upstream : Upstream) (t : Tables) : Response ConnResult :=
  if req.adapter ∉ ["openai", "claude"] then badRequest ("unknown adapter: " ++ req.adapter)
  else if req.baseURL = "" then badRequest "base_url is required"
  else
    match resolveConnRequestKey env service decrypt t req with
    | .error msg => .ok 200 "" (unresolved msg)
    | .ok key => .ok 200 "" (probeProvider upstream req.adapter req.baseURL key)

end Admin
end Voxeltoad
