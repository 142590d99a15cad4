import Voxeltoad.Admin.Query
import Voxeltoad.Admin.Server
import Voxeltoad.Store.ApiKeys

/-!
# What a tenant administers

The API keys, groups and applications of a tenant: `mountTenantScoped` of
`internal/admin/tenant_handlers.go` and `mountApplications` of `application_handlers.go`, over
`TenantRepo` and `ApplicationRepo` of `internal/store`.  A repository is bound to the tenant of the
operator that asks, so every statement has that tenant in its conditions.

The keys are those of `Voxeltoad.Store.ApiKeys`.  A statement does not fail here unless a constraint
makes it; the identity columns and the plaintext of a new key are what chance adds to a request.
The constraints are the database's, and they are over the rows of all tenants: that of an id, and
that of a key's `key_id`.
-/

set_option autoImplicit false

namespace Voxeltoad
namespace Admin

open Response
open Keys (Resource ApiKey APIKeyIdentity APIKeySpec APIKeyUpdate KeyError)

/-! ## Tables -/

/-- A row of `applications`. -/
structure ApplicationRow extends Resource where
  ownerGroupID : Int
  deriving DecidableEq, Repr

/-- The tables of `TenantRepo` and `ApplicationRepo`.  Of `tenants`, this is the column that is not
in `TenantRow`. -/
structure Directory where
  tenants : List Keys.Tenant
  groups : List Resource
  applications : List ApplicationRow
  apiKeys : List ApiKey
  deriving DecidableEq, Repr

/-- `Application`: a row with the name of the group that owns it. -/
structure Application where
  id : Int
  name : String
  ownerGroupID : Int
  ownerGroupName : String
  enabled : Bool
  deriving DecidableEq, Repr

/-- `APIKeyInfo`. -/
structure APIKeyInfo where
  keyID : String
  allowedModels : List String
  groupID : Option Int
  applicationID : Option Int
  environment : String
  deriving DecidableEq, Repr

def APIKeyInfo.ofKey (k : ApiKey) : APIKeyInfo :=
  ⟨k.keyID, k.allowedModels, k.groupID, k.applicationID, k.environment⟩

namespace Directory

variable (d : Directory)

/-- The tables that `Voxeltoad.Store.ApiKeys` is about. -/
def registry : Keys.Registry :=
  ⟨d.tenants, d.groups, d.applications.map ApplicationRow.toResource, d.apiKeys⟩

/-- `JOIN groups g ON g.id = a.owner_group_id`. -/
def join (a : ApplicationRow) : Option Application :=
  (d.groups.find? fun g ↦ g.id = a.ownerGroupID).map fun g ↦
  ⟨a.id, a.name, a.ownerGroupID, g.name, a.enabled⟩

/-- `ApplicationRepo.Get`. -/
def application (tenantID : Int) (name : String) : Option Application :=
  (d.applications.find? fun a ↦ a.tenantID = tenantID ∧ a.name = name).bind d.join

/-- The rows of a tenant that have some name. -/
def named (tenantID : Int) (name : String) (r : Resource) : Prop :=
  r.tenantID = tenantID ∧ r.name = name

instance (tenantID : Int) (name : String) (r : Resource) : Decidable (named tenantID name r) :=
  inferInstanceAs (Decidable (_ ∧ _))

/-- `GroupReferencedByAPIKeys`. -/
def groupReferencedByAPIKeys (tenantID : Int) (name : String) : List String :=
  (d.apiKeys.filter fun k ↦ k.tenantID = tenantID ∧
    ∃ g ∈ d.groups, named tenantID name g ∧ k.groupID = some g.id).map ApiKey.keyID

/-- `GroupReferencedByApplications`: `ORDER BY a.id`. -/
def groupReferencedByApplications (tenantID : Int) (name : String) : List String :=
  (Rank.sortBy (fun a : ApplicationRow ↦ a.id)
    (d.applications.filter fun a ↦ a.tenantID = tenantID ∧
    ∃ g ∈ d.groups, named tenantID name g ∧ a.ownerGroupID = g.id)).map fun a ↦ a.name

/-- `ApplicationReferencedByAPIKeys`. -/
def applicationReferencedByAPIKeys (tenantID : Int) (name : String) : List String :=
  (d.apiKeys.filter fun k ↦ k.tenantID = tenantID ∧
    ∃ a ∈ d.applications, named tenantID name a.toResource ∧
    k.applicationID = some a.id).map ApiKey.keyID

end Directory

/-! ## Requests -/

/-- A field of a body that is decoded by hand: it may be absent, or not parse. -/
abbrev RawField (α : Type) := Option (Option α)

/-- `POST /api-keys`.  A slice may be nil. -/
structure PostAPIKey where
  keyID : String
  allowedModels : Option (List String)
  groupID : Option Int
  applicationID : Option Int
  environment : String
  deriving DecidableEq, Repr

/-- `PATCH /api-keys/:key_id`. -/
structure PatchAPIKey where
  allowedModels : RawField (List String)
  groupID : RawField Int
  applicationID : RawField Int
  environment : RawField String
  deriving DecidableEq, Repr

/-- A mutation of a tenant's resources.  `id` and `plaintext` are what chance adds. -/
inductive TenantWrite where
  | postAPIKey (body : PostAPIKey) (id : Int) (plaintext : String)
  | patchAPIKey (keyID : String) (body : PatchAPIKey)
  | deleteAPIKey (keyID : String)
  | postGroup (name : String) (id : Int)
  | patchGroup (name : String) (enabled : Option Bool)
  | deleteGroup (name : String)
  | postApplication (name ownerGroup : String) (id : Int)
  | patchApplication (name : String) (enabled : Option Bool)
  | deleteApplication (name : String)
  deriving DecidableEq, Repr

/-- What a mutation is answered with. -/
inductive TenantReply where
  | empty
  | apiKey (keyID plaintext : String) (groupID applicationID : Option Int) (environment : String)
  | group (id : Int) (name : String) (enabled : Bool)
  | groupEnabled (name : String) (enabled : Bool)
  | application (app : Application)
  deriving DecidableEq, Repr

/-- The permission that a mutation requires. -/
def TenantWrite.permission : TenantWrite → String
  | .postAPIKey _ _ _ | .patchAPIKey _ _ | .deleteAPIKey _ => "api_key.write"
  | .postGroup _ _ | .patchGroup _ _ | .deleteGroup _ => "group.write"
  | .postApplication _ _ _ | .patchApplication _ _ | .deleteApplication _ => "application.write"

/-- The texts of `ErrInvalidAPIKeyIdentity` and `ErrAPIKeyIdentityImmutable`. -/
def keyErrorText : KeyError → String
  | .invalidIdentity =>
    "group_id, application_id and environment must identify enabled resources in this tenant"
  | .identityImmutable =>
    "existing API key governance identity cannot be changed; issue a new key instead"
  | .database => "database"

/-! ## Handlers -/

section Handlers

variable (hash : String → String) (aliases : List String) (tenantID : Int) (d : Directory)

/-- The constraint that a new group or application violates. -/
def rowConstraint (table : String) (id : Int) (rows : List Resource) : DbError :=
  .unique (if rows.any fun r ↦ r.id = id then table ++ "_pkey" else table ++ "_tenant_id_name_key")

/-- The constraint that a new key violates. -/
def keyConstraint (id : Int) (keyID : String) (keys : List ApiKey) : DbError :=
  .unique (if keys.any fun k ↦ k.id = id then "api_keys_pkey"
    else if keys.any fun k ↦ k.keyID = keyID then "api_keys_key_id_key" else "api_keys_hash_key")

/-- A model that is asked for and does not exist. -/
def unknownModel (models : List String) : Option String := models.find? (· ∉ aliases)

/-- `POST /api-keys`. -/
def postAPIKey (body : PostAPIKey) (id : Int) (plaintext : String) :
    Response TenantReply × Directory :=
  if body.keyID = "" then (badRequest "key_id is required", d)
  else
    match unknownModel aliases (body.allowedModels.getD []) with
    | some m => (badRequest ("unknown model in allowed_models: " ++ m), d)
    | none =>
      let spec : APIKeySpec :=
        ⟨body.keyID, hash plaintext, body.groupID, body.allowedModels, body.applicationID,
          body.environment⟩
      match Keys.createEnterpriseAPIKey (fun _ ↦ false) tenantID id spec d.registry with
      | .error .database =>
        (badRequest ("api_key create rejected: " ++ (keyConstraint id body.keyID d.apiKeys).text),
          d)
      | .error e => (badRequest (keyErrorText e), d)
      | .ok db =>
        (.ok 201 body.keyID
          (.apiKey body.keyID plaintext body.groupID body.applicationID body.environment),
          { d with apiKeys := db.apiKeys })

/-- The identity in the body of `PATCH /api-keys/:key_id`: all of its fields, or none. -/
def PatchAPIKey.identity (body : PatchAPIKey) : Except String (Option APIKeyIdentity) :=
  match body.groupID, body.applicationID, body.environment with
  | none, none, none => .ok none
  | some (some groupID), some (some applicationID), some (some environment) =>
    .ok (some ⟨groupID, applicationID, environment⟩)
  | _, _, _ => .error "group_id, application_id and environment must be supplied together"

/-- The models in it: some, if the field is there. -/
def PatchAPIKey.models (body : PatchAPIKey) : Except String (Option (List String)) :=
  match body.allowedModels with
  | none => .ok none
  | some (some (m :: ms)) => .ok (some (m :: ms))
  | some _ => .error "allowed_models must be a non-empty array"

/-- `PATCH /api-keys/:key_id`. -/
def patchAPIKey (keyID : String) (body : PatchAPIKey) : Response TenantReply × Directory :=
  match body.identity, body.models with
  | .error msg, _ => (badRequest msg, d)
  | .ok _, .error msg => (badRequest msg, d)
  | .ok identity, .ok models =>
    if identity = none ∧ models = none then
      (badRequest "allowed_models or a complete governance identity is required", d)
    else
      match unknownModel aliases (models.getD []) with
      | some m => (badRequest ("unknown model in allowed_models: " ++ m), d)
      | none =>
        match Keys.updateAPIKey (fun _ ↦ false) tenantID keyID
            ⟨models.map some, identity⟩ d.registry with
        | .error .database => (internalErr (keyErrorText .database), d)
        | .error e => (badRequest (keyErrorText e), d)
        | .ok (false, _) => (.error .apiKeyNotFoundInTenant "", d)
        | .ok (true, db) => (.ok 204 keyID .empty, { d with apiKeys := db.apiKeys })

/-- `DELETE /api-keys/:key_id`: a key of this tenant that is not revoked yet. -/
def deleteAPIKey (keyID : String) : Response TenantReply × Directory :=
  match Keys.revokeAPIKey (fun _ ↦ false) tenantID keyID d.registry with
  | .error e => (internalErr (keyErrorText e), d)
  | .ok db =>
    if d.apiKeys.any fun k ↦ k.keyID = keyID ∧ k.tenantID = tenantID ∧ k.revoked = false then
      (.ok 204 keyID .empty, { d with apiKeys := db.apiKeys })
    else (.error .apiKeyNotFoundInTenant "", d)

/-- `POST /groups`. -/
def postGroup (name : String) (id : Int) : Response TenantReply × Directory :=
  if name = "" then (badRequest "group name is required", d)
  else
    match Keys.createResource tenantID id name d.groups with
    | .error _ =>
        (badRequest ("group create rejected: " ++ (rowConstraint "groups" id d.groups).text), d)
    | .ok groups => (.ok 201 name (.group id name true), { d with groups := groups })

/-- `PATCH /groups/:name`. -/
def patchGroup (name : String) (enabled : Option Bool) : Response TenantReply × Directory :=
  match enabled with
  | none => (badRequest "enabled is required", d)
  | some enabled =>
    if d.groups.any fun g ↦ Directory.named tenantID name g then
      (.ok 200 name (.groupEnabled name enabled),
        { d with groups := Keys.setEnabled tenantID name enabled d.groups })
    else (.error .groupNotFound "", d)

/-- `DELETE /groups/:name`.  The foreign keys refuse to delete a group that is still referred to. -/
def deleteGroup (name : String) : Response TenantReply × Directory :=
  if d.groupReferencedByAPIKeys tenantID name ≠ [] then
    (.error .groupReferenced
      ("api_key(s) " ++ ", ".intercalate (d.groupReferencedByAPIKeys tenantID name) ++
      " retain this group; disable the group instead"), d)
  else if d.groupReferencedByApplications tenantID name ≠ [] then
    (.error .groupReferenced
      ("application(s) " ++ ", ".intercalate (d.groupReferencedByApplications tenantID name)), d)
  else if d.groups.any fun g ↦ Directory.named tenantID name g && d.applications.any fun a ↦
    a.ownerGroupID = g.id then (.error .groupReferenced "", d)
  else
    match Keys.deleteResource tenantID name ApiKey.groupID d.apiKeys d.groups with
    | .error _ => (.error .groupReferenced "", d)
    | .ok groups =>
      if d.groups.any fun g ↦ Directory.named tenantID name g then (.ok 204 name .empty,
        { d with groups := groups })
      else (.error .groupNotFound "", d)

/-- `POST /applications`: the group that owns it is found by its name, in the tenant. -/
def postApplication (name ownerGroup : String) (id : Int) : Response TenantReply × Directory :=
  if name = "" then (.error .applicationNameRequired "", d)
  else if ownerGroup = "" then (.error .applicationOwnerRequired "", d)
  else
    match d.groups.find? fun g ↦ Directory.named tenantID ownerGroup g with
    | none => (internalErr (DbError.notNull "owner_group_id" "applications").text, d)
    | some g =>
      if d.applications.any fun a ↦ a.id = id || (a.tenantID = tenantID && a.name = name) then
        (badRequest ("application create rejected: " ++
          (rowConstraint "applications" id (d.applications.map ApplicationRow.toResource)).text), d)
      else
        let d' := { d with applications := d.applications ++ [⟨⟨id, tenantID, name, true⟩, g.id⟩] }
        match d'.application tenantID name with
        | none => (internalErr "application created but not found: %!w(<nil>)", d')
        | some app => (.ok 201 name (.application app), d')

/-- `SetEnabled`. -/
def setApplicationEnabled (name : String) (enabled : Bool) : Directory :=
  { d with applications := d.applications.map fun a ↦
    if Directory.named tenantID name a.toResource then { a with enabled := enabled } else a }

/-- `PATCH /applications/:name`. -/
def patchApplication (name : String) (enabled : Option Bool) : Response TenantReply × Directory :=
  match enabled with
  | none => (badRequest "enabled is required", d)
  | some enabled =>
    if d.applications.any fun a ↦ Directory.named tenantID name a.toResource then
      let d' := setApplicationEnabled tenantID d name enabled
      match d'.application tenantID name with
      | none => (.error .applicationNotFound "", d')
      | some app => (.ok 200 name (.application app), d')
    else (.error .applicationNotFound "", d)

/-- `DELETE /applications/:name`. -/
def deleteApplication (name : String) : Response TenantReply × Directory :=
  if d.applicationReferencedByAPIKeys tenantID name ≠ [] then
    (.error .applicationReferenced ("api_key(s) " ++
      ", ".intercalate (d.applicationReferencedByAPIKeys tenantID name) ++
      " retain this application; disable the application instead"), d)
  else if d.applications.any fun a ↦ Directory.named tenantID name a.toResource &&
      d.apiKeys.any fun k ↦ k.applicationID = some a.id then
    (.error .applicationReferenced "", d)
  else if d.applications.any fun a ↦ Directory.named tenantID name a.toResource then
    (.ok 204 name .empty,
      { d with
        applications :=
          d.applications.filter fun a ↦ ¬(Directory.named tenantID name a.toResource) })
  else (.error .applicationNotFound "", d)

/-- The handler of a mutation, over the repository of a tenant. -/
def handleWrite : TenantWrite → Response TenantReply × Directory
  | .postAPIKey body id plaintext => postAPIKey hash aliases tenantID d body id plaintext
  | .patchAPIKey keyID body => patchAPIKey aliases tenantID d keyID body
  | .deleteAPIKey keyID => deleteAPIKey tenantID d keyID
  | .postGroup name id => postGroup tenantID d name id
  | .patchGroup name enabled => patchGroup tenantID d name enabled
  | .deleteGroup name => deleteGroup tenantID d name
  | .postApplication name ownerGroup id => postApplication tenantID d name ownerGroup id
  | .patchApplication name enabled => patchApplication tenantID d name enabled
  | .deleteApplication name => deleteApplication tenantID d name

end Handlers

/-! ## Gates -/

/-- `requireTenantAdmin`: an operator of a tenant that holds a permission of the tenant's resources.
The wildcard is none of them. -/
def TenantAdmin (op : Operator) : Prop :=
  op.tenantID.isSome ∧
  ∃ p ∈ ["api_key.read", "api_key.write", "group.read", "group.write", "application.read",
    "application.write"], p ∈ op.permissions

instance (op : Operator) : Decidable (TenantAdmin op) := inferInstanceAs (Decidable (_ ∧ _))

/-- `requirePermission`. -/
def Permitted (op : Operator) (permission : String) : Prop :=
  permission ∈ op.permissions ∨ wildcard ∈ op.permissions

instance (op : Operator) (permission : String) : Decidable (Permitted op permission) :=
  inferInstanceAs (Decidable (_ ∨ _))

/-- A request to the tenant's resources, behind its gates.  The tenant is that of the operator. -/
def gated {α β : Type} (op : Operator) (permission : String) (refused : Response β → α)
    (handler : Int → α) : α :=
  match op.tenantID with
  | none => refused (.error .tenantAdminRequired "")
  | some tenantID =>
    if ¬ TenantAdmin op then refused (.error .tenantAdminRequired "")
    else if ¬ Permitted op permission then refused (.error .permissionDenied "")
    else handler tenantID

end Admin
end Voxeltoad
