import Mathlib.Data.List.Basic

/-!
# Answers of the admin API

`internal/apperr` and the envelope helpers of `internal/admin/server.go` and `crud.go`.  A handler
answers with a payload or with an error of the catalogue, to which it may append what went wrong.
`DbError` is a statement that PostgreSQL refuses because of a constraint.
-/

set_option autoImplicit false

namespace Voxeltoad
namespace Admin

/-- `apperr.Error`. -/
structure AppErr where
  code : String
  status : Nat
  i18n : String
  deriving DecidableEq, Repr

namespace AppErr

def unexpected : AppErr := ⟨"unexpected", 500, "errors.common.unexpected"⟩
def invalidBody : AppErr := ⟨"invalid_body", 400, "errors.common.invalidBody"⟩
def invalidCredentials : AppErr :=
  ⟨"invalid_credentials", 401, "errors.auth.invalidCredentials"⟩
def tooManyLogins : AppErr := ⟨"too_many_logins", 429, "errors.auth.tooManyLogins"⟩
def missingBearerToken : AppErr :=
  ⟨"missing_bearer_token", 401, "errors.auth.missingBearerToken"⟩
def invalidSession : AppErr := ⟨"invalid_session", 401, "errors.auth.invalidSession"⟩
def superAdminRequired : AppErr :=
  ⟨"super_admin_required", 403, "errors.auth.superAdminRequired"⟩
def unknownOperatorRole : AppErr :=
  ⟨"unknown_operator_role", 403, "errors.auth.unknownOperatorRole"⟩
def tenantNotFound : AppErr := ⟨"tenant_not_found", 404, "errors.tenant.tenantNotFound"⟩
def lastSuperAdmin : AppErr := ⟨"last_super_admin", 409, "errors.tenant.lastSuperAdmin"⟩
def operatorNotFound : AppErr :=
  ⟨"operator_not_found", 404, "errors.operator.operatorNotFound"⟩
def roleNotFound : AppErr := ⟨"role_not_found", 404, "errors.roles.roleNotFound"⟩
def providerNotFound : AppErr := ⟨"provider_not_found", 404, "errors.provider.notFound"⟩
def providerCreateFailed : AppErr :=
  ⟨"provider_create_failed", 400, "errors.provider.createFailed"⟩
def providerDeleteFailed : AppErr :=
  ⟨"provider_delete_failed", 409, "errors.provider.deleteFailed"⟩
def providerUpdateFailed : AppErr :=
  ⟨"provider_update_failed", 400, "errors.provider.updateFailed"⟩
def modelNotFound : AppErr := ⟨"model_not_found", 404, "errors.model.notFound"⟩
def modelDeleteFailed : AppErr := ⟨"model_delete_failed", 409, "errors.model.deleteFailed"⟩
def routeNotFound : AppErr := ⟨"route_not_found", 404, "errors.route.notFound"⟩
def pluginNotFound : AppErr := ⟨"plugin_not_found", 404, "errors.plugin.pluginNotFound"⟩

def tenantAdminRequired : AppErr :=
  ⟨"tenant_admin_required", 403, "errors.auth.tenantAdminRequired"⟩
def permissionDenied : AppErr := ⟨"permission_denied", 403, "errors.auth.permissionDenied"⟩
def scopeOutsideTenant : AppErr :=
  ⟨"scope_outside_tenant", 403, "errors.tenant.scopeOutsideTenant"⟩
def apiKeyNotFoundInTenant : AppErr :=
  ⟨"api_key_not_found_in_tenant", 404, "errors.tenant.apiKeyNotFoundInTenant"⟩
def groupNotFound : AppErr := ⟨"group_not_found", 404, "errors.tenant.groupNotFound"⟩
def groupReferenced : AppErr := ⟨"group_referenced", 409, "errors.tenant.groupReferenced"⟩
def applicationNotFound : AppErr :=
  ⟨"application_not_found", 404, "errors.application.applicationNotFound"⟩
def applicationReferenced : AppErr :=
  ⟨"application_referenced", 409, "errors.application.applicationReferenced"⟩
def applicationNameRequired : AppErr :=
  ⟨"application_name_required", 400, "errors.application.applicationNameRequired"⟩
def applicationOwnerRequired : AppErr :=
  ⟨"application_owner_required", 400, "errors.application.applicationOwnerRequired"⟩
def budgetInvalidPolicy : AppErr :=
  ⟨"budget_invalid_policy", 400, "errors.budget.invalidPolicy"⟩
def budgetInvalidQuery : AppErr := ⟨"budget_invalid_query", 400, "errors.budget.invalidQuery"⟩
def budgetTenantRequired : AppErr :=
  ⟨"budget_tenant_required", 400, "errors.budget.tenantRequired"⟩
def budgetTenantMismatch : AppErr :=
  ⟨"budget_tenant_mismatch", 403, "errors.budget.tenantMismatch"⟩
def budgetNotFound : AppErr := ⟨"budget_not_found", 404, "errors.budget.notFound"⟩
def invalidRequestBody : AppErr := ⟨"invalid_request_body", 400, "errors.proxy.invalidRequestBody"⟩
def modelNotPermitted : AppErr := ⟨"model_not_permitted", 403, "errors.proxy.modelNotPermitted"⟩
def streamingUnsupported : AppErr :=
  ⟨"streaming_unsupported", 500, "errors.proxy.streamingUnsupported"⟩
def unsupportedContent : AppErr := ⟨"unsupported_content", 400, "errors.proxy.unsupportedContent"⟩
/-- The envelope that `trace_handlers.go` writes itself. -/
def notFound (message : String) : AppErr := ⟨"not_found", 404, message⟩

end AppErr

/-- What a request is answered with.  `resourceID` is what a handler stashes for the audit row
(`setResourceID`), and is not sent. -/
inductive Response (β : Type) where
  | ok (status : Nat) (resourceID : String) (body : β)
  /-- `appErr`, or `appErrMsg` when the context is not empty. -/
  | error (e : AppErr) (context : String)
  deriving DecidableEq, Repr

namespace Response

variable {β : Type}

/-- `badRequest`. -/
def badRequest (msg : String) : Response β := .error .invalidBody msg

/-- `internalErr`. -/
def internalErr (msg : String) : Response β := .error .unexpected msg

def status : Response β → Nat
  | .ok status _ _ => status
  | .error e _ => e.status

/-- `resourceIDFrom`: what was stashed, if anything was. -/
def resourceID : Response β → String
  | .ok _ resourceID _ => resourceID
  | .error _ _ => ""

/-- A 2xx answer. -/
def Success (r : Response β) : Prop := 200 ≤ r.status ∧ r.status < 300

instance (r : Response β) : Decidable r.Success := inferInstanceAs (Decidable (_ ∧ _))

/-- The same answer with another payload. -/
def map {γ : Type} (f : β → γ) : Response β → Response γ
  | .ok status resourceID body => .ok status resourceID (f body)
  | .error e context => .error e context

theorem map_injective {γ : Type} {f : β → γ} (hf : f.Injective) :
    (map f : Response β → Response γ).Injective := by
  intro r r' h
  cases r with
  | ok status resourceID body =>
    cases r' with
    | ok status' resourceID' body' =>
      obtain ⟨rfl, rfl, hbody⟩ := Response.ok.inj h
      rw [hf hbody]
    | error e context => cases h
  | error e context =>
    cases r' with
    | ok status' resourceID' body' => cases h
    | error e' context' =>
      obtain ⟨rfl, rfl⟩ := Response.error.inj h
      rfl

@[simp] theorem status_map {γ : Type} (f : β → γ) (r : Response β) :
    (r.map f).status = r.status := by
  cases r <;> rfl

@[simp] theorem success_ok {status : Nat} {resourceID : String} {body : β} :
    (Response.ok status resourceID body).Success ↔ 200 ≤ status ∧ status < 300 := Iff.rfl

@[simp] theorem success_map {γ : Type} {f : β → γ} {r : Response β} :
    (r.map f).Success ↔ r.Success := by
  rw [Success, Success, status_map]

/-- The `message` of the error envelope. -/
def message (e : AppErr) (context : String) : String :=
  if context = "" then e.i18n else e.i18n ++ ": " ++ context

end Response

/-- A constraint a statement violates. -/
inductive DbError where
  | unique (constraint : String)
  | foreignKey (table constraint : String)
  | notNull (column table : String)
  deriving DecidableEq, Repr

/-- `err.Error()`. -/
def DbError.text : DbError → String
  | .unique c =>
    "ERROR: duplicate key value violates unique constraint \"" ++ c ++ "\" (SQLSTATE 23505)"
  | .foreignKey t c =>
    "ERROR: insert or update on table \"" ++ t ++ "\" violates foreign key constraint \"" ++ c ++
      "\" (SQLSTATE 23503)"
  | .notNull c t =>
    "ERROR: null value in column \"" ++ c ++ "\" of relation \"" ++ t ++
      "\" violates not-null constraint (SQLSTATE 23502)"

/-- `isConstraintViolation`: a client error rather than a server fault. -/
def DbError.isConstraintViolation : DbError → Bool
  | .unique _ | .foreignKey _ _ => true
  | .notNull _ _ => false

end Admin
end Voxeltoad
