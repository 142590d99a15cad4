import Voxeltoad.Admin.Response
import Voxeltoad.Lib.Loop
import Voxeltoad.Lib.Run
import Voxeltoad.Lib.Table
import Voxeltoad.Store.Schema

/-!
# Operators and roles

`internal/admin/operator_handlers.go` and `role_handlers.go`, over the repositories of
`internal/store/operator.go` and `role.go`.  An operator has a role twice: `role_id` refers to the
row its permissions and scope are loaded from, and `role` is a text that is kept from before there
were custom roles.  Creating an operator sets both, and updating one sets `role_id` alone.

`Db` is the tables these handlers touch, with what the schema enforces on a write.  A request is
served by whoever issues it (`serve`): the operator's permissions are loaded from its role, and the
handlers are behind `requireSuperAdmin`.  The hash of a password is a parameter.
-/

set_option autoImplicit false

namespace Voxeltoad
namespace Admin

open Response

/-! ## Tables -/

/-- `authz.ScopeKind`. -/
inductive ScopeKind where
  | global
  | tenant
  deriving DecidableEq, Repr

/-- `roles`. -/
structure RoleRow where
  id : Int
  name : String
  scopeKind : ScopeKind
  isBuiltin : Bool
  description : String
  deriving DecidableEq, Repr

/-- `role_permissions`. -/
structure PermissionRow where
  roleID : Int
  permission : String
  deriving DecidableEq, Repr

/-- `operators`. -/
structure OperatorRow where
  id : Int
  email : String
  passwordHash : String
  /-- The text from before there were custom roles. -/
  role : String
  roleID : Int
  /-- `NULL` for an operator that is not bound to a tenant. -/
  tenantID : Option Int
  deriving DecidableEq, Repr

/-- The identity tables. -/
structure Db where
  tenants : List TenantRow
  roles : List RoleRow
  permissions : List PermissionRow
  operators : List OperatorRow
  roleSeq : Int
  operatorSeq : Int
  deriving DecidableEq, Repr

/-- `RoleSuperAdmin`. -/
def superAdmin : String := "super-admin"

/-- `RoleTenantAdmin`. -/
def tenantAdmin : String := "tenant-admin"

/-- `authz.Wildcard`. -/
def wildcard : String := "*"

/-- `authz.AllPermissions`. -/
def allPermissions : List String :=
  ["provider.read", "provider.write", "model.read", "model.write", "route.read", "route.write",
    "plugin.read", "plugin.write", "tenant.read", "tenant.write", "operator.read",
    "operator.write", "quota.write", "budget.write", "budget.resolve", "config_history.read",
    "dataplane.read", "overview.read", "settings.read", "api_key.read", "api_key.write",
    "group.read", "group.write", "application.read", "application.write", "usage.read",
    "audit.read", "request_log.read", "quota.read", "budget.read", "password.write", "role.read",
    "role.write"]

namespace Db

/-- `RoleRepo.GetByID`. -/
def roleByID (db : Db) (id : Int) : Option RoleRow := Table.find RoleRow.id id db.roles

/-- `RoleRepo.GetByName`. -/
def roleByName (db : Db) (name : String) : Option RoleRow := Table.find RoleRow.name name db.roles

/-- `LoadPermissions`. -/
def permissionsOf (db : Db) (roleID : Int) : List String :=
  (db.permissions.filter fun p ↦ p.roleID = roleID).map PermissionRow.permission

/-- `operatorByID`. -/
def operatorByID (db : Db) (id : Int) : Option OperatorRow :=
  Table.find OperatorRow.id id db.operators

/-- `GetByEmail`. -/
def operatorByEmail (db : Db) (email : String) : Option OperatorRow :=
  Table.find OperatorRow.email email db.operators

/-- `CountByRole`, which goes by the text. -/
def countByRole (db : Db) (role : String) : Nat := db.operators.countP fun op ↦ op.role = role

/-- The operator's loaded permissions contain the wildcard. -/
def IsAdmin (db : Db) (op : OperatorRow) : Prop := wildcard ∈ db.permissionsOf op.roleID

instance (db : Db) (op : OperatorRow) : Decidable (db.IsAdmin op) :=
  inferInstanceAs (Decidable (_ ∈ _))

/-- The foreign key of a column that refers to `tenants`. -/
def HasTenant (db : Db) (tenantID : Option Int) : Prop :=
  ∀ t ∈ tenantID, ∃ row ∈ db.tenants, row.id = t

instance (db : Db) (tenantID : Option Int) : Decidable (db.HasTenant tenantID) :=
  inferInstanceAs (Decidable (∀ t ∈ tenantID, _))

end Db

/-! ## Statements -/

/-- `OperatorRepo.Create`: the role's id is looked up by its name. -/
def Db.createOperator (db : Db) (email passwordHash role : String) (tenantID : Option Int) :
    Except DbError (OperatorRow × Db) :=
  match db.roleByName role with
  | none => .error (.notNull "role_id" "operators")
  | some r =>
    if ∃ op ∈ db.operators, op.email = email then .error (.unique "operators_email_key")
    else if ¬ db.HasTenant tenantID then
      .error (.foreignKey "operators" "operators_tenant_id_fkey")
    else
      let row : OperatorRow := ⟨db.operatorSeq, email, passwordHash, role, r.id, tenantID⟩
      .ok (row,
        { db with operators := db.operators ++ [row], operatorSeq := db.operatorSeq + 1 })

/-- The row that the `UPDATE` of `OperatorRepo.Update` leaves: an empty text or a `nil` is not
set. -/
def OperatorRow.updated (op : OperatorRow) (email passwordHash : String)
    (roleID tenantID : Option Int) : OperatorRow :=
  { op with
    email := if email = "" then op.email else email
    passwordHash := if passwordHash = "" then op.passwordHash else passwordHash
    roleID := roleID.getD op.roleID
    tenantID := tenantID.or op.tenantID }

/-- `OperatorRepo.Update`.  The result says whether there was a row to update. -/
def Db.updateOperator (db : Db) (id : Int) (email passwordHash : String)
    (roleID tenantID : Option Int) : Except DbError (Bool × Db) :=
  match db.operatorByID id with
  | none => .ok (false, db)
  | some _ =>
    if email ≠ "" ∧ ∃ op ∈ db.operators, op.id ≠ id ∧ op.email = email then
      .error (.unique "operators_email_key")
    else if ∃ r ∈ roleID, db.roleByID r = none then
      .error (.foreignKey "operators" "fk_operator_role")
    else if ¬ db.HasTenant tenantID then
      .error (.foreignKey "operators" "operators_tenant_id_fkey")
    else
      .ok (true,
        { db with
          operators := Table.modify OperatorRow.id id
            (fun op ↦ op.updated email passwordHash roleID tenantID) db.operators })

/-- `OperatorRepo.Delete`. -/
def Db.deleteOperator (db : Db) (id : Int) : Db :=
  { db with operators := db.operators.filter fun op ↦ op.id ≠ id }

/-- The `INSERT`s of a permission set.  The pair is the primary key of `role_permissions`. -/
def insertPermissions (roleID : Int) (permissions : List String) (rows : List PermissionRow) :
    Except DbError (List PermissionRow) :=
  permissions.foldlM (fun rows p ↦
    if ⟨roleID, p⟩ ∈ rows then .error (.unique "role_permissions_pkey")
    else .ok (rows ++ [⟨roleID, p⟩])) rows

/-- `RoleRepo.Create`. -/
def Db.createRole (db : Db) (name : String) (scopeKind : ScopeKind) (description : String)
    (permissions : List String) : Except DbError (RoleRow × Db) :=
  if ∃ r ∈ db.roles, r.name = name then .error (.unique "roles_name_key")
  else do
    let row : RoleRow := ⟨db.roleSeq, name, scopeKind, false, description⟩
    let rows ← insertPermissions row.id permissions db.permissions
    return (row,
      { db with roles := db.roles ++ [row], roleSeq := db.roleSeq + 1, permissions := rows })

/-- `RoleRepo.UpdateDescription`, which skips built-in roles. -/
def Db.updateDescription (db : Db) (id : Int) (description : String) : Db :=
  { db with
    roles := Table.modify RoleRow.id id
      (fun r ↦ if r.isBuiltin then r else { r with description := description }) db.roles }

/-- `RoleRepo.UpdatePermissions`. -/
def Db.updatePermissions (db : Db) (id : Int) (permissions : List String) : Except DbError Db := do
  let rows ← insertPermissions id permissions (db.permissions.filter fun p ↦ p.roleID ≠ id)
  return { db with permissions := rows }

/-- The transaction of `RoleRepo.Delete`. -/
def Db.deleteRole (db : Db) (id : Int) : Db :=
  { db with
    permissions := db.permissions.filter fun p ↦ p.roleID ≠ id
    roles := db.roles.filter fun r ↦ ¬ (r.id = id ∧ r.isBuiltin = false) }

/-! ## Requests -/

/-- The body of operator `POST`. -/
structure CreateOperator where
  email : String
  password : String
  role : String
  roleID : Int
  tenantID : Option Int
  deriving DecidableEq, Repr

/-- The body of operator `PUT`. -/
structure PutOperator where
  email : String
  password : String
  roleID : Option Int
  tenantID : Option Int
  deriving DecidableEq, Repr

/-- The body of role `POST`. -/
structure CreateRole where
  name : String
  scopeKind : String
  description : String
  permissions : List String
  deriving DecidableEq, Repr

/-- The body of role `PATCH`.  `permissions` is `none` when the field is absent or `null`. -/
structure PatchRole where
  description : Option String
  permissions : Option (List String)
  deriving DecidableEq, Repr

/-- A request to the operator and role endpoints.  A path parameter that is not an `int64` is
`none`; `salt` is the random salt the password is hashed with. -/
inductive Call where
  | listOperators (after : Int) (limit : Nat)
  | postOperator (body : CreateOperator) (salt : String)
  | putOperator (id : Option Int) (body : PutOperator) (salt : String)
  | deleteOperator (id : Option Int)
  | listRoles
  | postRole (body : CreateRole)
  | patchRole (id : Option Int) (body : PatchRole)
  | deleteRole (id : Option Int)
  deriving DecidableEq, Repr

/-- `OperatorInfo`. -/
structure OperatorInfo where
  id : Int
  email : String
  role : String
  tenantID : Option Int
  deriving DecidableEq, Repr

def OperatorRow.info (op : OperatorRow) : OperatorInfo := ⟨op.id, op.email, op.role, op.tenantID⟩

/-- The payloads of these endpoints.  The cursor of a page is the id it encodes. -/
inductive Reply where
  | empty
  | operator (info : OperatorInfo)
  | operators (data : List OperatorInfo) (next : Option Int)
  | role (row : RoleRow) (permissions : List String)
  | roles (data : List (RoleRow × List String))
  deriving DecidableEq, Repr

/-! ## Handlers -/

variable (hashPassword : String → String → String)

/-- Which role a new operator gets: by `role_id`, or by one of the two names that were there first.
The scope of the role and the tenant have to agree. -/
def resolveRole (db : Db) (body : CreateOperator) : Except (Response Reply) String :=
  if 0 < body.roleID then
    match db.roleByID body.roleID with
    | none => .error (badRequest "role not found")
    | some r =>
      if r.scopeKind = .global ∧ body.tenantID ≠ none then
        .error (badRequest "global role must not have a tenant_id")
      else if r.scopeKind = .tenant ∧ body.tenantID = none then
        .error (badRequest "tenant role requires a tenant_id")
      else .ok r.name
  else if body.role = superAdmin then
    if body.tenantID ≠ none then .error (badRequest "super-admin must not have a tenant_id")
    else .ok body.role
  else if body.role = tenantAdmin then
    if body.tenantID = none then .error (badRequest "tenant-admin requires a tenant_id")
    else .ok body.role
  else if body.role ≠ "" then
    .error (badRequest
      "role must be super-admin or tenant-admin (or use role_id for custom roles)")
  else .error (badRequest "role or role_id is required")

/-- What a refused statement is answered with. -/
def refuse (what : String) (e : DbError) : Response Reply :=
  if e.isConstraintViolation then badRequest (what ++ " rejected: " ++ e.text)
  else internalErr e.text

/-- **Operator `POST`.** -/
def postOperator (body : CreateOperator) (salt : String) (db : Db) : Response Reply × Db :=
  if body.email = "" ∨ body.password = "" then
    (badRequest "email and password are required", db)
  else
    match resolveRole db body with
    | .error r => (r, db)
    | .ok role =>
      match db.createOperator body.email (hashPassword salt body.password) role body.tenantID with
      | .error e => (refuse "operator create" e, db)
      | .ok (row, db) => (.ok 201 body.email (.operator row.info), db)

/-- **Operator `GET`**, one page. -/
def listOperators (after : Int) (limit : Nat) (db : Db) : Response Reply :=
  let limit := if limit = 0 then 50 else limit
  let rows := ((db.operators.filter fun op ↦ after < op.id).insertionSort fun a b ↦ a.id ≤ b.id)
  let page := rows.take limit
  .ok 200 "" (.operators (page.map OperatorRow.info)
    (if limit < rows.length then page.getLast?.map OperatorRow.id else none))

/-- The guard of operator `DELETE`: the target is the only operator whose role text is
`super-admin`. -/
def LastSuperAdmin (db : Db) (op : OperatorRow) : Prop :=
  op.role = superAdmin ∧ db.countByRole superAdmin ≤ 1

instance (db : Db) (op : OperatorRow) : Decidable (LastSuperAdmin db op) :=
  inferInstanceAs (Decidable (_ ∧ _))

/-- **Operator `DELETE`.**  Its sessions go with it. -/
def deleteOperator (id : Option Int) (db : Db) : Response Reply × Db :=
  match id with
  | none => (badRequest "invalid operator id", db)
  | some id =>
    match db.operatorByID id with
    | none => (.error .operatorNotFound "", db)
    | some target =>
      if LastSuperAdmin db target then (.error .lastSuperAdmin "", db)
      else (.ok 204 target.email .empty, db.deleteOperator id)

/-- The checks of operator `PUT`, which are made only when a role is given.  An operator that does
not exist counts as one without a role and without a tenant. -/
def checkRole (db : Db) (id : Int) (roleID tenantID : Option Int) :
    Except (Response Reply) Unit :=
  match roleID with
  | none => .ok ()
  | some roleID =>
    match db.roleByID roleID with
    | none => .error (badRequest "role not found")
    | some r =>
      let target := db.operatorByID id
      let effectiveTenant := tenantID.or (target.bind OperatorRow.tenantID)
      if r.scopeKind = .global ∧ effectiveTenant ≠ none then
        .error (badRequest "global role must not have a tenant_id")
      else if r.scopeKind = .tenant ∧ effectiveTenant = none then
        .error (badRequest "tenant role requires a tenant_id")
      else if (∃ op ∈ target, LastSuperAdmin db op) ∧ r.name ≠ superAdmin then
        .error (badRequest "cannot change the last super-admin to a different role")
      else .ok ()

/-- **Operator `PUT`.** -/
def putOperator (id : Option Int) (body : PutOperator) (salt : String) (db : Db) :
    Response Reply × Db :=
  match id with
  | none => (badRequest "invalid operator id", db)
  | some id =>
    if body.email = "" ∧ body.password = "" ∧ body.roleID = none ∧ body.tenantID = none then
      (badRequest "at least one of email, password, role_id, or tenant_id must be provided", db)
    else
      match checkRole db id body.roleID body.tenantID with
      | .error r => (r, db)
      | .ok () =>
        let hash := if body.password = "" then "" else hashPassword salt body.password
        match db.updateOperator id body.email hash body.roleID body.tenantID with
        | .error e => (refuse "operator update" e, db)
        | .ok (false, db) => (.error .operatorNotFound "", db)
        | .ok (true, db) =>
          match db.operatorByID id with
          | none => (.error .operatorNotFound "", db)
          | some op => (.ok 200 body.email (.operator op.info), db)

/-- **Role `GET`.**  Built-in roles first, then by id. -/
def listRoles (db : Db) : Response Reply :=
  let rows := db.roles.insertionSort fun a b ↦
    (a.isBuiltin ∧ ¬ b.isBuiltin) ∨ (a.isBuiltin = b.isBuiltin ∧ a.id ≤ b.id)
  .ok 200 "" (.roles (rows.map fun r ↦ (r, db.permissionsOf r.id)))

/-- The first permission that is not in the catalogue. -/
def unknownPermission (permissions : List String) : Option String :=
  permissions.find? fun p ↦ p ∉ allPermissions ∧ p ≠ wildcard

/-- `scope_kind` as text. -/
def parseScopeKind : String → Option ScopeKind
  | "global" => some .global
  | "tenant" => some .tenant
  | _ => none

/-- **Role `POST`.** -/
def postRole (body : CreateRole) (db : Db) : Response Reply × Db :=
  if body.name = "" then (badRequest "name is required", db)
  else
    match parseScopeKind body.scopeKind with
    | none => (badRequest "scope_kind must be global or tenant", db)
    | some scopeKind =>
      match unknownPermission body.permissions with
      | some p => (badRequest ("unknown permission: " ++ p), db)
      | none =>
        if db.roleByName body.name ≠ none then (badRequest "role name already exists", db)
        else
          match db.createRole body.name scopeKind body.description body.permissions with
          | .error e => (internalErr e.text, db)
          | .ok (row, db) =>
            (.ok 201 (toString row.id) (.role row (db.permissionsOf row.id)), db)

/-- The end of role `PATCH`, which reads the role again. -/
def roleAnswer (id : Int) (db : Db) : Response Reply :=
  match db.roleByID id with
  | none => .error .roleNotFound ""
  | some r => .ok 200 (toString id) (.role r (db.permissionsOf id))

/-- The first write of role `PATCH`. -/
def Db.describeRole (db : Db) (id : Int) : Option String → Db
  | none => db
  | some description => db.updateDescription id description

/-- **Role `PATCH`.**  The description is written before the permissions are looked at. -/
def patchRole (id : Option Int) (body : PatchRole) (db : Db) : Response Reply × Db :=
  match id with
  | none => (badRequest "invalid role id", db)
  | some id =>
    match db.roleByID id with
    | none => (.error .roleNotFound "", db)
    | some _ =>
      let db := db.describeRole id body.description
      match body.permissions with
      | none => (roleAnswer id db, db)
      | some permissions =>
        match unknownPermission permissions with
        | some p => (badRequest ("unknown permission: " ++ p), db)
        | none =>
          match db.updatePermissions id permissions with
          | .error e => (internalErr e.text, db)
          | .ok db => (roleAnswer id db, db)

/-- **Role `DELETE`.** -/
def deleteRole (id : Option Int) (db : Db) : Response Reply × Db :=
  match id with
  | none => (badRequest "invalid role id", db)
  | some id =>
    match db.roleByID id with
    | none => (.error .roleNotFound "", db)
    | some r =>
      let refCount := db.operators.countP fun op ↦ op.roleID = id
      if r.isBuiltin then (badRequest "built-in role cannot be deleted", db)
      else if 0 < refCount then
        (badRequest ("role " ++ toString id ++ " is in use by " ++ toString refCount ++
          " operators"), db)
      else (.ok 204 (toString id) .empty, db.deleteRole id)

/-- The handler of a request. -/
def handle : Call → Db → Response Reply × Db
  | .listOperators after limit, db => (listOperators after limit db, db)
  | .postOperator body salt, db => postOperator hashPassword body salt db
  | .putOperator id body salt, db => putOperator hashPassword id body salt db
  | .deleteOperator id, db => deleteOperator id db
  | .listRoles, db => (listRoles db, db)
  | .postRole body, db => postRole body db
  | .patchRole id body, db => patchRole id body db
  | .deleteRole id, db => deleteRole id db

/-- A request and the operator its session belongs to. -/
structure Request where
  actor : Int
  call : Call
  deriving DecidableEq, Repr

/-- `authnMiddleware` and `requireSuperAdmin`, and the handler behind them. -/
def serve (db : Db) (req : Request) : Response Reply × Db :=
  match db.operatorByID req.actor with
  | none => (.error .invalidSession "", db)
  | some op =>
    if db.IsAdmin op then handle hashPassword req.call db
    else (.error .superAdminRequired "", db)

/-- One request, run to completion. -/
def step (db : Db) (req : Request) : Db := (serve hashPassword db req).2

/-! ## What the statements do -/

theorem insertPermissions_ok_iff {roleID : Int} {permissions : List String}
    {rows rows' : List PermissionRow} :
    insertPermissions roleID permissions rows = .ok rows' ↔
      permissions.Nodup ∧ (∀ p ∈ permissions, ⟨roleID, p⟩ ∉ rows) ∧
        rows' = rows ++ permissions.map (PermissionRow.mk roleID) := by
  rw [insertPermissions]
  induction permissions generalizing rows with
  | nil => simp [pure, Except.pure, eq_comm]
  | cons p ps ih =>
    rw [List.foldlM_cons]
    split
    · rename_i hmem
      constructor
      · intro h
        cases h
      · rintro ⟨-, hfresh, -⟩
        exact absurd hmem (hfresh p (List.mem_cons_self ..))
    · rename_i hmem
      rw [Loop.bind_eq_ok]
      simp only [Except.ok.injEq, exists_eq_left', ih, List.nodup_cons, List.mem_cons,
        List.mem_append, List.map_cons, List.append_assoc, List.singleton_append]
      constructor
      · rintro ⟨hnodup, hfresh, rfl⟩
        refine ⟨⟨fun hp ↦ hfresh p hp (.inr (by simp)), hnodup⟩, ?_, rfl⟩
        rintro q (rfl | hq)
        · exact hmem
        · exact fun h ↦ hfresh q hq (.inl h)
      · rintro ⟨⟨hp, hnodup⟩, hfresh, rfl⟩
        refine ⟨hnodup, ?_, rfl⟩
        rintro q hq (h | h)
        · exact hfresh q (.inr hq) h
        · simp only [PermissionRow.mk.injEq, List.not_mem_nil, or_false, true_and] at h
          exact hp (h ▸ hq)

/-- The permission set of a role that is written from scratch. -/
theorem updatePermissions_ok_iff {db db' : Db} {id : Int} {permissions : List String} :
    db.updatePermissions id permissions = .ok db' ↔
      permissions.Nodup ∧
        db' = { db with
          permissions := (db.permissions.filter fun p ↦ p.roleID ≠ id) ++
            permissions.map (PermissionRow.mk id) } := by
  rw [Db.updatePermissions, Loop.bind_eq_ok]
  simp only [insertPermissions_ok_iff]
  constructor
  · rintro ⟨rows, ⟨hnodup, -, rfl⟩, h⟩
    cases h
    exact ⟨hnodup, rfl⟩
  · rintro ⟨hnodup, rfl⟩
    refine ⟨_, ⟨hnodup, fun p _ hp ↦ ?_, rfl⟩, rfl⟩
    simpa using (List.mem_filter.mp hp).2

/-- No constraint refuses the `UPDATE` of an operator. -/
def Db.Updatable (db : Db) (id : Int) (email : String) (roleID tenantID : Option Int) : Prop :=
  (email ≠ "" → ∀ op ∈ db.operators, op.id ≠ id → op.email ≠ email) ∧
    (∀ r ∈ roleID, db.roleByID r ≠ none) ∧ db.HasTenant tenantID

instance (db : Db) (id : Int) (email : String) (roleID tenantID : Option Int) :
    Decidable (db.Updatable id email roleID tenantID) :=
  inferInstanceAs (Decidable (_ ∧ (∀ r ∈ roleID, _) ∧ _))

theorem updateOperator_ok_iff {db db' : Db} {id : Int} {email hash : String}
    {roleID tenantID : Option Int} {found : Bool} :
    db.updateOperator id email hash roleID tenantID = .ok (found, db') ↔
      (db.operatorByID id = none ∧ found = false ∧ db' = db) ∨
      (db.operatorByID id ≠ none ∧ db.Updatable id email roleID tenantID ∧ found = true ∧
        db' = { db with
          operators := Table.modify OperatorRow.id id
            (fun op ↦ op.updated email hash roleID tenantID) db.operators }) := by
  rw [Db.updateOperator]
  cases hop : db.operatorByID id with
  | none => simp [eq_comm]
  | some op =>
    simp only [reduceCtorEq, false_and, ne_eq, not_false_eq_true, true_and, false_or]
    split
    · rename_i hemail
      obtain ⟨hne, op', hop', hid, heq⟩ := hemail
      refine ⟨(fun h ↦ by cases h), fun h ↦ absurd heq (h.1.1 hne op' hop' hid)⟩
    · rename_i hemail
      split
      · rename_i hrole
        obtain ⟨r, hr, hnone⟩ := hrole
        exact ⟨(fun h ↦ by cases h), fun h ↦ absurd hnone (h.1.2.1 r hr)⟩
      · rename_i hrole
        split
        · rename_i htenant
          exact ⟨(fun h ↦ by cases h), fun h ↦ absurd h.1.2.2 htenant⟩
        · rename_i htenant
          have hupd : db.Updatable id email roleID tenantID :=
            ⟨fun hne op' hop' hid heq ↦ hemail ⟨hne, op', hop', hid, heq⟩,
              fun r hr hnone ↦ hrole ⟨r, hr, hnone⟩, not_not.mp htenant⟩
          simp [hupd, eq_comm]

/-! ## What the handlers do -/

variable {hashPassword}

/-- The row operator `PUT` leaves. -/
def putRow (hashPassword : String → String → String) (body : PutOperator) (salt : String)
    (op : OperatorRow) : OperatorRow :=
  op.updated body.email (if body.password = "" then "" else hashPassword salt body.password)
    body.roleID body.tenantID

/-- **What operator `PUT` does.**  An empty body is refused, and would have changed nothing. -/
theorem putOperator_db (id : Int) (body : PutOperator) (salt : String) (db : Db) :
    (putOperator hashPassword (some id) body salt db).2 =
      if checkRole db id body.roleID body.tenantID = .ok () ∧
          db.Updatable id body.email body.roleID body.tenantID then
        { db with
          operators := Table.modify OperatorRow.id id (putRow hashPassword body salt)
            db.operators }
      else db := by
  rw [putOperator]
  split
  · rename_i hempty
    obtain ⟨hemail, hpassword, hrole, htenant⟩ := hempty
    have hkeep : ∀ op, putRow hashPassword body salt op = op := by
      intro op
      simp [putRow, OperatorRow.updated, hemail, hpassword, hrole, htenant]
    simp [hkeep, Table.modify]
  · split
    · rename_i r hrole
      simp [hrole]
    · rename_i hrole
      simp only [hrole, true_and]
      split
      · rename_i e hupdate
        split
        · rename_i hupd
          cases hop : db.operatorByID id with
          | none =>
            rw [updateOperator_ok_iff.mpr (.inl ⟨hop, rfl, rfl⟩)] at hupdate
            cases hupdate
          | some op =>
            rw [updateOperator_ok_iff.mpr
              (.inr ⟨hop ▸ Option.some_ne_none op, hupd, rfl, rfl⟩)] at hupdate
            cases hupdate
        · rfl
      · rename_i db' hupdate
        rcases updateOperator_ok_iff.mp hupdate with ⟨hnone, -, rfl⟩ | ⟨-, -, hfound, -⟩
        · rw [Table.modify_of_absent (Table.find_eq_none_iff.mp hnone), ite_self]
        · cases hfound
      · rename_i db' hupdate
        rcases updateOperator_ok_iff.mp hupdate with ⟨-, hfound, -⟩ | ⟨-, hupd, -, rfl⟩
        · cases hfound
        · rw [if_pos hupd]
          split <;> rfl

/-- **What operator `DELETE` does.** -/
theorem deleteOperator_db (id : Int) (db : Db) :
    (deleteOperator (some id) db).2 =
      if ∀ op ∈ db.operatorByID id, ¬ LastSuperAdmin db op then db.deleteOperator id else db := by
  rw [deleteOperator]
  cases hop : db.operatorByID id with
  | none =>
    have hkeep : db.deleteOperator id = db := by
      rw [Db.deleteOperator, List.filter_eq_self.mpr]
      simpa using Table.find_eq_none_iff.mp hop
    simp [hkeep]
  | some target =>
    by_cases hlast : LastSuperAdmin db target <;> simp [hlast]

/-- **What role `PATCH` does.**  The description is kept when the permissions are refused. -/
theorem patchRole_db (id : Int) (body : PatchRole) (db : Db) (hrole : db.roleByID id ≠ none) :
    (patchRole (some id) body db).2 =
      match body.permissions with
      | none => db.describeRole id body.description
      | some permissions =>
        if unknownPermission permissions = none ∧ permissions.Nodup then
          { db.describeRole id body.description with
            permissions := (db.permissions.filter fun p ↦ p.roleID ≠ id) ++
              permissions.map (PermissionRow.mk id) }
        else db.describeRole id body.description := by
  have hkeep : (db.describeRole id body.description).permissions = db.permissions := by
    cases body.description <;> rfl
  rw [patchRole]
  split
  · rename_i hnone
    exact absurd hnone hrole
  · dsimp only
    split
    · rfl
    · rename_i permissions hperm
      split
      · rename_i p hp
        simp [hp]
      · rename_i hknown
        split
        · rename_i e hupdate
          have hdup : ¬ permissions.Nodup := by
            intro hnodup
            rw [updatePermissions_ok_iff.mpr ⟨hnodup, rfl⟩] at hupdate
            cases hupdate
          simp [hdup]
        · rename_i db' hupdate
          obtain ⟨hnodup, rfl⟩ := updatePermissions_ok_iff.mp hupdate
          rw [if_pos ⟨hknown, hnodup⟩, hkeep]

/-- Everything a request can do to the tables. -/
inductive Effect (hashPassword : String → String → String) (db : Db) : Call → Db → Prop
  /-- A read, or a request that is refused. -/
  | unchanged (call : Call) : Effect hashPassword db call db
  | created {body : CreateOperator} {salt role : String} {r : RoleRow}
      (hrole : resolveRole db body = .ok role) (hr : db.roleByName role = some r) :
      Effect hashPassword db (.postOperator body salt)
        { db with
          operators := db.operators ++ [⟨db.operatorSeq, body.email,
            hashPassword salt body.password, role, r.id, body.tenantID⟩]
          operatorSeq := db.operatorSeq + 1 }
  | updated {id : Int} {body : PutOperator} {salt : String}
      (hrole : checkRole db id body.roleID body.tenantID = .ok ())
      (hupd : db.Updatable id body.email body.roleID body.tenantID) :
      Effect hashPassword db (.putOperator (some id) body salt)
        { db with
          operators := Table.modify OperatorRow.id id (putRow hashPassword body salt)
            db.operators }
  | deleted {id : Int} (hlast : ∀ op ∈ db.operatorByID id, ¬ LastSuperAdmin db op) :
      Effect hashPassword db (.deleteOperator (some id)) (db.deleteOperator id)
  | roleCreated {body : CreateRole} {scopeKind : ScopeKind}
      (hname : ∀ r ∈ db.roles, r.name ≠ body.name) :
      Effect hashPassword db (.postRole body)
        { db with
          roles := db.roles ++ [⟨db.roleSeq, body.name, scopeKind, false, body.description⟩]
          roleSeq := db.roleSeq + 1
          permissions := db.permissions ++ body.permissions.map (PermissionRow.mk db.roleSeq) }
  | described {id : Int} {body : PatchRole} :
      Effect hashPassword db (.patchRole (some id) body) (db.describeRole id body.description)
  | granted {id : Int} {body : PatchRole} {permissions : List String}
      (hrole : db.roleByID id ≠ none) (hperm : body.permissions = some permissions)
      (hknown : unknownPermission permissions = none) (hnodup : permissions.Nodup) :
      Effect hashPassword db (.patchRole (some id) body)
        { db.describeRole id body.description with
          permissions := (db.permissions.filter fun p ↦ p.roleID ≠ id) ++
            permissions.map (PermissionRow.mk id) }
  | roleDeleted {id : Int} (hunused : ∀ op ∈ db.operators, op.roleID ≠ id) :
      Effect hashPassword db (.deleteRole (some id)) (db.deleteRole id)

theorem postOperator_effect (body : CreateOperator) (salt : String) (db : Db) :
    Effect hashPassword db (.postOperator body salt)
      (postOperator hashPassword body salt db).2 := by
  rw [postOperator]
  split
  · exact .unchanged _
  · split
    · exact .unchanged _
    · rename_i role hrole
      split
      · exact .unchanged _
      · rename_i row db' hcreate
        rw [Db.createOperator] at hcreate
        split at hcreate
        · cases hcreate
        · rename_i r hr
          split_ifs at hcreate
          cases hcreate
          exact .created hrole hr

theorem putOperator_effect (id : Option Int) (body : PutOperator) (salt : String) (db : Db) :
    Effect hashPassword db (.putOperator id body salt)
      (putOperator hashPassword id body salt db).2 := by
  cases id with
  | none => exact .unchanged _
  | some id =>
    rw [putOperator_db]
    split
    · rename_i h
      exact .updated h.1 h.2
    · exact .unchanged _

theorem deleteOperator_effect (id : Option Int) (db : Db) :
    Effect hashPassword db (.deleteOperator id) (deleteOperator id db).2 := by
  cases id with
  | none => exact .unchanged _
  | some id =>
    rw [deleteOperator_db]
    split
    · rename_i hlast
      exact .deleted hlast
    · exact .unchanged _

theorem postRole_effect (body : CreateRole) (db : Db) :
    Effect hashPassword db (.postRole body) (postRole body db).2 := by
  rw [postRole]
  split
  · exact .unchanged _
  · split
    · exact .unchanged _
    · split
      · exact .unchanged _
      · split
        · exact .unchanged _
        · split
          · exact .unchanged _
          · rename_i row db' hcreate
            rw [Db.createRole] at hcreate
            split at hcreate
            · cases hcreate
            · rename_i hname
              obtain ⟨rows, hrows, hpure⟩ := Loop.bind_eq_ok.mp hcreate
              obtain ⟨-, -, rfl⟩ := insertPermissions_ok_iff.mp hrows
              cases hpure
              exact .roleCreated fun r hr hn ↦ hname ⟨r, hr, hn⟩

theorem patchRole_effect (id : Option Int) (body : PatchRole) (db : Db) :
    Effect hashPassword db (.patchRole id body) (patchRole id body db).2 := by
  cases id with
  | none => exact .unchanged _
  | some id =>
    by_cases hrole : db.roleByID id = none
    · rw [patchRole, hrole]
      exact .unchanged _
    · rw [patchRole_db id body db hrole]
      split
      · exact .described
      · rename_i permissions hperm
        split
        · rename_i h
          exact .granted hrole hperm h.1 h.2
        · exact .described

theorem deleteRole_effect (id : Option Int) (db : Db) :
    Effect hashPassword db (.deleteRole id) (deleteRole id db).2 := by
  cases id with
  | none => exact .unchanged _
  | some id =>
    rw [deleteRole]
    split
    · exact .unchanged _
    · dsimp only
      split
      · exact .unchanged _
      · split
        · exact .unchanged _
        · rename_i hunused
          refine .roleDeleted fun op hop hid ↦ hunused ?_
          exact List.countP_pos_iff.mpr ⟨op, hop, by simpa using hid⟩

/-- **What a request does** is one of the effects. -/
theorem handle_effect (call : Call) (db : Db) :
    Effect hashPassword db call (handle hashPassword call db).2 := by
  cases call with
  | listOperators after limit => exact .unchanged _
  | postOperator body salt => exact postOperator_effect body salt db
  | putOperator id body salt => exact putOperator_effect id body salt db
  | deleteOperator id => exact deleteOperator_effect id db
  | listRoles => exact .unchanged _
  | postRole body => exact postRole_effect body db
  | patchRole id body => exact patchRole_effect id body db
  | deleteRole id => exact deleteRole_effect id db

/-- A request is served when its operator holds the wildcard, and is refused otherwise. -/
theorem step_eq (db : Db) (req : Request) :
    step hashPassword db req =
      if ∃ op ∈ db.operatorByID req.actor, db.IsAdmin op then (handle hashPassword req.call db).2
      else db := by
  rw [step, serve]
  cases hop : db.operatorByID req.actor with
  | none => simp
  | some op => by_cases hadmin : db.IsAdmin op <;> simp [hadmin]

theorem step_effect (db : Db) (req : Request) :
    Effect hashPassword db req.call (step hashPassword db req) := by
  rw [step_eq]
  split
  · exact handle_effect req.call db
  · exact .unchanged _

end Admin
end Voxeltoad
