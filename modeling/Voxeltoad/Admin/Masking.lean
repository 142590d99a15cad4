import Voxeltoad.Admin.Server

/-!
# Masked requests and tables

The secrets of the admin plane are the passwords of operators, the keys of providers, and what comes
after the scheme of a key reference.  A mask leaves of a secret whether there is one, and of a
reference what `maskAPIKeyRef` leaves of it.  Two requests are `Alike` when they are the same under
their masks.

The handlers of operators and roles commute with masking: what they answer does not depend on a
password or on a hash.  The configuration is not so lucky, since a provider is stored with its
reference; but a request that is refused does not look at its secrets, so two requests that are
alike do the same unless they succeed.
-/

set_option autoImplicit false

namespace Voxeltoad
namespace Admin

open Response
open Config hiding Op

/-! ## Masks -/

/-- What is left of a secret: whether there is one.  A field that is not sent is empty. -/
def maskSecret (secret : String) : String := if secret = "" then "" else "***"

@[simp] theorem maskSecret_eq_empty {secret : String} : maskSecret secret = "" ↔ secret = "" := by
  rw [maskSecret]
  split
  · rename_i h
    simp [h]
  · rename_i h
    simp [h]

theorem eq_empty_iff_of_maskSecret {secret secret' : String}
    (h : maskSecret secret = maskSecret secret') : secret = "" ↔ secret' = "" := by
  rw [← maskSecret_eq_empty, h, maskSecret_eq_empty]

def CreateOperator.masked (body : CreateOperator) : CreateOperator :=
  { body with password := maskSecret body.password }

def PutOperator.masked (body : PutOperator) : PutOperator :=
  { body with password := maskSecret body.password }

def OperatorRow.masked (op : OperatorRow) : OperatorRow := { op with passwordHash := "" }

/-- The identity tables without the password hashes. -/
def Db.masked (db : Db) : Db := { db with operators := db.operators.map OperatorRow.masked }

/-- The request without its password. -/
def Call.masked : Call → Call
  | .postOperator body salt => .postOperator body.masked salt
  | .putOperator id body salt => .putOperator id body.masked salt
  | call => call

/-! ## Operators and roles

The handlers commute with masking: what they answer is what they would answer without the passwords
and hashes. -/

section Identity

@[simp] theorem operatorByID_masked (db : Db) (id : Int) :
    db.masked.operatorByID id = (db.operatorByID id).map OperatorRow.masked :=
  Table.find_map (fun op : OperatorRow ↦ (rfl : op.masked.id = op.id)) id db.operators

@[simp] theorem operatorByEmail_masked (db : Db) (email : String) :
    db.masked.operatorByEmail email = (db.operatorByEmail email).map OperatorRow.masked :=
  Table.find_map (fun op : OperatorRow ↦ (rfl : op.masked.email = op.email)) email db.operators

@[simp] theorem countByRole_masked (db : Db) (role : String) :
    db.masked.countByRole role = db.countByRole role := by
  rw [Db.countByRole, Db.countByRole, Db.masked, List.countP_map]
  rfl

@[simp] theorem roleByID_masked (db : Db) (id : Int) : db.masked.roleByID id = db.roleByID id := rfl

theorem lastSuperAdmin_masked {db : Db} {op : OperatorRow} :
    LastSuperAdmin db.masked op.masked ↔ LastSuperAdmin db op := by
  rw [LastSuperAdmin, LastSuperAdmin, countByRole_masked]
  rfl

theorem exists_masked {db : Db} {p : OperatorRow → Prop} (hp : ∀ op, p op.masked ↔ p op) :
    (∃ op ∈ db.masked.operators, p op) ↔ ∃ op ∈ db.operators, p op := by
  simp [Db.masked, hp]

/-- The hash that stands for every hash. -/
def noHash : String → String → String := fun _ _ ↦ ""

theorem createOperator_masked (db : Db) (email hash role : String) (tenantID : Option Int) :
    db.masked.createOperator email "" role tenantID =
      (db.createOperator email hash role tenantID).map (Prod.map OperatorRow.masked Db.masked) := by
  have hname : db.masked.roleByName role = db.roleByName role := rfl
  have hemail : (∃ op ∈ db.masked.operators, op.email = email) ↔
      ∃ op ∈ db.operators, op.email = email :=
    exists_masked fun _ ↦ Iff.rfl
  rw [Db.createOperator, Db.createOperator, hname]
  cases db.roleByName role with
  | none => rfl
  | some r =>
    simp only [hemail]
    split
    · rfl
    · have htenant : db.masked.HasTenant tenantID ↔ db.HasTenant tenantID := Iff.rfl
      simp only [htenant]
      split
      · rfl
      · simp [Except.map, Db.masked, OperatorRow.masked]

variable {hashPassword : String → String → String}

theorem postOperator_masked (body : CreateOperator) (salt : String) (db : Db) :
    postOperator noHash body.masked salt db.masked =
      Prod.map id Db.masked (postOperator hashPassword body salt db) := by
  have hrole : resolveRole db.masked body.masked = resolveRole db body := rfl
  simp only [postOperator, hrole]
  simp only [CreateOperator.masked, maskSecret_eq_empty, noHash]
  split
  · rfl
  · cases resolveRole db body with
    | error r => rfl
    | ok role =>
      simp only [createOperator_masked db body.email (hashPassword salt body.password) role
        body.tenantID]
      cases db.createOperator body.email (hashPassword salt body.password) role
        body.tenantID <;> rfl

theorem updateOperator_masked (db : Db) (opID : Int) (email hash : String)
    (roleID tenantID : Option Int) :
    db.masked.updateOperator opID email "" roleID tenantID =
      (db.updateOperator opID email hash roleID tenantID).map (Prod.map id Db.masked) := by
  have hemail : (∃ op ∈ db.masked.operators, op.id ≠ opID ∧ op.email = email) ↔
      ∃ op ∈ db.operators, op.id ≠ opID ∧ op.email = email :=
    exists_masked fun _ ↦ Iff.rfl
  have hrole : ∀ r, db.masked.roleByID r = db.roleByID r := fun _ ↦ rfl
  have htenant : db.masked.HasTenant tenantID ↔ db.HasTenant tenantID := Iff.rfl
  rw [Db.updateOperator, Db.updateOperator, operatorByID_masked]
  cases db.operatorByID opID with
  | none => rfl
  | some op =>
    simp only [Option.map_some, hemail, hrole, htenant]
    split
    · rfl
    · split
      · rfl
      · split
        · rfl
        · have hrows : Table.modify OperatorRow.id opID
              (fun op ↦ op.updated email "" roleID tenantID) db.masked.operators =
                (Table.modify OperatorRow.id opID
                  (fun op ↦ op.updated email hash roleID tenantID) db.operators).map
                    OperatorRow.masked := by
            simp only [Table.modify, Db.masked, List.map_map]
            refine List.map_congr_left fun op _ ↦ ?_
            by_cases hid : op.id = opID <;>
              simp [OperatorRow.masked, OperatorRow.updated, hid]
          simp only [Except.map, Prod.map, hrows]
          rfl

/-- An update of the password alone. -/
theorem updateOperator_password (db : Db) (opID : Int) (hash : String) :
    ∃ db', db.updateOperator opID "" hash none none = .ok ((db.operatorByID opID).isSome, db') ∧
      db'.masked = db.masked := by
  rw [Db.updateOperator]
  cases db.operatorByID opID with
  | none => exact ⟨db, rfl, rfl⟩
  | some op =>
    have hrows : (Table.modify OperatorRow.id opID
        (fun op ↦ op.updated "" hash none none) db.operators).map OperatorRow.masked =
          db.operators.map OperatorRow.masked :=
      Table.map_modify (fun op ↦ by simp [OperatorRow.updated, OperatorRow.masked]) _
    refine ⟨_, by simp [Db.HasTenant]; rfl, ?_⟩
    simp only [Db.masked, hrows]

theorem checkRole_masked (db : Db) (opID : Int) (roleID tenantID : Option Int) :
    checkRole db.masked opID roleID tenantID = checkRole db opID roleID tenantID := by
  have htenant : ((db.operatorByID opID).map OperatorRow.masked).bind OperatorRow.tenantID =
      (db.operatorByID opID).bind OperatorRow.tenantID := by
    cases db.operatorByID opID <;> rfl
  have hlast : (∃ op ∈ (db.operatorByID opID).map OperatorRow.masked, LastSuperAdmin db.masked op) ↔
      ∃ op ∈ db.operatorByID opID, LastSuperAdmin db op := by
    simp [lastSuperAdmin_masked]
  simp only [checkRole, operatorByID_masked, roleByID_masked, htenant, hlast]

theorem putOperator_masked (opID : Option Int) (body : PutOperator) (salt : String) (db : Db) :
    putOperator noHash opID body.masked salt db.masked =
      Prod.map id Db.masked (putOperator hashPassword opID body salt db) := by
  cases opID with
  | none => rfl
  | some opID =>
    simp only [putOperator, PutOperator.masked, maskSecret_eq_empty, checkRole_masked, noHash,
      ite_self]
    split
    · rfl
    · cases checkRole db opID body.roleID body.tenantID with
      | error r => rfl
      | ok u =>
        simp only [updateOperator_masked db opID body.email
          (if body.password = "" then "" else hashPassword salt body.password)]
        cases db.updateOperator opID body.email
            (if body.password = "" then "" else hashPassword salt body.password) body.roleID
            body.tenantID with
        | error e => rfl
        | ok p =>
          obtain ⟨found, db'⟩ := p
          cases found with
          | false => rfl
          | true =>
            simp only [Except.map, Prod.map, id, operatorByID_masked]
            cases db'.operatorByID opID <;> rfl

theorem deleteOperator_masked (opID : Option Int) (db : Db) :
    deleteOperator opID db.masked = Prod.map id Db.masked (deleteOperator opID db) := by
  cases opID with
  | none => rfl
  | some opID =>
    simp only [deleteOperator, operatorByID_masked]
    cases db.operatorByID opID with
    | none => rfl
    | some target =>
      simp only [Option.map_some, lastSuperAdmin_masked]
      split
      · rfl
      · have hrows : (db.masked.deleteOperator opID) = (db.deleteOperator opID).masked := by
          simp only [Db.deleteOperator, Db.masked, List.filter_map]
          rfl
        rw [hrows]
        rfl

theorem listOperators_masked (after : Int) (limit : Nat) (db : Db) :
    listOperators after limit db.masked = listOperators after limit db := by
  have hsort := List.map_insertionSort (fun a b : OperatorRow ↦ a.id ≤ b.id)
    (fun a b ↦ a.id ≤ b.id) OperatorRow.masked (db.operators.filter fun op ↦ after < op.id)
    fun a _ b _ ↦ Iff.rfl
  have hrows : db.masked.operators.filter (fun op ↦ after < op.id) =
      (db.operators.filter fun op ↦ after < op.id).map OperatorRow.masked := by
    rw [Db.masked, List.filter_map]
    rfl
  have hinfo : OperatorRow.info ∘ OperatorRow.masked = OperatorRow.info := rfl
  have hid : OperatorRow.id ∘ OperatorRow.masked = OperatorRow.id := rfl
  simp only [listOperators, hrows, ← hsort, ← List.map_take, List.map_map, hinfo, List.length_map,
    List.getLast?_map, Option.map_map, hid]

theorem createRole_masked (db : Db) (name : String) (scopeKind : ScopeKind) (description : String)
    (permissions : List String) :
    db.masked.createRole name scopeKind description permissions =
      (db.createRole name scopeKind description permissions).map (Prod.map id Db.masked) := by
  have hname : (∃ r ∈ db.masked.roles, r.name = name) ↔ ∃ r ∈ db.roles, r.name = name := Iff.rfl
  have hseq : db.masked.roleSeq = db.roleSeq := rfl
  have hperm : db.masked.permissions = db.permissions := rfl
  simp only [Db.createRole, hname, hseq, hperm]
  split
  · rfl
  · cases insertPermissions db.roleSeq permissions db.permissions <;> rfl

theorem postRole_masked (body : CreateRole) (db : Db) :
    postRole body db.masked = Prod.map id Db.masked (postRole body db) := by
  have hname : db.masked.roleByName body.name = db.roleByName body.name := rfl
  simp only [postRole, hname, createRole_masked]
  split
  · rfl
  · cases parseScopeKind body.scopeKind with
    | none => rfl
    | some scopeKind =>
      cases unknownPermission body.permissions with
      | some p => rfl
      | none =>
        dsimp only
        split
        · rfl
        · cases db.createRole body.name scopeKind body.description body.permissions <;> rfl

theorem describeRole_masked (db : Db) (roleID : Int) (description : Option String) :
    db.masked.describeRole roleID description = (db.describeRole roleID description).masked := by
  cases description <;> rfl

theorem updatePermissions_masked (db : Db) (roleID : Int) (permissions : List String) :
    db.masked.updatePermissions roleID permissions =
      (db.updatePermissions roleID permissions).map Db.masked := by
  have hperm : db.masked.permissions = db.permissions := rfl
  simp only [Db.updatePermissions, hperm]
  cases insertPermissions roleID permissions (db.permissions.filter fun p ↦ p.roleID ≠ roleID) <;>
    rfl

theorem patchRole_masked (roleID : Option Int) (body : PatchRole) (db : Db) :
    patchRole roleID body db.masked = Prod.map id Db.masked (patchRole roleID body db) := by
  cases roleID with
  | none => rfl
  | some roleID =>
    simp only [patchRole, roleByID_masked, describeRole_masked]
    cases db.roleByID roleID with
    | none => rfl
    | some r =>
      cases body.permissions with
      | none => rfl
      | some permissions =>
        dsimp only
        cases unknownPermission permissions with
        | some p => rfl
        | none =>
          simp only [updatePermissions_masked]
          cases (db.describeRole roleID body.description).updatePermissions roleID
            permissions <;> rfl

theorem deleteRole_masked (roleID : Option Int) (db : Db) :
    deleteRole roleID db.masked = Prod.map id Db.masked (deleteRole roleID db) := by
  cases roleID with
  | none => rfl
  | some roleID =>
    have hcount : (db.masked.operators.countP fun op ↦ op.roleID = roleID) =
        db.operators.countP fun op ↦ op.roleID = roleID := by
      rw [Db.masked, List.countP_map]
      rfl
    simp only [deleteRole, roleByID_masked, hcount]
    cases db.roleByID roleID with
    | none => rfl
    | some r =>
      dsimp only
      split
      · rfl
      · split <;> rfl

variable (hashPassword) in
/-- **The identity endpoints commute with masking.** -/
theorem handle_masked (call : Call) (db : Db) :
    handle noHash call.masked db.masked = Prod.map id Db.masked (handle hashPassword call db) := by
  cases call with
  | listOperators after limit => exact Prod.ext (listOperators_masked after limit db) rfl
  | postOperator body salt => exact postOperator_masked body salt db
  | putOperator opID body salt => exact putOperator_masked opID body salt db
  | deleteOperator opID => exact deleteOperator_masked opID db
  | listRoles => rfl
  | postRole body => exact postRole_masked body db
  | patchRole roleID body => exact patchRole_masked roleID body db
  | deleteRole roleID => exact deleteRole_masked roleID db

end Identity

/-! ## Requests that differ in their secrets -/

def ProviderRequest.masked (body : ProviderRequest) : ProviderRequest :=
  ⟨maskedProvider body.provider, maskSecret body.apiKey⟩

def PatchCredential.masked (body : PatchCredential) : PatchCredential :=
  ⟨maskSecret body.apiKey, maskAPIKeyRef body.apiKeyRef⟩

def ConnRequest.masked (req : ConnRequest) : ConnRequest :=
  { req with apiKey := maskSecret req.apiKey, apiKeyRef := maskAPIKeyRef req.apiKeyRef }

def maskedPatch (patch : ProviderPatch) : ProviderPatch :=
  { patch with apiKeyRef := patch.apiKeyRef.map maskAPIKeyRef }

def maskedDynamic (d : Config.Dynamic) : Config.Dynamic :=
  { d with providers := d.providers.map maskedProvider }

/-- Two configuration requests that differ in their secrets alone. -/
inductive ConfigCall.Alike : ConfigCall → ConfigCall → Prop
  | refl (call : ConfigCall) : Alike call call
  | postProvider {body body' : ProviderRequest} (h : body.masked = body'.masked)
      (nonce : List UInt8) : Alike (.postProvider body nonce) (.postProvider body' nonce)
  | patchProvider (name : String) {patch patch' : ProviderPatch}
      (h : maskedPatch patch = maskedPatch patch') :
      Alike (.patchProvider name patch) (.patchProvider name patch')
  | patchCredential (name : String) {body body' : PatchCredential} (h : body.masked = body'.masked)
      (nonce : List UInt8) :
      Alike (.patchCredential name body nonce) (.patchCredential name body' nonce)
  | preview {d d' : Config.Dynamic} (h : maskedDynamic d = maskedDynamic d') :
      Alike (.preview d) (.preview d')

variable {κ ρ : Type}

/-- Two requests that differ in their secrets alone.  The upstream is the same, but where it is
probed with another key, it may answer something else. -/
inductive ApiCall.Alike : ApiCall κ → ApiCall κ → Prop
  | identity {call call' : Call} (h : call.masked = call'.masked) :
      Alike (.identity call) (.identity call')
  | config {call call' : ConfigCall} (h : call.Alike call') : Alike (.config call) (.config call')
  | me : Alike .me .me
  | mePassword {password password' : String} (h : maskSecret password = maskSecret password')
      (salt : String) : Alike (.mePassword password salt) (.mePassword password' salt)
  | testProvider (name : String) (upstream : Upstream) :
      Alike (.testProvider name upstream) (.testProvider name upstream)
  | testConn {req req' : ConnRequest} (h : req.masked = req'.masked) (upstream : Upstream) :
      Alike (.testConn req upstream) (.testConn req' upstream)
  | audit (query : AuditQuery) : Alike (.audit query) (.audit query)
  | other (call : κ) : Alike (.other call) (.other call)

/-- Two events that differ in their secrets alone. -/
inductive Event.Alike : Event κ → Event κ → Prop
  | login (now : Int) (email password password' token : String) :
      Alike (.login now email password token) (.login now email password' token)
  | api (now : Int) (bearer : Option String) {call call' : ApiCall κ} (h : call.Alike call') :
      Alike (.api now bearer call) (.api now bearer call')
  | save : Alike .save .save

/-! ## The configuration

The tables of the configuration are the same in both runs, as long as the mutations that succeed
have the same bodies.  A mutation that fails does not look at what its secrets are. -/

variable {service : Service}

theorem maskAPIKeyRef_eq_empty {ref : String} : maskAPIKeyRef ref = "" ↔ ref = "" := by
  rw [maskAPIKeyRef]
  split
  · rfl
  · split
    · rename_i scheme rest hcut
      refine ⟨fun h ↦ ?_, fun h ↦ ?_⟩
      · simpa using congrArg String.toList h
      · rw [h] at hcut
        cases hcut
    · split
      · rename_i hempty
        simp [hempty]
      · rename_i hempty
        simp [hempty]

/-- A credential that is not stored, although a key was sent, is refused whatever the key is. -/
theorem persist_alike (service : Service) {apiKey apiKey' : String} (hkey : apiKey ≠ "")
    (hkey' : apiKey' ≠ "") (t : Tables) (name : String) (nonce : List UInt8) :
    (∃ msg, persistProviderCredential service t name apiKey nonce = .error msg ∧
        persistProviderCredential service t name apiKey' nonce = .error msg) ∨
      ∃ t', persistProviderCredential service t name apiKey nonce = .ok t' ∧
        ∃ p, t'.getProvider name = some p := by
  simp only [persistProviderCredential, if_neg hkey, if_neg hkey']
  cases service with
  | none => exact .inl ⟨_, rfl, rfl⟩
  | some encrypt =>
    simp only [Tables.upsertCredential]
    by_cases hfk : ∃ p ∈ t.providers, p.name = name
    · simp only [if_pos hfk]
      refine .inr ⟨_, rfl, ?_⟩
      exact Option.isSome_iff_exists.mp (Table.find_isSome_iff.mpr hfk)
    · simp only [if_neg hfk]
      exact .inl ⟨_, rfl, rfl⟩

theorem eq_of_maskedProvider {p p' : Config.Provider} (h : maskedProvider p = maskedProvider p') :
    p' = { p with apiKeyRef := p'.apiKeyRef } := by
  cases p
  cases p'
  simp only [maskedProvider, Config.Provider.mk.injEq] at h ⊢
  simp [h]

theorem postProvider_alike {body body' : ProviderRequest} (h : body.masked = body'.masked)
    (nonce : List UInt8) (t : Tables) (hfail : ¬ (postProvider service body nonce t).1.Success) :
    postProvider service body nonce t = postProvider service body' nonce t := by
  obtain ⟨p, key⟩ := body
  obtain ⟨p', key'⟩ := body'
  simp only [ProviderRequest.masked, ProviderRequest.mk.injEq] at h
  have hkey := eq_empty_iff_of_maskSecret h.2
  have hp := eq_of_maskedProvider h.1
  generalize p'.apiKeyRef = ref at hp
  subst hp
  simp only [postProvider] at hfail ⊢
  split
  · rfl
  · rename_i hne
    rw [if_neg hne] at hfail
    cases hvalid : validateProvider p.name p.endpoints with
    | error msg => rfl
    | ok u =>
      simp only [hvalid] at hfail ⊢
      by_cases hempty : key = ""
      · -- Without a key there is nothing left to fail.
        simp only [persistProviderCredential, if_pos hempty] at hfail
        simp at hfail
      · -- With a key both requests store the same provider, and fail at its credential.
        have hempty' : key' ≠ "" := fun h ↦ hempty (hkey.mpr h)
        simp only [effectiveAPIKeyRef, ne_eq, hempty, hempty', not_false_eq_true, if_true]
          at hfail ⊢
        rcases persist_alike service hempty hempty'
          (t.upsertProvider { p with apiKeyRef := dbProviderRef p.name }) p.name nonce with
          ⟨msg, herr, herr'⟩ | ⟨t', hok, -⟩
        · simp only [herr, herr']
        · simp only [hok] at hfail
          simp at hfail

theorem patchProvider_alike (name : String) {patch patch' : ProviderPatch}
    (h : maskedPatch patch = maskedPatch patch') (t : Tables)
    (hfail : ¬ (patchProvider name patch t).1.Success) :
    patchProvider name patch t = patchProvider name patch' t := by
  have hendpoints : patch.endpoints = patch'.endpoints := by
    simpa only [maskedPatch] using congrArg ProviderPatch.endpoints h
  rw [patchProvider] at hfail ⊢
  rw [patchProvider, ← hendpoints]
  cases hvalid : patch.endpoints.elim (.ok ()) (validateProvider name) with
  | error msg => rfl
  | ok u =>
    simp only [hvalid, Tables.patchProvider] at hfail ⊢
    cases hget : t.getProvider name with
    | none => rfl
    | some p =>
      simp only [hget, Option.map_some] at hfail
      simp at hfail

theorem patchCredential_alike (name : String) {body body' : PatchCredential}
    (h : body.masked = body'.masked) (nonce : List UInt8) (t : Tables)
    (hfail : ¬ (patchCredential service name body nonce t).1.Success) :
    patchCredential service name body nonce t = patchCredential service name body' nonce t := by
  obtain ⟨key, ref⟩ := body
  obtain ⟨key', ref'⟩ := body'
  simp only [PatchCredential.masked, PatchCredential.mk.injEq] at h
  have hkey := eq_empty_iff_of_maskSecret h.1
  have href : ref = "" ↔ ref' = "" := by
    rw [← maskAPIKeyRef_eq_empty, h.2, maskAPIKeyRef_eq_empty]
  simp only [patchCredential] at hfail ⊢
  simp only [← hkey, ← href]
  split
  · rfl
  · rename_i hsent
    rw [if_neg hsent] at hfail
    by_cases hempty : key = ""
    · -- Nothing is stored, and the provider is looked up.
      have hempty' : key' = "" := hkey.mp hempty
      simp only [persistProviderCredential, if_pos hempty, if_pos hempty'] at hfail ⊢
      cases hget : t.getProvider name with
      | none => rfl
      | some p =>
        simp only [hget] at hfail
        simp at hfail
    · have hempty' : key' ≠ "" := fun h ↦ hempty (hkey.mpr h)
      rcases persist_alike service hempty hempty' t name nonce with
        ⟨msg, herr, herr'⟩ | ⟨t', hok, p, hget⟩
      · simp only [herr, herr']
      · simp only [hok, hget] at hfail
        simp at hfail

theorem previewHandler_masked (d : Config.Dynamic) (t : Tables) :
    previewHandler (maskedDynamic d) t = previewHandler d t := by
  have hkeys : resourceKeys (maskedDynamic d) = resourceKeys d := by
    simp only [resourceKeys, maskedDynamic, List.map_map]
    rfl
  have herrors : validateDynamicConfig (maskedDynamic d) = validateDynamicConfig d := by
    simp only [validateDynamicConfig, maskedDynamic, List.filter_map, List.map_map]
    rfl
  simp only [previewHandler, herrors, computeDiff, hkeys]

/-- **Configuration requests that differ in secrets** have the same answer and leave the same
tables, unless one succeeds and is audited: then it has to have the same body. -/
theorem handleConfig_alike {call call' : ConfigCall} (h : call.Alike call') (t : Tables)
    (hbody : (handleConfig service call t).1.Success → call.entry = call'.entry) :
    handleConfig service call t = handleConfig service call' t := by
  cases h with
  | refl => rfl
  | preview h =>
    refine Prod.ext ?_ rfl
    rw [handleConfig, handleConfig, ← previewHandler_masked, h, previewHandler_masked]
  | postProvider h nonce =>
    rename_i body body'
    by_cases hsuccess : (postProvider service body nonce t).1.Success
    · cases hbody hsuccess
      rfl
    · exact postProvider_alike h nonce t hsuccess
  | patchProvider name h =>
    rename_i patch patch'
    by_cases hsuccess : (patchProvider name patch t).1.Success
    · cases hbody hsuccess
      rfl
    · exact patchProvider_alike name h t hsuccess
  | patchCredential name h nonce =>
    rename_i body body'
    by_cases hsuccess : (patchCredential service name body nonce t).1.Success
    · cases hbody hsuccess
      rfl
    · exact patchCredential_alike name h nonce t hsuccess

end Admin
end Voxeltoad
