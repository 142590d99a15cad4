import Voxeltoad.Admin.Lockout

/-!
# Operator scope coherence

An operator whose role is global is bound to no tenant, and an operator whose role is a tenant role
is bound to one.  There was a `CHECK` for it once; migration 00013 drops it and leaves the rule to
the handlers.  Operator `POST` checks it, and so does `PUT` when the request has a `role_id`.  A
`PUT` with a `tenant_id` and no `role_id` is checked by nothing, so a tenant can be given to an
operator that acts globally.

`Db.WF` is what the schema promises on its own.  `coherent_iff` is that such a `PUT` is the only way
to an incoherent operator.
-/

set_option autoImplicit false

namespace Voxeltoad
namespace Admin

variable {hashPassword : String → String → String}

/-- The keys of the tables, the sequences that are ahead of them, and the two roles that the
migrations seed and no request deletes. -/
structure Db.WF (db : Db) : Prop where
  roleIDs : Table.Keyed RoleRow.id db.roles
  roleNames : Table.Keyed RoleRow.name db.roles
  roleSeq : ∀ r ∈ db.roles, r.id < db.roleSeq
  operatorIDs : Table.Keyed OperatorRow.id db.operators
  operatorSeq : ∀ op ∈ db.operators, op.id < db.operatorSeq
  superAdmin : ∃ r ∈ db.roles, r.isBuiltin = true ∧ r.name = superAdmin ∧ r.scopeKind = .global
  tenantAdmin : ∃ r ∈ db.roles, r.isBuiltin = true ∧ r.name = tenantAdmin ∧ r.scopeKind = .tenant

/-- The role an operator's permissions are loaded from is global iff the operator has no tenant. -/
def Coherent (db : Db) : Prop :=
  ∀ op ∈ db.operators, ∃ r ∈ db.roleByID op.roleID, (r.scopeKind = .global ↔ op.tenantID = none)

instance (db : Db) : Decidable (Coherent db) :=
  inferInstanceAs (Decidable (∀ op ∈ db.operators, ∃ r ∈ db.roleByID op.roleID, _))

/-- A `PUT` that no constraint refuses gives a tenant, and no role, to an operator whose role is
global. -/
def BindsGlobal (db : Db) : Call → Prop
  | .putOperator (some id) body _ =>
    body.roleID = none ∧ body.tenantID ≠ none ∧
      db.Updatable id body.email body.roleID body.tenantID ∧
      ∃ op ∈ db.operatorByID id, ∃ r ∈ db.roleByID op.roleID, r.scopeKind = .global
  | _ => False

/-- Such a `PUT`, by an operator with the wildcard. -/
def Breaks (db : Db) (req : Request) : Prop :=
  (∃ op ∈ db.operatorByID req.actor, db.IsAdmin op) ∧ BindsGlobal db req.call

/-! ## The schema -/

/-- What the schema says of the roles, which is about rows that other writes leave alone. -/
theorem Db.WF.describeRole {db : Db} (h : db.WF) (id : Int) (description : Option String) :
    (db.describeRole id description).WF := by
  cases description with
  | none => exact h
  | some description =>
    have hkeep : ∀ r : RoleRow, (if r.isBuiltin then r else { r with description }).id = r.id ∧
        (if r.isBuiltin then r else { r with description }).name = r.name := by
      intro r
      split <;> exact ⟨rfl, rfl⟩
    have hbuiltin : ∀ r ∈ db.roles, r.isBuiltin = true →
        r ∈ (db.updateDescription id description).roles := by
      intro r hr hb
      refine Table.mem_modify.mpr ⟨r, hr, ?_⟩
      simp [hb]
    refine ⟨h.roleIDs.modify fun r ↦ (hkeep r).1, ?_, ?_, h.operatorIDs, h.operatorSeq, ?_, ?_⟩
    · rw [Table.Keyed, Db.describeRole, Db.updateDescription, Table.map_modify fun r ↦ (hkeep r).2]
      exact h.roleNames
    · intro r hr
      obtain ⟨r₀, hr₀, rfl⟩ := Table.mem_modify.mp hr
      have hseq := h.roleSeq r₀ hr₀
      split
      · rwa [(hkeep r₀).1]
      · exact hseq
    · obtain ⟨r, hr, hb, hname, hscope⟩ := h.superAdmin
      exact ⟨r, hbuiltin r hr hb, hb, hname, hscope⟩
    · obtain ⟨r, hr, hb, hname, hscope⟩ := h.tenantAdmin
      exact ⟨r, hbuiltin r hr hb, hb, hname, hscope⟩

theorem Effect.wf {db db' : Db} {call : Call} (heff : Effect hashPassword db call db')
    (h : db.WF) : db'.WF := by
  cases heff with
  | unchanged => exact h
  | created hrole hr =>
    refine { h with operatorIDs := h.operatorIDs.append fun op hop ↦ ?_, operatorSeq := ?_ }
    · exact (h.operatorSeq op hop).ne
    · intro op hop
      rcases List.mem_append.mp hop with hop | hop
      · exact (h.operatorSeq op hop).trans (lt_add_one _)
      · rw [List.mem_singleton.mp hop]
        exact lt_add_one _
  | updated hrole hupd =>
    refine { h with operatorIDs := h.operatorIDs.modify ?_, operatorSeq := ?_ }
    · exact fun _ ↦ rfl
    · intro op hop
      obtain ⟨op₀, hop₀, rfl⟩ := Table.mem_modify.mp hop
      have hseq := h.operatorSeq op₀ hop₀
      split <;> exact hseq
  | deleted hlast =>
    refine { h with operatorIDs := h.operatorIDs.filter _, operatorSeq := ?_ }
    exact fun op hop ↦ h.operatorSeq op (List.mem_filter.mp hop).1
  | roleCreated hname =>
    obtain ⟨r, hr, hsuper⟩ := h.superAdmin
    obtain ⟨r', hr', htenant⟩ := h.tenantAdmin
    refine { h with
      roleIDs := h.roleIDs.append fun r hr ↦ (h.roleSeq r hr).ne
      roleNames := h.roleNames.append hname
      roleSeq := ?_
      superAdmin := ⟨r, List.mem_append_left _ hr, hsuper⟩
      tenantAdmin := ⟨r', List.mem_append_left _ hr', htenant⟩ }
    intro r hr
    rcases List.mem_append.mp hr with hr | hr
    · exact (h.roleSeq r hr).trans (lt_add_one _)
    · rw [List.mem_singleton.mp hr]
      exact lt_add_one _
  | described => exact h.describeRole _ _
  | granted => exact { h.describeRole _ _ with }
  | roleDeleted hunused =>
    obtain ⟨r, hr, hb, hsuper⟩ := h.superAdmin
    obtain ⟨r', hr', hb', htenant⟩ := h.tenantAdmin
    refine { h with
      roleIDs := h.roleIDs.filter _
      roleNames := h.roleNames.filter _
      roleSeq := fun r hr ↦ h.roleSeq r (List.mem_filter.mp hr).1
      superAdmin := ⟨r, List.mem_filter.mpr ⟨hr, by simp [hb]⟩, hb, hsuper⟩
      tenantAdmin := ⟨r', List.mem_filter.mpr ⟨hr', by simp [hb']⟩, hb', htenant⟩ }

theorem step_wf (db : Db) (req : Request) (h : db.WF) : (step hashPassword db req).WF :=
  (step_effect db req).wf h

/-! ## Coherence -/

/-- A write that keeps the operators, and the scope of every role one of them has. -/
theorem Coherent.of_roles {db db' : Db} (h : Coherent db) (hops : db'.operators = db.operators)
    (hroles : ∀ op ∈ db.operators, ∀ r ∈ db.roleByID op.roleID,
      ∃ r' ∈ db'.roleByID op.roleID, r'.scopeKind = r.scopeKind) : Coherent db' := by
  intro op hop
  rw [hops] at hop
  obtain ⟨r, hr, hscope⟩ := h op hop
  obtain ⟨r', hr', heq⟩ := hroles op hop r hr
  exact ⟨r', hr', heq ▸ hscope⟩

theorem Coherent.describeRole {db : Db} (h : Coherent db) (id : Int)
    (description : Option String) : Coherent (db.describeRole id description) := by
  cases description with
  | none => exact h
  | some description =>
    refine h.of_roles rfl fun op _ r hr ↦ ?_
    have hfind : (db.updateDescription id description).roleByID op.roleID =
        (db.roleByID op.roleID).map fun r ↦
          if r.id = id then if r.isBuiltin then r else { r with description } else r :=
      Table.find_modify (fun r ↦ by split <;> rfl) op.roleID db.roles
    rw [Option.mem_def.mp hr, Option.map_some] at hfind
    refine ⟨_, hfind, ?_⟩
    split_ifs <;> rfl

/-- The role that operator `POST` settles on has the scope that the tenant asks for. -/
theorem resolveRole_scope {db : Db} (hwf : db.WF) {body : CreateOperator} {role : String}
    {r : RoleRow} (hrole : resolveRole db body = .ok role) (hr : db.roleByName role = some r) :
    r.scopeKind = .global ↔ body.tenantID = none := by
  have hname : ∀ r' ∈ db.roles, r'.name = role → r' = r := by
    intro r' hr' heq
    have hfound := hwf.roleNames.find_of_mem hr'
    rw [heq] at hfound
    exact Option.some.inj (hfound.symm.trans hr)
  rw [resolveRole] at hrole
  split at hrole
  · split at hrole
    · cases hrole
    · rename_i r' hr'
      split_ifs at hrole with hglobal htenant
      cases hrole
      rw [← hname r' (Table.mem_of_find hr').1 rfl]
      cases hk : r'.scopeKind <;> simp_all
  · split_ifs at hrole with hsuper hnone htenant hnone
    · cases hrole
      obtain ⟨r', hr', -, hname', hscope⟩ := hwf.superAdmin
      rw [← hname r' hr' (hname'.trans hsuper.symm), hscope]
      simpa using hnone
    · cases hrole
      obtain ⟨r', hr', -, hname', hscope⟩ := hwf.tenantAdmin
      rw [← hname r' hr' (hname'.trans htenant.symm), hscope]
      simpa using hnone

/-- When a role is given, `PUT` checks it against the tenant the operator will have. -/
theorem checkRole_scope {db : Db} {id roleID : Int} {tenantID : Option Int} {op : OperatorRow}
    (hop : db.operatorByID id = some op)
    (h : checkRole db id (some roleID) tenantID = .ok ()) :
    ∃ r ∈ db.roleByID roleID, (r.scopeKind = .global ↔ tenantID.or op.tenantID = none) := by
  rw [checkRole] at h
  split at h
  · cases h
  · rename_i r hr
    refine ⟨r, hr, ?_⟩
    rw [hop] at h
    dsimp only [Option.bind_some] at h
    split_ifs at h with hglobal htenant
    cases hk : r.scopeKind <;> simp_all

theorem putOperator_coherent (id : Int) (body : PutOperator) (salt : String) {db : Db}
    (hwf : db.WF) (h : Coherent db) :
    Coherent (putOperator hashPassword (some id) body salt db).2 ↔
      ¬ BindsGlobal db (.putOperator (some id) body salt) := by
  rw [putOperator_db]
  split
  · rename_i hok
    obtain ⟨hcheck, hupd⟩ := hok
    constructor
    · rintro hcoh ⟨hrole, htenant, -, op, hop, r, hr, hglobal⟩
      obtain ⟨hmem, hid⟩ := Table.mem_of_find hop
      obtain ⟨r', hr', hscope⟩ := hcoh _ (Table.mem_modify_of_eq hmem hid)
      -- The row kept its role and got the tenant.
      have hsame : r' = r := by
        have : r' ∈ db.roleByID (body.roleID.getD op.roleID) := hr'
        rw [hrole] at this
        exact Option.mem_unique this hr
      have hnone : body.tenantID.or op.tenantID = none := hscope.mp (hsame ▸ hglobal)
      exact htenant (Option.or_eq_none_iff.mp hnone).1
    · intro hbind op hop
      obtain ⟨op₀, hop₀, rfl⟩ := Table.mem_modify.mp hop
      split
      · rename_i hid
        subst hid
        have hfound : db.operatorByID op₀.id = some op₀ := hwf.operatorIDs.find_of_mem hop₀
        cases hrole : body.roleID with
        | some roleID =>
          rw [hrole] at hcheck
          obtain ⟨r, hr, hscope⟩ := checkRole_scope hfound hcheck
          refine ⟨r, ?_, hscope⟩
          rw [putRow, OperatorRow.updated, hrole]
          exact hr
        | none =>
          obtain ⟨r, hr, hscope⟩ := h op₀ hop₀
          refine ⟨r, ?_, ?_⟩
          · rw [putRow, OperatorRow.updated, hrole]
            exact hr
          · show r.scopeKind = .global ↔ body.tenantID.or op₀.tenantID = none
            by_cases htenant : body.tenantID = none
            · rw [htenant, Option.none_or]
              exact hscope
            · have hlocal : r.scopeKind ≠ .global := fun hglobal ↦
                hbind ⟨hrole, htenant, hupd, op₀, hfound, r, hr, hglobal⟩
              refine ⟨fun hglobal ↦ absurd hglobal hlocal, fun hnone ↦ ?_⟩
              exact absurd (Option.or_eq_none_iff.mp hnone).1 htenant
      · exact h op₀ hop₀
  · rename_i hok
    refine ⟨fun _ hbind ↦ hok ⟨?_, hbind.2.2.1⟩, fun _ ↦ h⟩
    rw [hbind.1, checkRole]

/-- The other calls leave every operator coherent. -/
theorem Effect.coherent {db db' : Db} {call : Call} (heff : Effect hashPassword db call db')
    (hput : ∀ id body salt, call ≠ .putOperator id body salt) (hwf : db.WF) (h : Coherent db) :
    Coherent db' := by
  cases heff with
  | unchanged => exact h
  | @created body salt role r hrole hr =>
    intro op hop
    rcases List.mem_append.mp hop with hop | hop
    · exact h op hop
    · rw [List.mem_singleton.mp hop]
      refine ⟨r, ?_, resolveRole_scope hwf hrole hr⟩
      exact hwf.roleIDs.find_of_mem (Table.mem_of_find hr).1
  | updated => exact absurd rfl (hput _ _ _)
  | deleted => exact fun op hop ↦ h op (List.mem_filter.mp hop).1
  | roleCreated =>
    refine h.of_roles rfl fun op _ r hr ↦ ⟨r, ?_, rfl⟩
    exact Table.find_append.trans (Option.or_eq_some_iff.mpr (.inl hr))
  | described => exact h.describeRole _ _
  | granted => exact h.describeRole _ _
  | roleDeleted hunused =>
    refine h.of_roles rfl fun op hop r hr ↦ ⟨r, ?_, rfl⟩
    refine hwf.roleIDs.find_filter hr ?_
    simp [(Table.mem_of_find hr).2, hunused op hop]

theorem handle_coherent (call : Call) {db : Db} (hwf : db.WF) (h : Coherent db) :
    Coherent (handle hashPassword call db).2 ↔ ¬ BindsGlobal db call := by
  have hother := (@handle_effect hashPassword call db).coherent
  cases call with
  | putOperator id body salt =>
    cases id with
    | none => exact ⟨fun _ hbind ↦ hbind, fun _ ↦ h⟩
    | some id => exact putOperator_coherent id body salt hwf h
  | listOperators | listRoles | postOperator | deleteOperator | postRole | patchRole
    | deleteRole => exact ⟨fun _ hbind ↦ hbind, fun _ ↦ hother nofun hwf h⟩

theorem step_coherent (db : Db) (req : Request) (hwf : db.WF) (h : Coherent db) :
    Coherent (step hashPassword db req) ↔ ¬ Breaks db req := by
  rw [step_eq, Breaks]
  split
  · rename_i hactor
    rw [handle_coherent req.call hwf h]
    exact ⟨fun hcall hbind ↦ hcall hbind.2, fun hbind hcall ↦ hbind ⟨hactor, hcall⟩⟩
  · rename_i hactor
    exact ⟨fun _ hbind ↦ hactor hbind.1, fun _ ↦ h⟩

/-- **Operator scope coherence.**  From a coherent state, every state of a run is coherent iff no
request of the run gives a tenant, and no role, to an operator with a global role. -/
theorem coherent_iff (db : Db) (reqs : List Request) (hwf : db.WF) (h : Coherent db) :
    (∀ p ∈ Run.visited (step hashPassword) db reqs, Coherent p) ↔
      Run.Along (step hashPassword) (fun db req ↦ ¬ Breaks db req) db reqs :=
  Run.visited_iff_along step_wf step_coherent hwf h

/-- The seeded tables with a tenant. -/
def tenanted : Db := { seeded with tenants := [⟨1, "acme"⟩] }

theorem tenanted_wf : tenanted.WF := by
  refine ⟨?_, ?_, ?_, ?_, ?_, ?_, ?_⟩ <;> decide

/-- A tenant-admin is created and a custom role is given to it. -/
theorem coherent_iff_sample :
    Run.Along (step sampleHash) (fun db req ↦ ¬ Breaks db req) tenanted
      [⟨1, .postOperator ⟨"a@example.com", "pw", "tenant-admin", 0, some 1⟩ "s"⟩,
        ⟨1, .postRole ⟨"viewer", "tenant", "", ["usage.read"]⟩⟩,
        ⟨1, .putOperator (some 2) ⟨"", "", some 3, none⟩ ""⟩] :=
  (coherent_iff tenanted _ tenanted_wf (by decide)).mp (by decide)

/-- The super-admin is given a tenant. -/
theorem incoherent_put :
    ¬ ∀ p ∈ Run.visited (step sampleHash) tenanted
        [⟨1, .putOperator (some 1) ⟨"", "", none, some 1⟩ ""⟩], Coherent p := by
  decide

end Admin
end Voxeltoad
