import Voxeltoad.Admin.Lockout
import Voxeltoad.Admin.Masking

/-!
# What two runs that differ in secrets show

The audit trail and the answers are all that can be seen of the server.  Two runs of it that differ
in their secrets alone, and in which the same requests succeed, are taken side by side.  They show
the same exactly as long as they are `Discreet`: a request that succeeds and is audited has the same
body in both, and a test of an unsaved provider comes to the same in both.  The first condition is
there because `auditMutation` records the body as it was sent, passwords and keys included.  The
second is there because the error of a key that does not resolve names the variable that its
reference points to, and because the upstream sees the key and may answer one way or the other.

As long as the runs are discreet they are in the same state but for the password hashes (`masked`),
because an operator's own password is not audited.  A login sees the hashes, but shows no more than
whether it succeeds.
-/

set_option autoImplicit false

namespace Voxeltoad
namespace Admin

open Response
open Config hiding Op

/-! ## What a test shows -/

namespace Probe

/-- A probe, without the body where it is not shown: it is of an upstream that refuses the key, or
is broken. -/
def shown : Probe → Probe
  | .answered latency status snippet =>
    .answered latency status (if status = 401 ∨ status = 403 ∨ 500 ≤ status then snippet else "")
  | probe => probe

theorem shown_shown (probe : Probe) : probe.shown.shown = probe.shown := by
  cases probe with
  | invalidURL | unreachable => rfl
  | answered latency status snippet =>
    simp only [shown, answered.injEq, true_and]
    split <;> rfl

theorem result_shown (probe : Probe) : probe.shown.result = probe.result := by
  cases probe with
  | invalidURL | unreachable => rfl
  | answered latency status snippet =>
    by_cases hbody : status = 401 ∨ status = 403 ∨ 500 ≤ status
    · rw [shown, if_pos hbody]
    · obtain ⟨hrefused, hbroken⟩ := not_or.mp (mt or_assoc.mp hbody)
      rw [shown, if_neg hbody, result, result, if_neg hrefused, if_neg hrefused, if_neg hbroken,
        if_neg hbroken]

theorem status_result (latency : Int) (status : Nat) (snippet : String) :
    (answered latency status snippet).result.status = status ∧
      (answered latency status snippet).result.latencyMs = latency := by
  rw [result]
  split
  · exact ⟨rfl, rfl⟩
  · split <;> exact ⟨rfl, rfl⟩

end Probe

theorem bodySnippet_injective : bodySnippet.Injective := by
  intro snippet snippet' h
  have hne : ∀ s : String, ": " ++ s ≠ "" :=
    fun s hempty ↦ by simpa using congrArg String.toList hempty
  rw [bodySnippet, bodySnippet] at h
  split at h
  · rename_i hempty
    split at h
    · rename_i hempty'
      exact hempty.trans hempty'.symm
    · exact absurd h.symm (hne snippet')
  · split at h
    · exact absurd h (hne snippet)
    · have hlist := congrArg String.toList h
      rw [String.toList_append, String.toList_append, List.append_cancel_left_eq] at hlist
      exact String.toList_injective hlist

theorem Probe.result_ne_unresolved (probe : Probe) (msg : String) :
    probe.result ≠ unresolved msg := by
  intro h
  have hhead := congrArg (fun r : ConnResult ↦ (r.ok, r.error.toList.head?)) h
  cases probe with
  | invalidURL => simp [Probe.result, unresolved] at hhead
  | unreachable latency err => simp [Probe.result, unresolved] at hhead
  | answered latency status snippet =>
    simp only [Probe.result] at hhead
    split at hhead
    · simp [unresolved] at hhead
    · split at hhead <;> simp [unresolved] at hhead

theorem unresolved_injective : unresolved.Injective := by
  intro msg msg' h
  have herror := congrArg (fun r : ConnResult ↦ r.error.toList) h
  simp only [unresolved, String.toList_append, List.append_cancel_left_eq] at herror
  exact String.toList_injective herror

/-- The result of an answer that is not a good one has a status. -/
theorem Probe.status_ne_zero {latency : Int} {status : Nat} {snippet : String}
    (h : (answered latency status snippet).result.ok = false) :
    (answered latency status snippet).result.status ≠ 0 := by
  rw [result] at h ⊢
  split
  · rename_i hrefused
    rcases hrefused with rfl | rfl <;> simp
  · split
    · rename_i hbroken
      exact Nat.pos_iff_ne_zero.mp (lt_of_lt_of_le (by decide) hbroken)
    · rename_i hrefused hbroken
      rw [if_neg hrefused, if_neg hbroken] at h
      cases h

theorem Probe.shown_answered {latency : Int} {status : Nat} {snippet snippet' : String}
    (h : (answered latency status snippet).result = (answered latency status snippet').result) :
    (answered latency status snippet).shown = (answered latency status snippet').shown := by
  have herror := congrArg (fun r : ConnResult ↦ r.error.toList) h
  rw [result, result] at herror
  simp only [shown, answered.injEq, true_and]
  split
  · rename_i hbody
    have hsnippet : (bodySnippet snippet).toList = (bodySnippet snippet').toList := by
      by_cases hrefused : status = 401 ∨ status = 403
      · simpa [if_pos hrefused] using herror
      · have hbroken : 500 ≤ status := (or_assoc.mpr hbody).resolve_left hrefused
        simpa [if_neg hrefused, if_pos hbroken] using herror
    exact bodySnippet_injective (String.toList_injective hsnippet)
  · rfl

/-- The result of a probe tells all that is shown of it. -/
theorem Probe.result_injective {probe probe' : Probe} (h : probe.result = probe'.result) :
    probe.shown = probe'.shown := by
  have hhead := congrArg (fun r : ConnResult ↦ (r.ok, r.latencyMs, r.status, r.error.toList)) h
  cases probe with
  | invalidURL =>
    cases probe' with
    | invalidURL => rfl
    | unreachable latency err => simp [result] at hhead
    | answered latency status snippet =>
      exact absurd (congrArg ConnResult.status h).symm
        (status_ne_zero (congrArg ConnResult.ok h).symm)
  | unreachable latency err =>
    cases probe' with
    | invalidURL => simp [result] at hhead
    | unreachable latency' err' =>
      simp only [result, Prod.mk.injEq, String.toList_append, List.append_cancel_left_eq,
        true_and] at hhead
      obtain ⟨rfl, herr⟩ := hhead
      rw [String.toList_injective herr]
    | answered latency' status snippet =>
      exact absurd (congrArg ConnResult.status h).symm
        (status_ne_zero (congrArg ConnResult.ok h).symm)
  | answered latency status snippet =>
    cases probe' with
    | invalidURL | unreachable =>
      exact absurd (congrArg ConnResult.status h) (status_ne_zero (congrArg ConnResult.ok h))
    | answered latency' status' snippet' =>
      obtain ⟨hstatus, hlatency⟩ := status_result latency status snippet
      obtain ⟨hstatus', hlatency'⟩ := status_result latency' status' snippet'
      rw [h, hstatus'] at hstatus
      rw [h, hlatency'] at hlatency
      subst hstatus hlatency
      exact shown_answered h

namespace Server

variable {κ ρ : Type} {opts : Options κ ρ}

/-- The server without its password hashes. -/
def masked (s : Server ρ) : Server ρ := { s with db := s.db.masked }

theorem masked_eq {s s' : Server ρ} (h : s.masked = s'.masked) :
    s' = { s with db := s'.db } ∧ s'.db.masked = s.db.masked := by
  cases s
  cases s'
  simp only [masked, Server.mk.injEq] at h ⊢
  simp [h]

theorem masked_audit {s s' : Server ρ} (h : s.masked = s'.masked) (rows : List AuditRow) :
    ({ s with audit := rows } : Server ρ).masked = ({ s' with audit := rows } : Server ρ).masked :=
  (congrArg (fun t : Server ρ ↦ { t with audit := rows }) h :)

theorem tables_of_masked {s s' : Server ρ} (h : s.masked = s'.masked) : s.tables = s'.tables :=
  (congrArg Server.tables h :)

theorem audit_of_masked {s s' : Server ρ} (h : s.masked = s'.masked) : s.audit = s'.audit :=
  (congrArg Server.audit h :)

theorem responses_of_masked {s s' : Server ρ} (h : s.masked = s'.masked) :
    s.responses = s'.responses :=
  (congrArg Server.responses h :)

theorem masked_tables {s s' : Server ρ} (h : s.masked = s'.masked) (tables : Tables) :
    ({ s with tables := tables } : Server ρ).masked =
      ({ s' with tables := tables } : Server ρ).masked :=
  (congrArg (fun t : Server ρ ↦ { t with tables := tables }) h :)

theorem masked_responses {s s' : Server ρ} (h : s.masked = s'.masked)
    (responses : List (Response Body)) :
    ({ s with responses := responses } : Server ρ).masked =
      ({ s' with responses := responses } : Server ρ).masked :=
  (congrArg (fun t : Server ρ ↦ { t with responses := responses }) h :)

/-- The same answer, and the same server but for the hashes. -/
def Agree {α : Type} (x y : α × Server ρ) : Prop := x.1 = y.1 ∧ x.2.masked = y.2.masked

@[simp] theorem lookup_masked (s : Server ρ) (now : Int) (token : String) :
    s.masked.lookup now token = s.lookup now token := by
  simp only [lookup, masked, operatorByID_masked, Option.map_map]
  rfl

@[simp] theorem affectedTenant_masked (s : Server ρ) (resourceType resourceID : String) :
    s.masked.affectedTenant resourceType resourceID = s.affectedTenant resourceType resourceID := by
  have hop : ((s.db.operatorByEmail resourceID).map OperatorRow.masked).bind OperatorRow.tenantID =
      (s.db.operatorByEmail resourceID).bind OperatorRow.tenantID := by
    cases s.db.operatorByEmail resourceID <;> rfl
  simp only [affectedTenant, masked, operatorByEmail_masked, hop]
  rfl

/-- A login looks at the password and at the hash, and then at nothing but whether they agree. -/
theorem login_alike {s s' : Server ρ} (h : s.masked = s'.masked) (now : Int)
    (email password password' token : String)
    (hsuccess : (s.login opts now email password token).1.Success ↔
      (s'.login opts now email password' token).1.Success) :
    Agree (s.login opts now email password token) (s'.login opts now email password' token) := by
  obtain ⟨hs', hdb⟩ := masked_eq h
  generalize s'.db = db' at hs' hdb
  subst hs'
  have hop := operatorByEmail_masked db' email
  rw [hdb, operatorByEmail_masked] at hop
  have hlocked : ({ s with db := db' } : Server ρ).LockedOut now email ↔ s.LockedOut now email :=
    Iff.rfl
  simp only [login, hlocked] at hsuccess ⊢
  split
  · exact ⟨rfl, h⟩
  · rename_i hunlocked
    simp only [if_neg hunlocked] at hsuccess
    cases hvalid : (s.db.operatorByEmail email).filter fun op ↦
        opts.verifyPassword password op.passwordHash with
    | none =>
      cases hvalid' : (db'.operatorByEmail email).filter fun op ↦
          opts.verifyPassword password' op.passwordHash with
      | none => exact ⟨rfl, congrArg (fun t : Server ρ ↦ t.setFailures email _) h⟩
      | some op' => simp [hvalid, hvalid', Success, status, AppErr.invalidCredentials] at hsuccess
    | some op =>
      cases hvalid' : (db'.operatorByEmail email).filter fun op ↦
          opts.verifyPassword password' op.passwordHash with
      | none => simp [hvalid, hvalid', Success, status, AppErr.invalidCredentials] at hsuccess
      | some op' =>
        have hid : op.id = op'.id := by
          obtain ⟨hmem, -⟩ := Option.filter_eq_some_iff.mp hvalid
          obtain ⟨hmem', -⟩ := Option.filter_eq_some_iff.mp hvalid'
          rw [hmem, hmem', Option.map_some, Option.map_some, Option.some.injEq] at hop
          exact (congrArg OperatorRow.id hop : op.masked.id = op'.masked.id)
        refine ⟨rfl, ?_⟩
        simp only [masked, setFailures, hid, hdb]

variable (opts) in
/-- What a test of an unsaved provider comes to: an error, if its key does not resolve, or what the
upstream makes of the key, as far as that is shown. -/
def tested (s : Server ρ) : ApiCall κ → Option (Except String Probe)
  | .testConn req upstream =>
    match resolveConnRequestKey opts.env opts.service opts.decrypt s.tables req with
    | .error msg => some (.error msg)
    | .ok key => some (.ok (upstream (probeRequest req.adapter req.baseURL key)).shown)
  | _ => none

@[simp] theorem me_masked (op : Operator) (s : Server ρ) : s.masked.me op = s.me op := rfl

@[simp] theorem auditList_masked (op : Operator) (query : AuditQuery) (s : Server ρ) :
    s.masked.auditList op query = s.auditList op query := rfl

theorem revoked_masked (call : Call) : revoked call.masked = revoked call := by
  cases call <;> rfl

/-- The result of a test that comes to this. -/
def testResult : Except String Probe → ConnResult
  | .error msg => unresolved msg
  | .ok probe => probe.result

/-- The result of a test tells what it came to. -/
theorem testResult_injective {x x' : Except String Probe}
    (hshown : ∀ probe, x = .ok probe → probe.shown = probe)
    (hshown' : ∀ probe, x' = .ok probe → probe.shown = probe)
    (h : testResult x = testResult x') : x = x' := by
  cases x with
  | error msg =>
    cases x' with
    | error msg' => rw [unresolved_injective h]
    | ok probe' => exact absurd h.symm (probe'.result_ne_unresolved msg)
  | ok probe =>
    cases x' with
    | error msg' => exact absurd h (probe.result_ne_unresolved msg')
    | ok probe' => rw [← hshown probe rfl, ← hshown' probe' rfl, Probe.result_injective h]

variable (opts) in
theorem testConn_eq (req : ConnRequest) (upstream : Upstream) (s : Server ρ) :
    ∃ x : Except String Probe, s.tested opts (.testConn req upstream) = some x ∧
      (∀ probe, x = .ok probe → probe.shown = probe) ∧
      testConn opts.env opts.service opts.decrypt req upstream s.tables =
        if req.adapter ∉ ["openai", "claude"] then badRequest ("unknown adapter: " ++ req.adapter)
        else if req.baseURL = "" then badRequest "base_url is required"
        else .ok 200 "" (testResult x) := by
  rw [testConn, tested]
  cases resolveConnRequestKey opts.env opts.service opts.decrypt s.tables req with
  | error msg => exact ⟨.error msg, rfl, nofun, rfl⟩
  | ok key =>
    refine ⟨_, rfl, ?_, ?_⟩
    · rintro probe ⟨⟩
      exact Probe.shown_shown _
    · simp only [testResult, Probe.result_shown, probeProvider]

/-- Two tests that are alike and are not refused have the same result iff they come to the same. -/
theorem testConn_alike {req req' : ConnRequest} (h : req.masked = req'.masked) (upstream : Upstream)
    (s : Server ρ) :
    testConn opts.env opts.service opts.decrypt req upstream s.tables =
        testConn opts.env opts.service opts.decrypt req' upstream s.tables ↔
      ((testConn opts.env opts.service opts.decrypt req upstream s.tables).Success →
        s.tested opts (.testConn req upstream) = s.tested opts (.testConn req' upstream)) := by
  obtain ⟨name, adapter, baseURL, key, ref⟩ := req
  obtain ⟨name', adapter', baseURL', key', ref'⟩ := req'
  simp only [ConnRequest.masked, ConnRequest.mk.injEq] at h
  obtain ⟨rfl, rfl, rfl, -, -⟩ := h
  obtain ⟨x, hx, hshown, htest⟩ :=
    testConn_eq opts ⟨name, adapter, baseURL, key, ref⟩ upstream s
  obtain ⟨x', hx', hshown', htest'⟩ :=
    testConn_eq opts ⟨name, adapter, baseURL, key', ref'⟩ upstream s
  rw [htest, htest', hx, hx']
  dsimp only
  split
  · simp [badRequest, Success, status, AppErr.invalidBody]
  · split
    · simp [badRequest, Success, status, AppErr.invalidBody]
    · rw [Response.ok.injEq, Option.some.injEq]
      refine ⟨fun heq _ ↦ testResult_injective hshown hshown' heq.2.2, fun heq ↦ ⟨rfl, rfl, ?_⟩⟩
      rw [heq (by simp [Success, status])]

variable (opts) in
/-- A new password changes the hash of the operator, and nothing else. -/
theorem mePassword_eq (op : Operator) (password salt : String) (s : Server ρ) :
    (s.mePassword opts op password salt).1 =
        (if password = "" then badRequest "password is required"
        else if (s.db.operatorByID op.id).isSome then .ok 204 "" .empty
        else .error .operatorNotFound "") ∧
      (s.mePassword opts op password salt).2.masked = s.masked := by
  rw [mePassword]
  split
  · exact ⟨rfl, rfl⟩
  · obtain ⟨db', hupdate, hmasked⟩ :=
      updateOperator_password s.db op.id (opts.hashPassword salt password)
    rw [hupdate]
    cases s.db.operatorByID op.id with
    | none => exact ⟨rfl, rfl⟩
    | some row => exact ⟨rfl, by simp only [masked, Option.isSome_some, hmasked]⟩

theorem mePassword_alike {s s' : Server ρ} (h : s.masked = s'.masked) (op : Operator)
    {password password' : String} (hmask : maskSecret password = maskSecret password')
    (salt : String) :
    Agree (s.mePassword opts op password salt) (s'.mePassword opts op password' salt) := by
  obtain ⟨hreply, hnext⟩ := mePassword_eq opts op password salt s
  obtain ⟨hreply', hnext'⟩ := mePassword_eq opts op password' salt s'
  have hop : (s.db.operatorByID op.id).isSome = (s'.db.operatorByID op.id).isSome := by
    rw [← Option.isSome_map (f := OperatorRow.masked), ← operatorByID_masked, ← (masked_eq h).2,
      operatorByID_masked, Option.isSome_map]
  refine ⟨?_, by rw [hnext, hnext', h]⟩
  rw [hreply, hreply', hop]
  simp only [eq_empty_iff_of_maskSecret hmask]

theorem handle_alike {s s' : Server ρ} (h : s.masked = s'.masked) (now : Int) (op : Operator)
    {call call' : ApiCall κ} (hcall : call.Alike call')
    (hbody : (handle opts now op call s).1.Success →
      entry opts call = entry opts call' ∧ s.tested opts call = s'.tested opts call') :
    Agree (handle opts now op call s) (handle opts now op call' s') := by
  obtain ⟨hs', hdb⟩ := masked_eq h
  generalize s'.db = db' at hs' hdb
  subst hs'
  cases hcall with
  | identity hmask =>
    rename_i call call'
    have hsame : Prod.map id Db.masked (Admin.handle opts.hashPassword call s.db) =
        Prod.map id Db.masked (Admin.handle opts.hashPassword call' db') := by
      rw [← handle_masked, ← handle_masked, hmask, hdb]
    obtain ⟨hreply, hnext⟩ := Prod.ext_iff.mp hsame
    simp only [Prod.map_fst, Prod.map_snd, id] at hreply hnext
    have hrevoked : revoked call = revoked call' := by
      rw [← revoked_masked, hmask, revoked_masked]
    simp only [Agree, handle, masked, hreply, hnext, hrevoked, and_self]
  | config hconfig =>
    rename_i call call'
    have hsame : handleConfig opts.service call s.tables =
        handleConfig opts.service call' s.tables :=
      handleConfig_alike hconfig s.tables fun hs ↦ (hbody (success_map.mpr hs)).1
    simp only [Agree, handle, masked, hsame, hdb, and_self]
  | me =>
    refine ⟨?_, h⟩
    rw [handle, handle, ← me_masked, h, me_masked]
  | mePassword hmask salt => exact mePassword_alike h op hmask salt
  | testProvider name upstream => exact ⟨rfl, h⟩
  | testConn hmask upstream =>
    refine ⟨congrArg (Response.map Body.conn) ?_, h⟩
    exact (testConn_alike hmask upstream s).mpr fun hs ↦ (hbody (success_map.mpr hs)).2
  | audit query =>
    refine ⟨?_, h⟩
    rw [handle, handle, ← auditList_masked, h, auditList_masked]
  | other call =>
    have htenants : s.db.tenants = db'.tenants := by
      simpa only [Db.masked] using congrArg Db.tenants hdb.symm
    have hnext : ∀ tenants, ({ s.db with tenants := tenants } : Db).masked =
        ({ db' with tenants := tenants } : Db).masked := by
      intro tenants
      simpa only [Db.masked] using congrArg (fun db : Db ↦ { db with tenants := tenants }) hdb.symm
    simp only [Agree, handle, masked, htenants, hnext, and_self]

theorem auditTenant_alike {s s' t t' : Server ρ} (h : s.masked = s'.masked)
    (ht : t.masked = t'.masked) (now : Int) (op : Operator) {call call' : ApiCall κ}
    (hcall : call.Alike call') (e : AuditEntry) (resourceID : String) :
    auditTenant opts now op call e resourceID s t =
      auditTenant opts now op call' e resourceID s' t' := by
  have htenant : t.affectedTenant e.resourceType resourceID =
      t'.affectedTenant e.resourceType resourceID := by
    rw [← affectedTenant_masked, ht, affectedTenant_masked]
  cases hcall with
  | other call =>
    obtain ⟨hs', hdb⟩ := masked_eq h
    have htenants : s'.db.tenants = s.db.tenants := by
      simpa only [Db.masked] using congrArg Db.tenants hdb
    simp only [auditTenant]
    rw [htenants, hs']
  | identity | config | me | mePassword | testProvider | testConn | audit => exact htenant

theorem auditMutation_alike {s s' t t' : Server ρ} (h : s.masked = s'.masked)
    (ht : t.masked = t'.masked) (now : Int) (op : Operator) {call call' : ApiCall κ}
    (hcall : call.Alike call') (r : Response Body)
    (hbody : r.Success → entry opts call = entry opts call') :
    (auditMutation opts now op call r s t).masked =
      (auditMutation opts now op call' r s' t').masked := by
  have haudit : t.audit = t'.audit := by
    simpa only [masked] using congrArg Server.audit ht
  unfold auditMutation
  by_cases hsuccess : r.Success
  · rw [← hbody hsuccess]
    cases entry opts call with
    | none => exact ht
    | some e =>
      simp only [if_pos hsuccess, auditTenant_alike h ht now op hcall e r.resourceID, haudit]
      exact masked_audit ht _
  · simp only [if_neg hsuccess]
    cases entry opts call <;> cases entry opts call' <;> exact ht

theorem superAdminOnly_alike {call call' : ApiCall κ} (h : call.Alike call') :
    superAdminOnly opts call = superAdminOnly opts call' := by
  cases h <;> rfl

theorem api_alike {s s' : Server ρ} (h : s.masked = s'.masked) (now : Int)
    (bearer : Option String) {call call' : ApiCall κ} (hcall : call.Alike call')
    (hbody : (s.api opts now bearer call).1.Success →
      entry opts call = entry opts call' ∧ s.tested opts call = s'.tested opts call') :
    Agree (s.api opts now bearer call) (s'.api opts now bearer call') := by
  cases bearer with
  | none => exact ⟨rfl, h⟩
  | some token =>
    have hlookup : s'.lookup now token = s.lookup now token := by
      rw [← lookup_masked, ← h, lookup_masked]
    simp only [api, hlookup, ← superAdminOnly_alike hcall] at hbody ⊢
    cases hop : s.lookup now token with
    | none => exact ⟨rfl, h⟩
    | some op =>
      simp only [hop] at hbody ⊢
      split
      · exact ⟨rfl, h⟩
      · rename_i hallowed
        rw [if_neg hallowed] at hbody
        obtain ⟨hr, hnext⟩ := handle_alike h now op hcall hbody
        refine ⟨hr, ?_⟩
        dsimp only
        rw [← hr]
        exact auditMutation_alike h hnext now op hcall _ fun hs ↦ (hbody hs).1

/-! ## Two runs -/

variable (opts) in
/-- The event is answered, with a 2xx status. -/
def Succeeds (s : Server ρ) (e : Event κ) : Prop := ∃ r ∈ (s.serve opts e).1, r.Success

instance (s : Server ρ) (e : Event κ) : Decidable (s.Succeeds opts e) :=
  inferInstanceAs (Decidable (∃ r ∈ (s.serve opts e).1, r.Success))

variable (opts) in
/-- The same requests succeed. -/
def SameSuccess (p : Server ρ × Server ρ) (e : Event κ × Event κ) : Prop :=
  p.1.Succeeds opts e.1 ↔ p.2.Succeeds opts e.2

instance (p : Server ρ × Server ρ) (e : Event κ × Event κ) : Decidable (SameSuccess opts p e) :=
  inferInstanceAs (Decidable (_ ↔ _))

variable (opts) in
/-- Two requests that succeed have the same body, if it is audited, and come to the same, if an
unsaved provider is tested. -/
def Discreet (p : Server ρ × Server ρ) (e : Event κ × Event κ) : Prop :=
  match e.1, e.2 with
  | .api now bearer call, .api _ _ call' =>
    p.1.Succeeds opts (.api now bearer call) →
      entry opts call = entry opts call' ∧ p.1.tested opts call = p.2.tested opts call'
  | _, _ => True

/-- **One step of two runs.** -/
theorem step_alike {s s' : Server ρ} (h : s.masked = s'.masked) {e e' : Event κ} (he : e.Alike e')
    (hsuccess : s.Succeeds opts e ↔ s'.Succeeds opts e')
    (hdiscreet : Discreet opts (s, s') (e, e')) :
    (s.step opts e).masked = (s'.step opts e').masked := by
  suffices hserve : Agree (s.serve opts e) (s'.serve opts e') by
    obtain ⟨hr, hnext⟩ := hserve
    have hresponses : (s.serve opts e).2.responses = (s'.serve opts e').2.responses := by
      simpa only [masked] using congrArg Server.responses hnext
    simp only [step, hr, hresponses]
    exact masked_responses hnext _
  cases he with
  | login now email password password' token =>
    have hlogin := login_alike h now email password password' token
      (by simpa [Succeeds, serve] using hsuccess)
    exact ⟨congrArg some hlogin.1, hlogin.2⟩
  | api now bearer hcall =>
    have hapi := api_alike h now bearer hcall
      (fun hs ↦ hdiscreet ⟨_, rfl, hs⟩)
    exact ⟨congrArg some hapi.1, hapi.2⟩
  | save =>
    have htables : s.tables = s'.tables := by
      simpa only [masked] using congrArg Server.tables h
    simp only [serve, htables]
    exact ⟨rfl, masked_tables h _⟩

/-! ## What a step leaves -/

section Trail

variable (opts)

theorem handle_audit (now : Int) (op : Operator) (call : ApiCall κ) (s : Server ρ) :
    (handle opts now op call s).2.audit = s.audit := by
  cases call with
  | mePassword password salt =>
    simp only [handle, mePassword]
    split
    · rfl
    · split <;> rfl
  | identity | config | me | testProvider | testConn | audit | other => rfl

theorem handle_responses (now : Int) (op : Operator) (call : ApiCall κ) (s : Server ρ) :
    (handle opts now op call s).2.responses = s.responses := by
  cases call with
  | mePassword password salt =>
    simp only [handle, mePassword]
    split
    · rfl
    · split <;> rfl
  | identity | config | me | testProvider | testConn | audit | other => rfl

/-- The entry of an event, if it is audited. -/
def eventEntry : Event κ → Option AuditEntry
  | .api _ _ call => entry opts call
  | .login _ _ _ _ | .save => none

/-- A request is refused by the middleware, or handled for an operator and audited. -/
theorem api_cases (now : Int) (bearer : Option String) (call : ApiCall κ) (s : Server ρ) :
    (∃ e : AppErr, ¬ (.error e "" : Response Body).Success ∧
        s.api opts now bearer call = (.error e "", s)) ∨
      ∃ op, s.api opts now bearer call =
        ((handle opts now op call s).1,
          auditMutation opts now op call (handle opts now op call s).1 s
            (handle opts now op call s).2) := by
  cases bearer with
  | none => exact .inl ⟨.missingBearerToken, by decide, rfl⟩
  | some token =>
    cases hop : s.lookup now token with
    | none =>
      refine .inl ⟨.invalidSession, by decide, ?_⟩
      simp only [api, hop]
    | some op =>
      by_cases hallowed : superAdminOnly opts call ∧ wildcard ∉ op.permissions
      · refine .inl ⟨.superAdminRequired, by decide, ?_⟩
        simp only [api, hop, if_pos hallowed]
      · refine .inr ⟨op, ?_⟩
        simp only [api, hop, if_neg hallowed]

/-- The rows that a request adds to the audit trail. -/
theorem api_audit (now : Int) (bearer : Option String) (call : ApiCall κ) (s : Server ρ) :
    ∃ rows : List AuditRow, (s.api opts now bearer call).2.audit = s.audit ++ rows ∧
      rows.map AuditRow.toAuditEntry =
        if (s.api opts now bearer call).1.Success then (entry opts call).toList else [] := by
  obtain ⟨e, hfail, hrefused⟩ | ⟨op, hhandled⟩ := api_cases opts now bearer call s
  · rw [hrefused]
    exact ⟨[], (List.append_nil _).symm, (if_neg hfail).symm⟩
  · have haudit := handle_audit opts now op call s
    rw [hhandled]
    dsimp only [auditMutation]
    by_cases hsuccess : (handle opts now op call s).1.Success
    · cases entry opts call with
      | none => exact ⟨[], by rw [haudit, List.append_nil], by simp⟩
      | some e => exact ⟨_, by simp only [if_pos hsuccess, haudit]; rfl, by simp [hsuccess]⟩
    · refine ⟨[], ?_, by simp [hsuccess]⟩
      cases entry opts call <;> simp [hsuccess, haudit]

theorem api_responses (now : Int) (bearer : Option String) (call : ApiCall κ) (s : Server ρ) :
    (s.api opts now bearer call).2.responses = s.responses := by
  obtain ⟨e, -, hrefused⟩ | ⟨op, hhandled⟩ := api_cases opts now bearer call s
  · rw [hrefused]
  · rw [hhandled, ← handle_responses opts now op call s]
    dsimp only [auditMutation]
    cases entry opts call with
    | none => rfl
    | some e =>
      dsimp only
      split <;> rfl

theorem login_audit (now : Int) (email password token : String) (s : Server ρ) :
    (s.login opts now email password token).2.audit = s.audit ∧
      (s.login opts now email password token).2.responses = s.responses := by
  simp only [login]
  split
  · exact ⟨rfl, rfl⟩
  · split <;> exact ⟨rfl, rfl⟩

theorem step_responses (s : Server ρ) (e : Event κ) :
    (s.step opts e).responses = s.responses ++ (s.serve opts e).1.toList := by
  cases e with
  | login now email password token =>
    exact congrArg (· ++ _) (login_audit opts now email password token s).2
  | api now bearer call => exact congrArg (· ++ _) (api_responses opts now bearer call s)
  | save => rfl

theorem succeeds_api (s : Server ρ) {now : Int} {bearer : Option String} {call : ApiCall κ} :
    s.Succeeds opts (.api now bearer call) ↔ (s.api opts now bearer call).1.Success := by
  simp [Succeeds, serve]

theorem step_audit (s : Server ρ) (e : Event κ) :
    ∃ rows : List AuditRow, (s.step opts e).audit = s.audit ++ rows ∧
      (s.Succeeds opts e → rows.map AuditRow.toAuditEntry = (eventEntry opts e).toList) ∧
      (¬ s.Succeeds opts e → rows = []) := by
  cases e with
  | login now email password token =>
    refine ⟨[], ?_, fun _ ↦ rfl, fun _ ↦ rfl⟩
    rw [List.append_nil]
    exact (login_audit opts now email password token s).1
  | api now bearer call =>
    obtain ⟨rows, haudit, hentry⟩ := api_audit opts now bearer call s
    refine ⟨rows, haudit, fun hs ↦ ?_, fun hs ↦ ?_⟩
    · rw [hentry, if_pos ((succeeds_api opts s).mp hs)]
      rfl
    · rw [if_neg fun h ↦ hs ((succeeds_api opts s).mpr h), List.map_eq_nil_iff] at hentry
      exact hentry
  | save => exact ⟨[], (List.append_nil _).symm, fun _ ↦ rfl, fun _ ↦ rfl⟩

theorem run_trail (s : Server ρ) (evs : List (Event κ)) :
    s.audit <+: (Run.run (step opts) s evs).audit ∧
      s.responses <+: (Run.run (step opts) s evs).responses := by
  induction evs generalizing s with
  | nil => exact ⟨List.prefix_rfl, List.prefix_rfl⟩
  | cons e evs ih =>
    obtain ⟨haudit, hresponses⟩ := ih (s.step opts e)
    obtain ⟨rows, hrows, -⟩ := step_audit opts s e
    refine ⟨List.IsPrefix.trans ⟨rows, hrows.symm⟩ haudit, ?_⟩
    exact List.IsPrefix.trans ⟨_, (step_responses opts s e).symm⟩ hresponses

end Trail

theorem eventEntry_alike {e e' : Event κ} (h : e.Alike e') :
    (eventEntry opts e).isSome = (eventEntry opts e').isSome := by
  have hmask : ∀ call : Call, call.masked.entry.isSome = call.entry.isSome := by
    intro call
    cases call <;> rfl
  cases h with
  | login | save => rfl
  | api now bearer hcall =>
    cases hcall with
    | identity hcall =>
      simp only [eventEntry, entry]
      rw [← hmask, hcall, hmask]
    | config hcall => cases hcall <;> rfl
    | me | mePassword | testProvider | testConn | audit | other => rfl

theorem serve_alike {s s' : Server ρ} {e e' : Event κ} (h : e.Alike e') :
    (s.serve opts e).1.isSome = (s'.serve opts e').1.isSome := by
  cases h <;> rfl

/-- Two steps add as many rows and as many answers as each other. -/
theorem step_trail_length {s s' : Server ρ} (h : s.masked = s'.masked) {e e' : Event κ}
    (he : e.Alike e') (hsuccess : s.Succeeds opts e ↔ s'.Succeeds opts e') :
    (s.step opts e).audit.length = (s'.step opts e').audit.length ∧
      (s.step opts e).responses.length = (s'.step opts e').responses.length := by
  constructor
  · obtain ⟨rows, hrows, hentry, hnil⟩ := step_audit opts s e
    obtain ⟨rows', hrows', hentry', hnil'⟩ := step_audit opts s' e'
    rw [hrows, hrows', audit_of_masked h, List.length_append, List.length_append]
    congr 1
    by_cases hs : s.Succeeds opts e
    · rw [← List.length_map AuditRow.toAuditEntry, hentry hs,
        ← List.length_map AuditRow.toAuditEntry, hentry' (hsuccess.mp hs), Option.length_toList,
        Option.length_toList, eventEntry_alike he]
    · rw [hnil hs, hnil' fun hs' ↦ hs (hsuccess.mpr hs')]
  · rw [step_responses, step_responses, responses_of_masked h, List.length_append,
      List.length_append, Option.length_toList, Option.length_toList, serve_alike he]

theorem api_testConn {s : Server ρ} {now : Int} {bearer : Option String} {req : ConnRequest}
    {upstream : Upstream} (h : (s.api opts now bearer (.testConn req upstream)).1.Success) :
    (s.api opts now bearer (.testConn req upstream)).1 =
      (testConn opts.env opts.service opts.decrypt req upstream s.tables).map .conn := by
  obtain ⟨e, hfail, hrefused⟩ | ⟨op, hhandled⟩ :=
    api_cases opts now bearer (.testConn req upstream) s
  · rw [hrefused] at h
    exact absurd h hfail
  · rw [hhandled]
    rfl

theorem discreet_of_trail {s s' : Server ρ} (h : s.masked = s'.masked) {e e' : Event κ}
    (he : e.Alike e') (hsuccess : s.Succeeds opts e ↔ s'.Succeeds opts e')
    (haudit : (s.step opts e).audit = (s'.step opts e').audit)
    (hresponses : (s.step opts e).responses = (s'.step opts e').responses) :
    Discreet opts (s, s') (e, e') := by
  cases he with
  | login | save => trivial
  | api now bearer hcall =>
    rename_i call call'
    intro hs
    constructor
    · obtain ⟨rows, hrows, hentry, -⟩ := step_audit opts s (.api now bearer call)
      obtain ⟨rows', hrows', hentry', -⟩ := step_audit opts s' (.api now bearer call')
      rw [hrows, hrows', audit_of_masked h, List.append_cancel_left_eq] at haudit
      have hlist := hentry hs
      rw [haudit, hentry' (hsuccess.mp hs)] at hlist
      simpa only [Option.head?_toList, eventEntry] using congrArg List.head? hlist.symm
    · rw [step_responses, step_responses, responses_of_masked h, List.append_cancel_left_eq]
        at hresponses
      cases hcall with
      | testConn hmask upstream =>
        rename_i req req'
        have hr : (s.api opts now bearer (.testConn req upstream)).1 =
            (s'.api opts now bearer (.testConn req' upstream)).1 :=
          List.singleton_inj.mp hresponses
        have hok := (succeeds_api opts s).mp hs
        rw [api_testConn ((succeeds_api opts s').mp (hsuccess.mp hs)), api_testConn hok,
          ← tables_of_masked h] at hr
        rw [api_testConn hok, success_map] at hok
        have hkey := (testConn_alike hmask upstream s).mp
          (map_injective (fun _ _ ↦ Body.conn.inj) hr) hok
        simpa only [tested, tables_of_masked h] using hkey
      | identity | config | me | mePassword | testProvider | audit | other => rfl

/-- Prefixes of one list that are as long as each other. -/
theorem prefix_eq {α : Type} {xs ys zs zs' : List α} (hx : xs <+: zs) (hy : ys <+: zs')
    (hz : zs = zs') (hlen : xs.length = ys.length) : xs = ys := by
  obtain ⟨us, rfl⟩ := hx
  obtain ⟨vs, rfl⟩ := hy
  exact (List.append_inj hz hlen).1

theorem run_alike_iff {s s' : Server ρ} (h : s.masked = s'.masked) (evs : List (Event κ × Event κ))
    (halike : ∀ e ∈ evs, e.1.Alike e.2)
    (hsuccess : Run.Along (Run.both (step opts)) (SameSuccess opts) (s, s') evs) :
    (((Run.run (step opts) s (evs.map Prod.fst)).audit =
        (Run.run (step opts) s' (evs.map Prod.snd)).audit ∧
      (Run.run (step opts) s (evs.map Prod.fst)).responses =
        (Run.run (step opts) s' (evs.map Prod.snd)).responses) ↔
      Run.Along (Run.both (step opts)) (Discreet opts) (s, s') evs) := by
  induction evs generalizing s s' with
  | nil =>
    exact ⟨fun _ ↦ trivial, fun _ ↦ ⟨audit_of_masked h, responses_of_masked h⟩⟩
  | cons e evs ih =>
    have he := halike e (List.mem_cons_self ..)
    have hrest := fun e' he' ↦ halike e' (List.mem_cons_of_mem _ he')
    constructor
    · rintro ⟨haudit, hresponses⟩
      obtain ⟨haudit₁, hresponses₁⟩ := run_trail opts (s.step opts e.1) (evs.map Prod.fst)
      obtain ⟨haudit₂, hresponses₂⟩ := run_trail opts (s'.step opts e.2) (evs.map Prod.snd)
      obtain ⟨hrows, hanswers⟩ := step_trail_length h he hsuccess.1
      have hdiscreet : Discreet opts (s, s') e := by
        refine discreet_of_trail h he hsuccess.1 ?_ ?_
        · exact prefix_eq haudit₁ haudit₂ haudit hrows
        · exact prefix_eq hresponses₁ hresponses₂ hresponses hanswers
      exact ⟨hdiscreet, (ih (step_alike h he hsuccess.1 hdiscreet) hrest hsuccess.2).mp
        ⟨haudit, hresponses⟩⟩
    · rintro ⟨hdiscreet, hrun⟩
      exact (ih (step_alike h he hsuccess.1 hdiscreet) hrest hsuccess.2).mpr hrun

/-- **Secrets and what can be seen.**  Two runs from one state that differ in their secrets alone,
and in which the same requests succeed, have the same audit trail and the same answers iff they are
discreet. -/
theorem secrets_hidden_iff (opts : Options κ ρ) (s : Server ρ) (evs : List (Event κ × Event κ))
    (halike : ∀ e ∈ evs, e.1.Alike e.2)
    (hsuccess : Run.Along (Run.both (step opts)) (SameSuccess opts) (s, s) evs) :
    (((Run.run (step opts) s (evs.map Prod.fst)).audit =
        (Run.run (step opts) s (evs.map Prod.snd)).audit ∧
      (Run.run (step opts) s (evs.map Prod.fst)).responses =
        (Run.run (step opts) s (evs.map Prod.snd)).responses) ↔
      Run.Along (Run.both (step opts)) (Discreet opts) (s, s) evs) :=
  run_alike_iff rfl evs halike hsuccess

/-! ## Samples -/

/-- No remaining endpoints, no environment, and a cipher that runs. -/
def sampleOptions : Options Empty Unit where
  hashPassword := sampleHash
  verifyPassword := fun password hash ↦ hash = sampleHash "salt" password
  env := fun _ ↦ none
  service := none
  decrypt := fun _ ↦ .error "credential/aesgcm: decrypt failed"
  other := nofun
  otherEntry := nofun
  otherSuperAdmin := nofun

/-- The operator of the bootstrap is logged in. -/
def sample : Server Unit where
  db := seeded
  tables := .empty
  sessions := [⟨"token", 1, 100⟩]
  failures := fun _ ↦ none
  audit := []
  rest := ()
  responses := []

/-- A provider with a key in the clear. -/
def plainProvider (key : String) : ProviderRequest :=
  ⟨{ Config.Provider.sample with apiKeyRef := "plain://" ++ key }, ""⟩

/-- An operator is created with a password and a provider with a key.  The weight of the provider is
changed, and the saved version is read from the history. -/
def shown (secret : String) : List (Event Empty) :=
  [.api 0 (some "token")
      (.identity (.postOperator ⟨"ops@example.com", secret, "super-admin", 0, none⟩ "salt")),
    .api 1 (some "token") (.config (.postProvider (plainProvider secret) [])),
    .save,
    .api 2 (some "token") (.config (.patchProvider "openai-prod" ⟨none, none, none, none, some 2⟩)),
    .api 3 (some "token") (.config (.version (some 1)))]

/-- The audit trail has the password and the key, and the last two answers have the key. -/
theorem secrets_shown :
    let evs := (shown "a").zip (shown "b")
    let s := Run.run (step sampleOptions) sample (evs.map Prod.fst)
    let s' := Run.run (step sampleOptions) sample (evs.map Prod.snd)
    (∀ e ∈ evs, e.1.Alike e.2) ∧
      Run.Along (Run.both (step sampleOptions)) (SameSuccess sampleOptions) (sample, sample) evs ∧
      (∀ row ∈ s.audit.take 2, row ∉ s'.audit) ∧ ∀ r ∈ s.responses.drop 2, r ∉ s'.responses := by
  refine ⟨?_, by decide, by decide, by decide⟩
  intro e he
  simp only [shown, List.zip_cons_cons, List.zip_nil_right, List.mem_cons, List.not_mem_nil,
    or_false] at he
  rcases he with rfl | rfl | rfl | rfl | rfl
  · exact .api _ _ (.identity (by decide))
  · exact .api _ _ (.config (.postProvider (by decide) _))
  · exact .save
  · exact .api _ _ (.config (.refl _))
  · exact .api _ _ (.config (.refl _))

/-- The operator changes its own password and logs in with it; a login with a wrong one fails, and a
preview has a key. -/
def hidden (secret : String) : List (Event Empty) :=
  [.api 0 (some "token") (.mePassword secret "salt"),
    .login 1 "root@example.com" secret "another",
    .login 2 "root@example.com" ("not " ++ secret) "third",
    .api 3 (some "another") (.config (.preview
      ⟨"1", [(plainProvider secret).provider], [], [], [], none⟩))]

theorem secrets_hidden_sample :
    let evs := (hidden "a").zip (hidden "b")
    (Run.run (step sampleOptions) sample (evs.map Prod.fst)).audit =
        (Run.run (step sampleOptions) sample (evs.map Prod.snd)).audit ∧
      (Run.run (step sampleOptions) sample (evs.map Prod.fst)).responses =
        (Run.run (step sampleOptions) sample (evs.map Prod.snd)).responses := by
  refine (secrets_hidden_iff sampleOptions sample _ ?_ (by decide)).mpr ?_
  · intro e he
    simp only [hidden, List.zip_cons_cons, List.zip_nil_right, List.mem_cons, List.not_mem_nil,
      or_false] at he
    rcases he with rfl | rfl | rfl | rfl
    · exact .api _ _ (.mePassword (by decide) _)
    · exact .login ..
    · exact .login ..
    · exact .api _ _ (.config (.preview (by decide +kernel)))
  · exact ⟨fun _ ↦ ⟨rfl, rfl⟩, trivial, trivial, fun _ ↦ ⟨rfl, rfl⟩, trivial⟩

end Server

end Admin
end Voxeltoad
