import Voxeltoad.Admin.Scope
import Voxeltoad.Admin.Secrecy

/-!
# Who is signed in

`SessionRepo` of `internal/store/operator.go`, seen from outside.  A token stands for an operator
exactly as long as its login is less than twelve hours old and the operator exists: `SignedIn`
speaks of the logins of a run, and `signed_in` relates it to what `Lookup` answers.  Nothing else
ends a session, neither a new password nor another role, and what the operator may do is read at
each request.

Deleting an operator ends its sessions for good, because the id of an operator is never given out
again (`Onward`).
-/

set_option autoImplicit false

namespace Voxeltoad
namespace Admin

/-! ## Operators that are gone -/

/-- An operator that is gone stays so. -/
structure Onward (db db' : Db) : Prop where
  wf : db.WF → db'.WF
  seq : db.operatorSeq ≤ db'.operatorSeq
  gone : ∀ id < db.operatorSeq, db.operatorByID id = none → db'.operatorByID id = none

theorem Onward.refl (db : Db) : Onward db db := ⟨fun h ↦ h, le_rfl, fun _ _ h ↦ h⟩

/-- A write that leaves the operators alone. -/
theorem Onward.of_operators {db db' : Db} (hwf : db.WF → db'.WF)
    (hops : db'.operators = db.operators) (hseq : db'.operatorSeq = db.operatorSeq) :
    Onward db db' := by
  refine ⟨hwf, hseq.ge, fun id _ hgone ↦ ?_⟩
  rw [Db.operatorByID, hops]
  exact hgone

/-- A write to a row that keeps its id. -/
theorem Onward.modify {db : Db} {id : Int} {f : OperatorRow → OperatorRow}
    (hf : ∀ op, (f op).id = op.id) :
    Onward db { db with operators := Table.modify OperatorRow.id id f db.operators } := by
  refine ⟨fun hwf ↦ ?_, le_rfl, fun j _ hgone ↦ ?_⟩
  · refine { hwf with operatorIDs := hwf.operatorIDs.modify hf, operatorSeq := fun op hop ↦ ?_ }
    obtain ⟨op₀, hop₀, rfl⟩ := Table.mem_modify.mp hop
    have hseq := hwf.operatorSeq op₀ hop₀
    split
    · rwa [hf]
    · exact hseq
  · rw [Db.operatorByID, Table.find_modify hf, ← Db.operatorByID, hgone, Option.map_none]

theorem operatorByID_deleteOperator (db : Db) (id : Int) :
    (db.deleteOperator id).operatorByID id = none := by
  refine Table.find_eq_none_iff.mpr fun op hop ↦ ?_
  simpa using (List.mem_filter.mp hop).2

/-- Operator `DELETE` succeeds when the operator is deleted. -/
theorem deleteOperator_gone {db : Db} {id : Int} (h : (deleteOperator (some id) db).1.Success) :
    (deleteOperator (some id) db).2.operatorByID id = none := by
  rw [deleteOperator] at h ⊢
  cases hop : db.operatorByID id with
  | none => exact hop
  | some target =>
    rw [hop] at h
    dsimp only at h ⊢
    split at h
    · simp [Response.Success, Response.status, AppErr.lastSuperAdmin] at h
    · rename_i hlast
      rw [if_neg hlast]
      exact operatorByID_deleteOperator db id

@[simp] theorem describeRole_operatorSeq (db : Db) (id : Int) (description : Option String) :
    (db.describeRole id description).operatorSeq = db.operatorSeq := by
  cases description <;> rfl

theorem Effect.onward {hashPassword : String → String → String} {db db' : Db} {call : Call}
    (heff : Effect hashPassword db call db') : Onward db db' := by
  have hwf : db.WF → db'.WF := heff.wf
  cases heff with
  | unchanged => exact .refl db
  | created hrole hr =>
    refine ⟨hwf, (lt_add_one _).le, fun id hid hgone ↦ ?_⟩
    rw [Db.operatorByID, Table.find_append, ← Db.operatorByID, hgone, Option.none_or]
    refine Table.find_eq_none_iff.mpr fun op hop ↦ ?_
    rw [List.mem_singleton.mp hop]
    exact hid.ne'
  | updated => exact .modify fun _ ↦ rfl
  | deleted hlast =>
    refine ⟨hwf, le_rfl, fun id _ hgone ↦ ?_⟩
    refine Table.find_eq_none_iff.mpr fun op hop ↦ ?_
    exact Table.find_eq_none_iff.mp hgone op (List.mem_filter.mp hop).1
  | roleCreated => exact .of_operators hwf rfl rfl
  | described => exact .of_operators hwf (by simp) (by simp)
  | granted => exact .of_operators hwf (by simp) (by simp)
  | roleDeleted => exact .of_operators hwf rfl rfl

/-- A new password is written to the row of the operator. -/
theorem updateOperator_onward {db db' : Db} {id : Int} {hash : String} {found : Bool}
    (h : db.updateOperator id "" hash none none = .ok (found, db')) : Onward db db' := by
  obtain ⟨-, -, rfl⟩ | ⟨-, -, -, rfl⟩ := updateOperator_ok_iff.mp h
  · exact .refl _
  · exact .modify fun _ ↦ rfl

/-- The token a login draws. -/
def Event.token {κ : Type} : Event κ → Option String
  | .login _ _ _ token => some token
  | .api _ _ _ | .save => none

namespace Server

variable {κ ρ : Type} (opts : Options κ ρ)

/-! ## Logins -/

/-- An event hands out `token` to operator `id`, at `start`. -/
def Grants (s : Server ρ) (e : Event κ) (token : String) (id start : Int) : Prop :=
  ∃ email password, e = .login start email password token ∧ ¬ s.LockedOut start email ∧
    ∃ op ∈ s.db.operatorByEmail email, opts.verifyPassword password op.passwordHash = true ∧
    op.id = id

/-- In the run `evs`, `token` was handed out to operator `id`, at `start`. -/
def SignedIn (s₀ : Server ρ) (evs : List (Event κ)) (token : String) (id start : Int) : Prop :=
  ∃ before e after, evs = before ++ e :: after ∧
    (Run.run (step opts) s₀ before).Grants opts e token id start

/-- Who `token` speaks for after the run `evs`: an operator that signed in with it less than twelve
hours ago, with the row and the permissions that it has now. -/
def Speaks (s₀ : Server ρ) (evs : List (Event κ)) (now : Int) (token : String)
    (op : Operator) : Prop :=
  ∃ start row, SignedIn opts s₀ evs token row.id start ∧ now < start + sessionTTL ∧
    row ∈ (Run.run (step opts) s₀ evs).db.operators ∧ op = (Run.run (step opts) s₀ evs).db.load row

/-- The state that an event leaves differs in more than failed logins, new sessions and a
snapshot. -/
def Alters (s : Server ρ) (e : Event κ) : Prop :=
  (s.step opts e).db ≠ s.db ∨ (s.step opts e).rest ≠ s.rest ∨ (s.step opts e).audit ≠ s.audit ∨
    (∃ x ∈ s.sessions, x ∉ (s.step opts e).sessions) ∨
    ((s.step opts e).tables ≠ s.tables ∧ e ≠ .save)

variable {opts} {s s₀ : Server ρ} {evs : List (Event κ)} {token : String} {id start : Int}

theorem Grants.drawn {e : Event κ} (h : s.Grants opts e token id start) : e.token = some token := by
  obtain ⟨email, password, rfl, -⟩ := h
  rfl

theorem Grants.unique {e : Event κ} {token' : String} {id' start' : Int}
    (h : s.Grants opts e token id start) (h' : s.Grants opts e token' id' start') :
    token = token' ∧ id = id' ∧ start = start' := by
  obtain ⟨email, password, rfl, -, op, hop, -, rfl⟩ := h
  obtain ⟨email', password', heq, -, op', hop', -, rfl⟩ := h'
  cases heq
  rw [Option.mem_unique hop hop']
  exact ⟨rfl, rfl, rfl⟩

theorem signedIn_nil : ¬ SignedIn opts s₀ [] token id start := by
  rintro ⟨before, e, after, heq, -⟩
  simp at heq

theorem signedIn_concat {e : Event κ} : SignedIn opts s₀ (evs ++ [e]) token id start ↔
    SignedIn opts s₀ evs token id start ∨
    (Run.run (step opts) s₀ evs).Grants opts e token id start := by
  constructor
  · rintro ⟨before, e', after, heq, hgrants⟩
    rcases List.eq_nil_or_concat after with rfl | ⟨after, last, rfl⟩
    · obtain ⟨rfl, he⟩ := List.append_inj' heq rfl
      cases he
      exact .inr hgrants
    · rw [List.concat_eq_append, ← List.cons_append, ← List.append_assoc] at heq
      obtain ⟨rfl, -⟩ := List.append_inj' heq rfl
      exact .inl ⟨before, e', after, rfl, hgrants⟩
  · rintro (⟨before, e', after, rfl, hgrants⟩ | hgrants)
    · exact ⟨before, e', after ++ [e], by simp, hgrants⟩
    · exact ⟨evs, e, [], rfl, hgrants⟩

theorem SignedIn.append (h : SignedIn opts s₀ evs token id start) (later : List (Event κ)) :
    SignedIn opts s₀ (evs ++ later) token id start := by
  obtain ⟨before, e, after, rfl, hgrants⟩ := h
  exact ⟨before, e, after ++ later, by simp, hgrants⟩

theorem SignedIn.mem (h : SignedIn opts s₀ evs token id start) :
    token ∈ evs.filterMap Event.token := by
  obtain ⟨before, e, after, rfl, hgrants⟩ := h
  exact List.mem_filterMap.mpr ⟨e, by simp, hgrants.drawn⟩

/-- A token that is drawn once is handed out once. -/
theorem SignedIn.unique {id' start' : Int} (htokens : (evs.filterMap Event.token).Nodup)
    (h : SignedIn opts s₀ evs token id start) (h' : SignedIn opts s₀ evs token id' start') :
    id = id' ∧ start = start' := by
  induction evs using List.reverseRecOn with
  | nil => exact absurd h signedIn_nil
  | append_singleton evs e ih =>
    rw [List.filterMap_append] at htokens
    have hnew : ∀ {id start : Int}, SignedIn opts s₀ evs token id start → e.token ≠ some token := by
      intro id start hold htoken
      refine List.disjoint_of_nodup_append htokens hold.mem ?_
      exact List.mem_filterMap.mpr ⟨e, List.mem_singleton_self e, htoken⟩
    rcases signedIn_concat.mp h with hold | hgrants
    · rcases signedIn_concat.mp h' with hold' | hgrants'
      · exact ih (List.Nodup.of_append_left htokens) hold hold'
      · exact absurd hgrants'.drawn (hnew hold)
    · rcases signedIn_concat.mp h' with hold' | hgrants'
      · exact absurd hgrants.drawn (hnew hold')
      · exact (hgrants.unique hgrants').2

/-! ## What an event does to the sessions -/

section Steps

variable (opts)

theorem handle_onward (now : Int) (op : Operator) (call : ApiCall κ) (s : Server ρ) :
    Onward s.db (handle opts now op call s).2.db := by
  cases call with
  | identity call => exact (handle_effect call s.db).onward
  | mePassword password salt =>
    simp only [handle, mePassword]
    split
    · exact .refl _
    · split
      · exact .refl _
      · exact .refl _
      · rename_i db hupdate
        exact updateOperator_onward hupdate
  | other call => exact .of_operators (fun h ↦ { h with }) rfl rfl
  | config | me | testProvider | testConn | audit => exact .refl _

/-- A session that a handler drops is that of an operator it deleted. -/
theorem handle_sessions (now : Int) (op : Operator) (call : ApiCall κ) (s : Server ρ) :
    ∃ p : Session → Bool, (handle opts now op call s).2.sessions = s.sessions.filter p ∧
      ∀ x, p x = false → (handle opts now op call s).2.db.operatorByID x.operatorID = none := by
  have hkeep : ∀ sessions : List Session, sessions = sessions.filter fun _ ↦ true := by simp
  cases call with
  | identity call =>
    cases call with
    | deleteOperator id =>
      cases id with
      | none => exact ⟨fun _ ↦ true, hkeep _, by simp⟩
      | some id =>
        by_cases hsuccess : (deleteOperator (some id) s.db).1.Success
        · refine ⟨fun x ↦ x.operatorID ≠ id, if_pos hsuccess, fun x hx ↦ ?_⟩
          obtain rfl : x.operatorID = id := by simpa using hx
          exact deleteOperator_gone hsuccess
        · exact ⟨fun _ ↦ true, (if_neg hsuccess).trans (hkeep _), by simp⟩
    | listOperators | postOperator | putOperator | listRoles | postRole | patchRole | deleteRole =>
      exact ⟨fun _ ↦ true, hkeep _, by simp⟩
  | mePassword password salt =>
    refine ⟨fun _ ↦ true, ?_, by simp⟩
    rw [← hkeep]
    simp only [handle, mePassword]
    split
    · rfl
    · split <;> rfl
  | config | me | testProvider | testConn | audit | other => exact ⟨fun _ ↦ true, hkeep _, by simp⟩

/-- A request that is not refused is handled for who its token is looked up to be. -/
theorem api_handled (now : Int) (bearer : Option String) (call : ApiCall κ) (s : Server ρ) :
    (s.api opts now bearer call).2 = s ∨
      ∃ token op, bearer = some token ∧ s.lookup now token = some op ∧
        (superAdminOnly opts call = true → wildcard ∈ op.permissions) ∧
        (s.api opts now bearer call).2 =
          auditMutation opts now op call (handle opts now op call s).1 s
          (handle opts now op call s).2 := by
  cases bearer with
  | none => exact .inl rfl
  | some token =>
    cases hop : s.lookup now token with
    | none =>
      left
      simp only [api, hop]
    | some op =>
      by_cases hallowed : superAdminOnly opts call ∧ wildcard ∉ op.permissions
      · left
        simp only [api, hop, if_pos hallowed]
      · refine .inr ⟨token, op, rfl, hop, fun honly ↦ ?_, ?_⟩
        · exact not_not.mp fun hweak ↦ hallowed ⟨honly, hweak⟩
        · simp only [api, hop, if_neg hallowed]

/-- The audit trail is all that `auditMutation` writes to, and it writes the operator of the
request. -/
theorem auditMutation_eq (now : Int) (op : Operator) (call : ApiCall κ) (r : Response Body)
    (s s' : Server ρ) :
    ∃ rows : List AuditRow,
    auditMutation opts now op call r s s' = { s' with audit := s'.audit ++ rows } ∧
      ∀ row ∈ rows, row.operatorID = op.id := by
  rw [auditMutation]
  split
  · exact ⟨[], by rw [List.append_nil], by simp⟩
  · split
    · exact ⟨_, rfl, by simp⟩
    · exact ⟨[], by rw [List.append_nil], by simp⟩

theorem login_eq (now : Int) (email password token : String) (s : Server ρ) :
    (∃ id, s.Grants opts (.login now email password token) token id now ∧
        (s.login opts now email password token).2.sessions =
          s.sessions ++ [⟨token, id, now + sessionTTL⟩]) ∨
      (∀ token' id start, ¬ s.Grants opts (.login now email password token) token' id start) ∧
        (s.login opts now email password token).2.sessions = s.sessions := by
  rw [login]
  split
  case isTrue hlocked =>
    refine .inr ⟨?_, rfl⟩
    rintro token' id start ⟨email', password', heq, hfree, -⟩
    cases heq
    exact hfree hlocked
  case isFalse hfree =>
    cases hop :
        (s.db.operatorByEmail email).filter fun op ↦
        opts.verifyPassword password op.passwordHash with
    | none =>
      refine .inr ⟨?_, rfl⟩
      rintro token' id start ⟨email', password', heq, -, op, hmem, hvalid, -⟩
      cases heq
      exact Option.filter_eq_none_iff.mp hop op hmem hvalid
    | some op =>
      obtain ⟨hmem, hvalid⟩ := Option.filter_eq_some_iff.mp hop
      exact .inl ⟨op.id, ⟨email, password, rfl, hfree, op, hmem, hvalid, rfl⟩, rfl⟩

theorem login_frame (now : Int) (email password token : String) (s : Server ρ) :
    (s.login opts now email password token).2.db = s.db ∧
      (s.login opts now email password token).2.tables = s.tables ∧
      (s.login opts now email password token).2.rest = s.rest ∧
      (s.login opts now email password token).2.audit = s.audit := by
  rw [login]
  split
  · exact ⟨rfl, rfl, rfl, rfl⟩
  · split <;> exact ⟨rfl, rfl, rfl, rfl⟩

theorem step_onward (s : Server ρ) (e : Event κ) : Onward s.db (s.step opts e).db := by
  cases e with
  | login now email password token =>
    show Onward s.db (s.login opts now email password token).2.db
    rw [(login_frame opts now email password token s).1]
    exact .refl _
  | api now bearer call =>
    show Onward s.db (s.api opts now bearer call).2.db
    obtain hrefused | ⟨token, op, -, -, -, hhandled⟩ := api_handled opts now bearer call s
    · rw [hrefused]
      exact .refl _
    · obtain ⟨rows, haudit, -⟩ := auditMutation_eq opts now op call (handle opts now op call s).1 s
        (handle opts now op call s).2
      rw [hhandled, haudit]
      exact handle_onward opts now op call s
  | save => exact .refl _

/-- An event hands out a token, or it drops sessions of operators that are gone then. -/
theorem step_sessions (s : Server ρ) (e : Event κ) :
    (∃ token id start, s.Grants opts e token id start ∧
        (s.step opts e).sessions = s.sessions ++ [⟨token, id, start + sessionTTL⟩]) ∨
      (∀ token id start, ¬ s.Grants opts e token id start) ∧
        ∃ p : Session → Bool, (s.step opts e).sessions = s.sessions.filter p ∧
          ∀ x, p x = false → (s.step opts e).db.operatorByID x.operatorID = none := by
  have hkeep : ∀ sessions : List Session, sessions = sessions.filter fun _ ↦ true := by simp
  cases e with
  | login now email password token =>
    obtain ⟨id, hgrants, hsessions⟩ | ⟨hnone, hsessions⟩ := login_eq opts now email password token s
    · exact .inl ⟨token, id, now, hgrants, hsessions⟩
    · exact .inr ⟨hnone, fun _ ↦ true, hsessions.trans (hkeep _), by simp⟩
  | api now bearer call =>
    right
    refine ⟨?_, ?_⟩
    · rintro token id start ⟨email, password, heq, -⟩
      cases heq
    · show ∃ p : Session → Bool, (s.api opts now bearer call).2.sessions = s.sessions.filter p ∧
        ∀ x, p x = false → (s.api opts now bearer call).2.db.operatorByID x.operatorID = none
      obtain hrefused | ⟨token, op, -, -, -, hhandled⟩ := api_handled opts now bearer call s
      · rw [hrefused]
        exact ⟨fun _ ↦ true, hkeep _, by simp⟩
      · obtain ⟨rows, haudit, -⟩ :=
          auditMutation_eq opts now op call (handle opts now op call s).1 s
          (handle opts now op call s).2
        rw [hhandled, haudit]
        exact handle_sessions opts now op call s
  | save =>
    right
    refine ⟨?_, fun _ ↦ true, hkeep _, by simp⟩
    rintro token id start ⟨email, password, heq, -⟩
    cases heq

end Steps

/-! ## Runs -/

variable (opts) in
/-- **The sessions of a state are those of the logins before it.** -/
structure Kept (s₀ : Server ρ) (evs : List (Event κ)) (s : Server ρ) : Prop where
  wf : s.db.WF
  keyed : Table.Keyed Session.token s.sessions
  sound : ∀ x ∈ s.sessions, ∃ start, x.expiresAt = start + sessionTTL ∧
    SignedIn opts s₀ evs x.token x.operatorID start
  complete : ∀ token id start, SignedIn opts s₀ evs token id start →
    id < s.db.operatorSeq ∧
    (⟨token, id, start + sessionTTL⟩ ∈ s.sessions ∨ s.db.operatorByID id = none)

theorem Kept.step {e : Event κ} (htokens : ((evs ++ [e]).filterMap Event.token).Nodup)
    (h : Kept opts s₀ evs (Run.run (step opts) s₀ evs)) :
    Kept opts s₀ (evs ++ [e]) ((Run.run (step opts) s₀ evs).step opts e) := by
  have honward := step_onward opts (Run.run (Server.step opts) s₀ evs) e
  -- What was handed out before stays known, and its operator, once gone, stays gone.
  have hold : ∀ token id start, SignedIn opts s₀ evs token id start →
      id < ((Run.run (Server.step opts) s₀ evs).step opts e).db.operatorSeq :=
    fun token id start hsigned ↦ (h.complete token id start hsigned).1.trans_le honward.seq
  obtain ⟨token, id, start, hgrants, hsessions⟩ | ⟨hnone, p, hsessions, hdropped⟩ :=
    step_sessions opts (Run.run (Server.step opts) s₀ evs) e
  · refine ⟨honward.wf h.wf, ?_, ?_, ?_⟩
    · rw [hsessions]
      refine h.keyed.append fun x hx hclash ↦ ?_
      obtain ⟨start', -, hsigned⟩ := h.sound x hx
      rw [List.filterMap_append] at htokens
      refine List.disjoint_of_nodup_append htokens hsigned.mem ?_
      exact List.mem_filterMap.mpr
        ⟨e, List.mem_singleton_self e, hgrants.drawn.trans (congrArg some hclash.symm)⟩
    · rw [hsessions]
      intro x hx
      rcases List.mem_append.mp hx with hx | hx
      · obtain ⟨start', hexpires, hsigned⟩ := h.sound x hx
        exact ⟨start', hexpires, hsigned.append [e]⟩
      · rw [List.mem_singleton.mp hx]
        exact ⟨start, rfl, signedIn_concat.mpr (.inr hgrants)⟩
    · intro token' id' start' hsigned
      rw [hsessions]
      rcases signedIn_concat.mp hsigned with hsigned | hgrants'
      · refine ⟨hold token' id' start' hsigned, ?_⟩
        obtain ⟨hid, hmem | hgone⟩ := h.complete token' id' start' hsigned
        · exact .inl (List.mem_append_left _ hmem)
        · exact .inr (honward.gone id' hid hgone)
      · obtain ⟨rfl, rfl, rfl⟩ := hgrants.unique hgrants'
        refine ⟨?_, .inl (by simp)⟩
        obtain ⟨email, password, -, -, op, hop, -, rfl⟩ := hgrants
        exact (h.wf.operatorSeq op (Table.mem_of_find hop).1).trans_le honward.seq
  · refine ⟨honward.wf h.wf, ?_, ?_, ?_⟩
    · rw [hsessions]
      exact h.keyed.filter p
    · rw [hsessions]
      intro x hx
      obtain ⟨start, hexpires, hsigned⟩ := h.sound x (List.mem_filter.mp hx).1
      exact ⟨start, hexpires, hsigned.append [e]⟩
    · intro token id start hsigned
      rcases signedIn_concat.mp hsigned with hsigned | hgrants
      · refine ⟨hold token id start hsigned, ?_⟩
        obtain ⟨hid, hmem | hgone⟩ := h.complete token id start hsigned
        · cases hp : p ⟨token, id, start + sessionTTL⟩ with
          | true =>
            rw [hsessions]
            exact .inl (List.mem_filter.mpr ⟨hmem, hp⟩)
          | false => exact .inr (hdropped _ hp)
        · exact .inr (honward.gone id hid hgone)
      · exact absurd hgrants (hnone token id start)

theorem kept_run (hsessions : s₀.sessions = []) (hwf : s₀.db.WF)
    (htokens : (evs.filterMap Event.token).Nodup) :
    Kept opts s₀ evs (Run.run (step opts) s₀ evs) := by
  induction evs using List.reverseRecOn with
  | nil =>
    refine ⟨hwf, ?_, ?_, fun token id start h ↦ absurd h signedIn_nil⟩
    · rw [Run.run_nil, hsessions]
      exact List.nodup_nil
    · rw [Run.run_nil, hsessions]
      simp
  | append_singleton evs e ih =>
    rw [Run.run_concat]
    refine Kept.step htokens (ih ?_)
    rw [List.filterMap_append] at htokens
    exact htokens.of_append_left

/-- A token is looked up to be who it speaks for. -/
theorem Kept.lookup_iff (h : Kept opts s₀ evs (Run.run (Server.step opts) s₀ evs)) {now : Int}
    {op : Operator} :
    (Run.run (Server.step opts) s₀ evs).lookup now token = some op ↔
      Speaks opts s₀ evs now token op := by
  constructor
  · intro hlookup
    obtain ⟨x, hfiltered, hop⟩ := Option.bind_eq_some_iff.mp hlookup
    obtain ⟨hfind, hlive⟩ := Option.filter_eq_some_iff.mp hfiltered
    obtain ⟨row, hrow, rfl⟩ := Option.map_eq_some_iff.mp hop
    obtain ⟨hx, rfl⟩ := Table.mem_of_find hfind
    obtain ⟨start, hexpires, hsigned⟩ := h.sound x hx
    obtain ⟨hmem, hid⟩ := Table.mem_of_find hrow
    refine ⟨start, row, hid ▸ hsigned, ?_, hmem, rfl⟩
    exact hexpires ▸ of_decide_eq_true hlive
  · rintro ⟨start, row, hsigned, hlive, hrow, rfl⟩
    have hfound := h.wf.operatorIDs.find_of_mem hrow
    obtain ⟨-, hmem | hgone⟩ := h.complete token row.id start hsigned
    · refine Option.bind_eq_some_iff.mpr
        ⟨_, Option.filter_eq_some_iff.mpr ⟨h.keyed.find_of_mem hmem, ?_⟩, ?_⟩
      · exact decide_eq_true hlive
      · exact Option.map_eq_some_iff.mpr ⟨row, hfound, rfl⟩
    · exact absurd (hfound.symm.trans hgone) (by simp)

variable (opts) in
/-- An operator that is gone is so after the rest of the run. -/
theorem run_gone {s : Server ρ} {id : Int} (evs : List (Event κ)) (hid : id < s.db.operatorSeq)
    (hgone : s.db.operatorByID id = none) :
    (Run.run (step opts) s evs).db.operatorByID id = none := by
  have hrun : id < (Run.run (step opts) s evs).db.operatorSeq ∧
      (Run.run (step opts) s evs).db.operatorByID id = none := by
    refine Run.invariant
      (I := fun s : Server ρ ↦ id < s.db.operatorSeq ∧ s.db.operatorByID id = none) ?_ evs
      ⟨hid, hgone⟩
    rintro s e ⟨hid, hgone⟩
    have honward := step_onward opts s e
    exact ⟨hid.trans_le honward.seq, honward.gone id hid hgone⟩
  exact hrun.2

/-- What alters the state is a request that was let through. -/
theorem alters_handled {e : Event κ} (h : s.Alters opts e) :
    ∃ now token call op, e = .api now (some token) call ∧ s.lookup now token = some op ∧
      (superAdminOnly opts call = true → wildcard ∈ op.permissions) ∧
      ∀ row ∈ (s.step opts e).audit, row ∈ s.audit ∨ row.operatorID = op.id := by
  cases e with
  | login now email password token =>
    exfalso
    obtain ⟨hdb, htables, hrest, haudit⟩ := login_frame opts now email password token s
    obtain h | h | h | ⟨x, hx, h⟩ | ⟨h, -⟩ := h
    · exact h hdb
    · exact h hrest
    · exact h haudit
    · refine h ?_
      show x ∈ (s.login opts now email password token).2.sessions
      obtain ⟨id, -, hsessions⟩ | ⟨-, hsessions⟩ := login_eq opts now email password token s
      · rw [hsessions]
        exact List.mem_append_left _ hx
      · rwa [hsessions]
    · exact h htables
  | api now bearer call =>
    obtain hrefused | ⟨token, op, rfl, hop, honly, hhandled⟩ := api_handled opts now bearer call s
    · exfalso
      simp only [Alters, step, serve, hrefused] at h
      simp at h
    · refine ⟨now, token, call, op, rfl, hop, honly, fun row hrow ↦ ?_⟩
      obtain ⟨rows, haudit, hrows⟩ :=
        auditMutation_eq opts now op call (handle opts now op call s).1 s
        (handle opts now op call s).2
      have hrow : row ∈ (s.api opts now (some token) call).2.audit := hrow
      rw [hhandled, haudit, handle_audit] at hrow
      exact (List.mem_append.mp hrow).imp_right (hrows row)
  | save =>
    exfalso
    simp [Alters, step, serve] at h

/-- **Who is signed in.**  In every run from a state without sessions in which no token is drawn
twice: a token is accepted exactly when it was handed out to an operator less than twelve hours ago
and the operator still exists; once refused it is refused for good; and what changes the state,
other than a login or a saved snapshot, is a request whose token speaks for an operator, which holds
the wildcard at that moment if the endpoint asks for it, and which is named in what the audit trail
gains. -/
theorem signed_in (opts : Options κ ρ) (s₀ : Server ρ) (hsessions : s₀.sessions = [])
    (hwf : s₀.db.WF) (evs : List (Event κ)) (htokens : (evs.filterMap Event.token).Nodup) :
    (∀ now token op, (Run.run (step opts) s₀ evs).lookup now token = some op ↔
      Speaks opts s₀ evs now token op) ∧
      (∀ before after, evs = before ++ after → ∀ token id start now now',
        SignedIn opts s₀ before token id start →
        (Run.run (step opts) s₀ before).lookup now token = none → now ≤ now' →
        (Run.run (step opts) s₀ evs).lookup now' token = none) ∧
      ∀ before e after, evs = before ++ e :: after → (Run.run (step opts) s₀ before).Alters opts e →
        ∃ now token call op, e = .api now (some token) call ∧ Speaks opts s₀ before now token op ∧
          (superAdminOnly opts call = true → wildcard ∈ op.permissions) ∧
          ∀ row ∈ ((Run.run (step opts) s₀ before).step opts e).audit,
            row ∈ (Run.run (step opts) s₀ before).audit ∨ row.operatorID = op.id := by
  have hinitial :
      ∀ before after, evs = before ++ after →
      Kept opts s₀ before (Run.run (step opts) s₀ before) := by
    rintro before after rfl
    rw [List.filterMap_append] at htokens
    exact kept_run hsessions hwf htokens.of_append_left
  have hkept := hinitial evs [] (List.append_nil evs).symm
  refine ⟨fun now token op ↦ hkept.lookup_iff, ?_, ?_⟩
  · intro before after hsplit token id start now now' hsigned hrefused hlater
    by_contra haccepted
    obtain ⟨op, hop⟩ := Option.ne_none_iff_exists'.mp haccepted
    obtain ⟨start', row, hsigned', hlive, hrow, -⟩ := hkept.lookup_iff.mp hop
    subst hsplit
    obtain ⟨rfl, rfl⟩ := (hsigned.append after).unique htokens hsigned'
    -- It was live at the earlier time too, so its operator was gone then, and is gone now.
    have hbefore := hinitial before after rfl
    have hgone : (Run.run (step opts) s₀ before).db.operatorByID row.id = none := by
      by_contra hpresent
      obtain ⟨row', hrow'⟩ := Option.ne_none_iff_exists'.mp hpresent
      obtain ⟨hmem, hid⟩ := Table.mem_of_find hrow'
      have hspeaks :
          Speaks opts s₀ before now token ((Run.run (step opts) s₀ before).db.load row') :=
        ⟨start, row', hid ▸ hsigned, hlater.trans_lt hlive, hmem, rfl⟩
      rw [hbefore.lookup_iff.mpr hspeaks] at hrefused
      cases hrefused
    have hlast := run_gone opts after (hbefore.complete token row.id start hsigned).1 hgone
    rw [← Run.run_append] at hlast
    exact absurd ((hkept.wf.operatorIDs.find_of_mem hrow).symm.trans hlast) (by simp)
  · rintro before e after hsplit halters
    obtain ⟨now, token, call, op, he, hop, honly, haudit⟩ := alters_handled halters
    exact ⟨now, token, call, op, he, (hinitial before (e :: after) hsplit).lookup_iff.mp hop,
      honly, haudit⟩

/-- The operator of the bootstrap has a password, and nobody is signed in. -/
def fresh : Server Unit :=
  { sample with
    db := { seeded with operators := [⟨1, "root@example.com", "salt$root", superAdmin, 1, none⟩] }
    sessions := [] }

/-- A second operator is created, signs in, and is deleted.  The first one changes its password. -/
def dismissal : List (Event Empty) :=
  [.login 0 "root@example.com" "root" "a",
    .api 1 (some "a")
    (.identity (.postOperator ⟨"ops@example.com", "pw", superAdmin, 0, none⟩ "salt")),
    .login 2 "ops@example.com" "pw" "b",
    .api 3 (some "b") (.mePassword "another" "salt"),
    .api 4 (some "a") (.identity (.deleteOperator (some 2))),
    .api 5 (some "a") (.mePassword "changed" "salt")]

theorem fresh_wf : fresh.db.WF where
  roleIDs := by decide
  roleNames := by decide
  roleSeq := by decide
  operatorIDs := by decide
  operatorSeq := by decide
  superAdmin := by decide
  tenantAdmin := by decide

/-- The second token is refused from then on; the first one still speaks for its operator. -/
theorem signed_in_sample :
    (Run.run (step sampleOptions) fresh dismissal).lookup 6 "b" = none ∧
      ∃ op, op.email = "root@example.com" ∧ Speaks sampleOptions fresh dismissal 6 "a" op := by
  obtain ⟨hlookup, -, -⟩ := signed_in sampleOptions fresh rfl fresh_wf dismissal (by decide)
  exact ⟨by decide, _, rfl, (hlookup 6 "a" ⟨1, "root@example.com", superAdmin, 1, some .global,
    ["*"], none⟩).mp (by decide)⟩

end Server

end Admin
end Voxeltoad
