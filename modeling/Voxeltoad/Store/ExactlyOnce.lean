import Voxeltoad.Store.Lifecycle

/-!
# Settling exactly once

`Finish`, the recovery loop, the stale sweeper and an operator race on one row, and settling takes
two transactions with a possible crash in between.  Whatever the order, a reservation is charged by
at most one result, possibly after a release at risk that charged nothing, and what comes with that
result (the usage row, the attempt-risk event) comes with it once.

A recorded result is never replaced: recording asks for a row without one, and applying keeps the
one that is there.  So a second `Finish` either repeats the result, and then has nothing left to do
but to apply it, or contradicts it, and then is refused.

Applying a recorded result can fail for one reason only: what it writes does not fit the columns of
the store (`Db.ApplyFits`).
-/

set_option autoImplicit false

namespace Voxeltoad

namespace View

variable {id : String} {v v' : View} {r : ReservationRow} {s : Settlement}

/-! ## Recorded results -/

/-- A recorded result names the reservation it was recorded for, and that name is not empty. -/
def Named (id : String) (v : View) : Prop :=
  ∀ r, v.row = some r → id ≠ "" ∧ ∀ s, r.result = some s → s.reservationID = id

theorem Named.step (h : v.Named id) (hinv : v.Inv id) (hstep : View.Step id v v') :
    v'.Named id := by
  cases hstep with
  | stay => exact h
  | reserve now tenantID req items hnew hid hitems hne =>
    intro r hr
    cases hr
    exact ⟨hne, by simp [newReservation]⟩
  | dispatch now r₀ hrow hstatus hresult =>
    intro r hr
    cases hr
    exact h r₀ hrow
  | record now s r₀ hrow hvalid hout hid hacc =>
    intro r hr
    cases hr
    refine ⟨(h r₀ hrow).1, fun s' hs' ↦ ?_⟩
    cases hs'
    exact hid
  | unknown now reason r₀ hrow hlive =>
    intro r hr
    cases hr
    exact h r₀ hrow
  | settle now s status r₀ hrow hdue =>
    intro r hr
    cases hr
    refine ⟨(h r₀ hrow).1, fun s' hs' ↦ ?_⟩
    rw [closeReservation] at hs'
    split at hs'
    · exact (h r₀ hrow).2 s' hs'
    · cases hs'
      cases hdue with
      | pending s _ hresult => exact (h r₀ hrow).2 s hresult
      | resolved res =>
        have hid : (res.settlement r₀.id).reservationID = r₀.id := by
          rw [Resolution.settlement]
          split <;> rfl
        exact hid.trans (hinv.rowInv hrow).rowID

/-- A recorded result is never replaced. -/
theorem step_result (hrow : v.row = some r) (hresult : r.result = some s)
    (hstep : View.Step id v v') : ∃ r', v'.row = some r' ∧ r'.result = some s := by
  rcases hstep.of_result hrow hresult with rfl | ⟨-, now, hrow'⟩
  · exact ⟨r, hrow, hresult⟩
  · refine ⟨_, hrow', ?_⟩
    rw [closeReservation]
    split
    · exact hresult
    · rfl

/-! ## What has been applied -/

/-- **At most one result is applied**, perhaps after a release at risk that charges nothing, and
everything that goes with a result is there once. -/
theorem Inv.applied (h : v.Inv id) :
    ∃ before after, v.applied = before ++ after ∧ before.length ≤ 1 ∧ after.length ≤ 1 ∧
      (∀ e ∈ before, e.status = .releasedUnknown ∧ e.settlement.actual = 0) ∧
      (∀ e ∈ after, e.settlement.outcome = .known ∧ e.status = .settled ∨
        e.settlement.outcome = .released ∧ e.status = .released) ∧
      (∀ i ∈ v.items, i.committed = (after.map fun e ↦ e.settlement.actual).sum) ∧
      v.usage = after.flatMap (fun e ↦ usageRows id e.settlement) ∧
      v.risks = after.countP fun e ↦ e.settlement.attemptRisk := by
  rw [Inv] at h
  cases hrow : v.row with
  | none =>
    rw [hrow] at h
    obtain ⟨hv, hitems⟩ := h
    exact ⟨[], [], by simp [hv.applied], by simp, by simp, by simp, by simp, by simp [hitems],
      by simp [hv.usage], by simp [hv.risks]⟩
  | some r =>
    rw [hrow] at h
    cases h.stage with
    | untouched _ _ _ hv =>
      exact ⟨[], [], by simp [hv.applied], by simp, by simp, by simp, by simp,
        fun i hi ↦ by simpa using (hv.items i hi).2.1, by simp [hv.usage], by simp [hv.risks]⟩
    | atRisk _ _ _ _ hv =>
      obtain ⟨a, happlied, hstatus, hactual⟩ := hv.applied
      exact ⟨[a], [], by simp [happlied], by simp, by simp, by simp [hstatus, hactual], by simp,
        fun i hi ↦ by simpa using (hv.items i hi).2, by simp [hv.usage], by simp [hv.risks]⟩
    | closed s hstatus _ _ hresult hv =>
      obtain ⟨before, last, happlied, rfl, hlast, hbefore⟩ := hv.applied
      refine ⟨before, [last], happlied, ?_, by simp, ?_, ?_, fun i hi ↦ ?_, ?_, ?_⟩
      · rcases hbefore with rfl | ⟨a, rfl, -⟩ <;> simp
      · rcases hbefore with rfl | ⟨a, rfl, ha⟩
        · simp
        · simpa using ha
      · intro e he
        rw [List.mem_singleton] at he
        subst he
        rcases (h.result e.settlement hresult).outcome with hk | ⟨hr, -⟩
        · exact .inl ⟨hk, by simp [hlast, Settlement.status, hk]⟩
        · exact .inr ⟨hr, by simp [hlast, Settlement.status, hr]⟩
      · simpa using (hv.items i hi).2
      · simpa using hv.usage
      · rw [hv.risks]
        by_cases hrisk : last.settlement.attemptRisk = true <;> simp [hrisk]

end View

/-! ## Finishing again -/

section Finish

variable {now : Time} {s : Settlement} {r : ReservationRow} {db : Db}

theorem Settlement.Sound.valid (h : s.Sound) (hne : s.reservationID ≠ "") :
    validateSettlement s = .ok () := by
  rw [validateSettlement, if_neg]
  rintro (hempty | hneg | hout | ⟨hknown, hrest⟩)
  · exact hne hempty
  · exact absurd h.actual (not_le.mpr hneg)
  · rcases h.outcome with hk | ⟨hr, -⟩
    · exact hout.1 hk
    · exact hout.2.1 hr
  · rcases h.outcome with hk | ⟨-, hzero, husage⟩
    · exact hknown hk
    · exact hrest.elim (fun h ↦ h hzero) fun h ↦ h husage

theorem Settlement.Sound.ne_unknown (h : s.Sound) : s.outcome ≠ .unknown := by
  rcases h.outcome with hk | ⟨hr, -⟩
  · simp [hk]
  · simp [hr]

theorem shareAccountingTenant_ok (hwf : db.WF) (hrow : db.reservation r.id = some r) :
    shareAccountingTenant (((db.reservation r.id).map ReservationRow.tenantID).getD 0) db =
      .ok () := by
  obtain ⟨t, ht, hid⟩ := hwf.reservationTenant r (Table.mem_of_find hrow).1
  rw [hrow, shareAccountingTenant]
  refine if_pos ⟨?_, ?_⟩
  · exact fun h ↦ hwf.tenantID t ht (hid.trans h)
  · simpa using ⟨t, ht, hid⟩

theorem applyPending_eq (hwf : db.WF) (hrow : db.reservation r.id = some r) :
    applyPending now r.id db =
      if r.resultApplied then .ok db
      else match r.result with
        | none => .error .reservationConflict
        | some s => applyReservation now r s s.status db := by
  rw [applyPending, shareAccountingTenant_ok hwf hrow, hrow]
  rfl

/-- Recording a result that is recorded already changes nothing. -/
theorem finishFirst_same (hvalid : validateSettlement s = .ok ()) (hout : s.outcome ≠ .unknown)
    (hrow : db.reservation s.reservationID = some r) (hresult : r.result = some s) :
    finishFirst now s db = .ok db := by
  rw [finishFirst, hvalid]
  show (if s.outcome = .unknown then _ else recordResult now s db) = _
  rw [if_neg hout, recordResult, hrow]
  simp [hresult]

/-- A `Finish` that repeats the recorded result comes down to applying it. -/
theorem finish_same (now : Time) (hwf : db.WF) (hvalid : validateSettlement s = .ok ())
    (hout : s.outcome ≠ .unknown) (hrow : db.reservation s.reservationID = some r)
    (hresult : r.result = some s) :
    finish now s db = if r.resultApplied then (db, .ok ())
      else match applyReservation now r s s.status db with
        | .error e => (db, .error e)
        | .ok db' => (db', .ok ()) := by
  obtain ⟨-, hid⟩ := Table.mem_of_find hrow
  rw [finish, finishFirst_same hvalid hout hrow hresult]
  rw [← hid] at hrow ⊢
  simp only [hout, if_false, applyPending_eq hwf hrow, hresult]
  by_cases happlied : r.resultApplied = true
  · simp only [happlied, if_true]
  · cases applyReservation now r s s.status db with
    | error e => simp only [happlied, if_false, Bool.false_eq_true]
    | ok db' => simp only [happlied, if_false, Bool.false_eq_true]

/-- A `Finish` that contradicts the recorded result is refused. -/
theorem finish_conflict (hvalid : validateSettlement s = .ok ()) (hout : s.outcome ≠ .unknown)
    (hrow : db.reservation s.reservationID = some r) {s' : Settlement}
    (hresult : r.result = some s') (hne : s' ≠ s) :
    finish now s db = (db, .error .reservationConflict) := by
  have hfirst : finishFirst now s db = .error .reservationConflict := by
    rw [finishFirst, hvalid]
    show (if s.outcome = .unknown then _ else recordResult now s db) = _
    rw [if_neg hout, recordResult, hrow]
    simp [hresult, hne]
  rw [finish, hfirst]

/-- A `Finish` that does not know the charge has nothing to add to a recorded result. -/
theorem finish_unknown (hout : s.outcome = .unknown)
    (hrow : db.reservation s.reservationID = some r) (hresult : r.result ≠ none) :
    (finish now s db).1 = db := by
  rw [finish]
  cases hfirst : finishFirst now s db with
  | error e => rfl
  | ok db₁ =>
    simp only [hout, if_true]
    obtain ⟨-, r', hrow', rfl | ⟨-, hlive, -⟩ | ⟨hne, -⟩⟩ := finishFirst_ok hfirst
    · rfl
    · rw [hrow, Option.some.injEq] at hrow'
      subst hrow'
      exact absurd hlive.2 hresult
    · exact absurd hout hne

end Finish

/-! ## The result -/

section Result

variable {zones : Zones} {db : Db}

theorem named_runOps (zones : Zones) (hinit : db.Initial) (ops : List Op) (id : String) :
    ((runOps zones db ops).view id).Named id := by
  refine (Run.invariant (I := fun st : State ↦ st.Good ∧ (st.view id).Named id)
    (fun st op hst ↦ ⟨hst.1.step op, ?_⟩) ops ⟨good_start hinit, ?_⟩).2
  · exact hst.2.step (hst.1.views id) (view_step zones id op hst.1.wf)
  · intro r hr
    have hnone : (State.start db).db.reservation id = none := by
      simp [State.start, Db.reservation, Table.find, hinit.reservations]
    rw [show ((State.start db).view id).row = none from hnone] at hr
    cases hr

/-- A recorded result stays the recorded result. -/
theorem result_run (zones : Zones) {st : State} (hgood : st.Good) (later : List Op) {id : String}
    {r : ReservationRow} {s : Settlement} (hrow : st.db.reservation id = some r)
    (hresult : r.result = some s) :
    ∃ r', (Run.run (step zones) st later).db.reservation id = some r' ∧ r'.result = some s := by
  induction later generalizing st r with
  | nil => exact ⟨r, hrow, hresult⟩
  | cons op later ih =>
    obtain ⟨r', hrow', hresult'⟩ := View.step_result hrow hresult (view_step zones id op hgood.wf)
    exact ih (hgood.step op) hrow' hresult'

/-- An applied result is the end of it. -/
theorem applied_run (zones : Zones) {st : State} (hgood : st.Good) (later : List Op) {id : String}
    {r : ReservationRow} (hrow : st.db.reservation id = some r)
    (happlied : r.resultApplied = true) :
    (Run.run (step zones) st later).view id = st.view id := by
  have hclosed := ((hgood.views id).rowInv hrow).resultApplied_iff.mp happlied
  induction later generalizing st with
  | nil => rfl
  | cons op later ih =>
    have hstay := (hgood.views id).step_of_closed hrow hclosed (view_step zones id op hgood.wf)
    have hrow' : (step zones st op).db.reservation id = some r :=
      (congrArg View.row hstay).trans hrow
    rw [Run.run_cons, ih (hgood.step op) hrow', hstay]

/-- The rows of usage a result leaves: one if the charge is known and came with usage. -/
theorem usageRows_length (id : String) (s : Settlement) :
    (usageRows id s).length = if s.outcome = .known ∧ s.usage.isSome then 1 else 0 := by
  rw [usageRows]
  cases s.usage with
  | none => simp
  | some rec => by_cases hknown : s.outcome = .known <;> simp [hknown]

/-- The usage rows of a reservation to which at most one result has been applied. -/
theorem usageRows_of_applied {id : String} {after : List Applied} {usage : List UsageRow}
    (hafter : after.length ≤ 1) (husage : usage = after.flatMap fun e ↦ usageRows id e.settlement) :
    usage.length ≤ 1 ∧ (usage.length = 1 ↔
      ∃ e ∈ after, e.settlement.outcome = .known ∧ e.settlement.usage.isSome) := by
  cases after with
  | nil => simp [husage]
  | cons e rest =>
    have hrest : rest = [] := List.eq_nil_of_length_eq_zero (by simpa using hafter)
    subst hrest
    have hlength : usage.length =
        if e.settlement.outcome = .known ∧ e.settlement.usage.isSome then 1 else 0 := by
      rw [husage, List.flatMap_singleton, usageRows_length]
    rw [hlength]
    split
    · rename_i hknown
      simp [hknown]
    · rename_i hknown
      simpa using hknown

/-- **Exactly-once settlement.**  In every reachable state, for every reservation:

* at most one result has been applied, perhaps after a release at risk that charged nothing, and
  every item has been charged what that result says;
* there is a usage row iff the applied result is known and carries usage, and then one; there is at
  most one attempt-risk event;
* a result that is recorded stays recorded, and one that is applied is the end of it;
* a `Finish` that repeats the recorded result succeeds without changing anything if it has been
  applied; if not, it succeeds iff what applying it writes fits the columns of the store, and
  otherwise changes nothing;
* a `Finish` with another result is refused as a conflict, and one without a result changes
  nothing. -/
theorem exactly_once (hinit : db.Initial) (ops : List Op) :
    let st := runOps zones db ops
    (∀ id, ∃ before after,
      (st.history.applied.filter fun e ↦ e.reservationID = id) = before ++ after ∧
      before.length ≤ 1 ∧ after.length ≤ 1 ∧
      (∀ e ∈ before, e.status = .releasedUnknown ∧ e.settlement.actual = 0) ∧
      (∀ e ∈ after, e.settlement.outcome = .known ∧ e.status = .settled ∨
        e.settlement.outcome = .released ∧ e.status = .released) ∧
      (∀ i ∈ st.db.itemsOf id, i.committed = (after.map fun e ↦ e.settlement.actual).sum) ∧
      (st.db.usageRecords.filter fun u ↦ u.reservationID = id).length ≤ 1 ∧
      ((st.db.usageRecords.filter fun u ↦ u.reservationID = id).length = 1 ↔
        ∃ e ∈ after, e.settlement.outcome = .known ∧ e.settlement.usage.isSome) ∧
      st.db.risks id ≤ 1) ∧
    ∀ s r, st.db.reservation s.reservationID = some r → r.result ≠ none → ∀ now,
      (r.result = some s →
        (r.resultApplied = true → finish now s st.db = (st.db, .ok ())) ∧
        (r.resultApplied = false →
          ((finish now s st.db).2 = .ok () ↔ st.db.ApplyFits s.reservationID s) ∧
          (∀ e, (finish now s st.db).2 = .error e → (finish now s st.db).1 = st.db)) ∧
        finishFirst now s st.db = .ok st.db ∧
        ∀ later, ∃ r', (Run.run (step zones) st later).db.reservation s.reservationID = some r' ∧
          r'.result = some s ∧
          (r.resultApplied = true →
            (Run.run (step zones) st later).view s.reservationID = st.view s.reservationID)) ∧
      (validateSettlement s = .ok () → s.outcome ≠ .unknown → r.result ≠ some s →
        finish now s st.db = (st.db, .error .reservationConflict)) ∧
      (s.outcome = .unknown → (finish now s st.db).1 = st.db) := by
  intro st
  have hgood : st.Good := good_runOps hinit ops
  refine ⟨fun id ↦ ?_, fun s r hrow hrecorded now ↦ ⟨fun hresult ↦ ?_, fun hvalid hout hne ↦ ?_,
    fun hout ↦ finish_unknown hout hrow hrecorded⟩⟩
  · obtain ⟨before, after, happlied, hbefore, hafter, hrisk, hout, hitems, husage, hrisks⟩ :=
      (hgood.views id).applied
    obtain ⟨hle, hiff⟩ := usageRows_of_applied hafter husage
    exact ⟨before, after, happlied, hbefore, hafter, hrisk, hout, hitems, hle, hiff,
      (hrisks.trans_le (List.countP_le_length ..)).trans hafter⟩
  · have hinv := (hgood.views s.reservationID).rowInv hrow
    have hsound := hinv.result s hresult
    have hvalid := hsound.valid (named_runOps zones hinit ops _ r hrow).1
    have hmem := (Table.mem_of_find hrow).1
    have hfinish := finish_same now hgood.wf hvalid hsound.ne_unknown hrow hresult
    refine ⟨fun happlied ↦ ?_, fun happlied ↦ ?_, ?_, fun later ↦ ?_⟩
    · rw [hfinish, if_pos happlied]
    · have hfits := applyReservation_ok_iff now s s.status hgood.wf hmem
      rw [hinv.rowID] at hfits
      rw [hfinish, if_neg (by simp [happlied]), ← hfits]
      cases applyReservation now r s s.status st.db with
      | error e => simp
      | ok db' => simp
    · exact finishFirst_same hvalid hsound.ne_unknown hrow hresult
    · obtain ⟨r', hrow', hresult'⟩ := result_run zones hgood later hrow hresult
      exact ⟨r', hrow', hresult', applied_run zones hgood later hrow⟩
  · obtain ⟨s', hs'⟩ := Option.ne_none_iff_exists'.mp hrecorded
    exact finish_conflict hvalid hout hrow hs' fun he ↦ hne (he ▸ hs')

/-- In the sample run, finishing once more changes nothing. -/
theorem exactly_once_sample :
    finish 4 ⟨"a", .known, 4, "", false, none⟩ (runOps Zones.utc Db.sample Op.sample).db =
      ((runOps Zones.utc Db.sample Op.sample).db, .ok ()) :=
  (((exactly_once Db.sample_initial Op.sample).2 ⟨"a", .known, 4, "", false, none⟩
    ((runOps Zones.utc Db.sample Op.sample).db.reservations.head (by decide)) (by rfl) (by decide)
    4).1 (by decide)).1 (by decide)

/-- Two reservations of nothing, and a charge of all a `BIGINT` holds to each of them. -/
def Op.overflow : List Op :=
  [.reserve 0 (.sample "a" 0), .reserve 0 (.sample "b" 0),
    .finishFirst 1 ⟨"a", .known, 9223372036854775807, "", false, none⟩, .applyPending 1 "a",
    .finishFirst 1 ⟨"b", .known, 9223372036854775807, "", false, none⟩]

/-- A balance that cannot take the second charge keeps its result from being applied, however often
it is repeated. -/
theorem finish_identical_out_of_range :
    ¬ ∀ (zones : Zones) (db : Db) (ops : List Op) (s : Settlement) (r : ReservationRow)
        (now : Time),
      db.Initial → (runOps zones db ops).db.reservation s.reservationID = some r →
        r.result = some s → (finish now s (runOps zones db ops).db).2 = .ok () := by
  intro h
  have hok := h Zones.utc Db.sample Op.overflow
    ⟨"b", .known, 9223372036854775807, "", false, none⟩ _ 2 Db.sample_initial (by rfl) (by rfl)
  have herr : (finish 2 ⟨"b", .known, 9223372036854775807, "", false, none⟩
      (runOps Zones.utc Db.sample Op.overflow).db).2 = .error .outOfRange := by rfl
  rw [herr] at hok
  cases hok

end Result

end Voxeltoad
