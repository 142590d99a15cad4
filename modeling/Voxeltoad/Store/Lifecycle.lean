import Voxeltoad.Store.View

/-!
# The life cycle of a reservation

The invariant of a reservation is a joint one: of its row, its items and what has been applied to
it.  A reservation is at one of three stages, and its status tells which.

* Nothing has been applied (`reserved`, `dispatched`, `unknown`): every item holds what it
  reserved.
* It was released at risk (`released_unknown`): nothing is held and nothing is charged, and a later
  known charge is still possible.
* It is closed (`settled`, `released`): its result has been applied, and nothing can happen to it
  any more.

A recorded result is orthogonal to the first two stages: it is what the next application will
apply.
-/

set_option autoImplicit false

namespace Voxeltoad

/-- What is known of a result that was recorded, and of what an operator decides. -/
structure Settlement.Sound (s : Settlement) : Prop where
  actual : 0 ≤ s.actual
  outcome : s.outcome = .known ∨ s.outcome = .released ∧ s.actual = 0 ∧ s.usage = none

namespace View

/-! ## The three stages -/

/-- Nothing has been applied. -/
structure Untouched (v : View) : Prop where
  items : ∀ i ∈ v.items, i.Untouched
  applied : v.applied = []
  usage : v.usage = []
  risks : v.risks = 0

/-- A release at risk, and nothing else, has been applied. -/
structure AtRisk (v : View) : Prop where
  items : ∀ i ∈ v.items, i.held = 0 ∧ i.committed = 0
  applied : ∃ a, v.applied = [a] ∧ a.status = .releasedUnknown ∧ a.settlement.actual = 0
  usage : v.usage = []
  risks : v.risks = 0

/-- The result `s` has been applied, perhaps after a release at risk. -/
structure Closed (id : String) (s : Settlement) (v : View) : Prop where
  items : ∀ i ∈ v.items, i.held = 0 ∧ i.committed = s.actual
  applied : ∃ before last, v.applied = before ++ [last] ∧ last.settlement = s ∧
    last.status = s.status ∧
      (before = [] ∨ ∃ a, before = [a] ∧ a.status = .releasedUnknown ∧ a.settlement.actual = 0)
  usage : v.usage = usageRows id s
  risks : v.risks = if s.attemptRisk then 1 else 0

/-- What the row of a reservation says about its stage. -/
inductive Stage (id : String) (r : ReservationRow) (v : View) : Prop
  | untouched (hstatus : r.status = .reserved ∨ r.status = .dispatched ∨ r.status = .unknown)
      (hactual : r.actual = none) (happlied : r.resultApplied = false) (hv : v.Untouched)
  | atRisk (hstatus : r.status = .releasedUnknown) (hactual : r.actual = none)
      (happlied : r.resultApplied = false) (hresult : ∀ s, r.result = some s → s.outcome = .known)
      (hv : v.AtRisk)
  | closed (s : Settlement) (hstatus : r.status = s.status) (hactual : r.actual = some s.actual)
      (happlied : r.resultApplied = true) (hresult : r.result = some s) (hv : v.Closed id s)

/-- The invariant of a reservation that is there. -/
structure RowInv (id : String) (r : ReservationRow) (v : View) : Prop where
  rowID : r.id = id
  result : ∀ s, r.result = some s → s.Sound
  stage : Stage id r v
  nonneg : ∀ i ∈ v.items, 0 ≤ i.reserved ∧ 0 ≤ i.held ∧ 0 ≤ i.committed ∧ 0 ≤ i.released

/-- **The invariant of a reservation.** -/
def Inv (id : String) (v : View) : Prop :=
  match v.row with
  | none => v.Untouched ∧ v.items = []
  | some r => v.RowInv id r

/-! ## Moves keep the invariant -/

section Moves

variable {id : String} {v v' : View} {r : ReservationRow} {s : Settlement} {status : Status}

/-- The stages do not depend on the row. -/
theorem Untouched.row (h : v.Untouched) (row : Option ReservationRow) :
    ({ v with row := row } : View).Untouched := ⟨h.items, h.applied, h.usage, h.risks⟩

theorem AtRisk.row (h : v.AtRisk) (row : Option ReservationRow) :
    ({ v with row := row } : View).AtRisk := ⟨h.items, h.applied, h.usage, h.risks⟩

theorem Inv.rowInv (h : v.Inv id) (hrow : v.row = some r) : v.RowInv id r := by
  rw [Inv, hrow] at h
  exact h

theorem validateSettlement_sound (h : validateSettlement s = .ok ()) (hout : s.outcome ≠ .unknown) :
    s.Sound := by
  obtain ⟨-, hactual, hcases, hzero⟩ := validateSettlement_ok h
  refine ⟨hactual, ?_⟩
  rcases hcases with hk | hr | hu
  · exact .inl hk
  · exact .inr ⟨hr, hzero (by rw [hr]; decide)⟩
  · exact absurd hu hout

theorem resolution_sound {res : Resolution} (h : validateResolution res = .ok ()) (id : String) :
    (res.settlement id).Sound ∧
      (res.action = .settle ∧ res.status = (res.settlement id).status ∨
        res.action = .release ∧ res.status = (res.settlement id).status ∨
        res.action = .releaseUnknown ∧ res.status = .releasedUnknown ∧
          res.settlement id = ⟨id, .released, 0, res.reason, false, none⟩) := by
  rw [validateResolution] at h
  split at h
  · cases h
  · split at h
    · cases h
    · rename_i haction
      split at h
      · cases h
      · rename_i hactual
        simp only [not_or, not_and, not_not] at haction hactual
        by_cases hs : res.action = .settle
        · have hany := hactual.1 hs
          cases ha : res.actual with
          | none => simp [ha] at hany
          | some a =>
            simp only [ha, Option.any_some, decide_eq_true_eq] at hany
            refine ⟨⟨?_, .inl ?_⟩, .inl ⟨hs, ?_⟩⟩
            · simpa [Resolution.settlement, hs, ha] using hany
            · simp [Resolution.settlement, hs]
            · simp [Resolution.status, Settlement.status, Resolution.settlement, hs]
        · refine ⟨⟨?_, .inr ?_⟩, .inr ?_⟩
          · simp [Resolution.settlement, hs]
          · simp [Resolution.settlement, hs]
          · by_cases hr : res.action = .release
            · exact .inl ⟨hr, by
                simp [Resolution.status, Settlement.status, Resolution.settlement, hr]⟩
            · have hu := haction hs hr
              exact .inr ⟨hu, by simp [Resolution.status, hu], by
                simp [Resolution.settlement, hu]⟩

theorem status_final (s : Settlement) : s.status = .settled ∨ s.status = .released := by
  rw [Settlement.status]
  split
  · exact .inr rfl
  · exact .inl rfl

/-- What is due is sound, and it is applied to a reservation that is not closed. -/
theorem RowInv.due (h : v.RowInv id r) (hdue : r.Due s status) :
    s.Sound ∧ (v.Untouched ∨ v.AtRisk ∧ s.outcome = .known) ∧
      (status = s.status ∨ status = .releasedUnknown ∧ s.actual = 0 ∧ s.outcome = .released ∧
        s.attemptRisk = false ∧ r.result = none ∧ v.Untouched) := by
  cases hdue with
  | pending s happlied hresult =>
    refine ⟨h.result s hresult, ?_, .inl rfl⟩
    cases h.stage with
    | untouched _ _ _ hv => exact .inl hv
    | atRisk _ _ _ hknown hv => exact .inr ⟨hv, hknown s hresult⟩
    | closed _ _ _ happlied' => simp [happlied] at happlied'
  | resolved res hvalid happlies =>
    obtain ⟨-, hresult, hstatus⟩ := happlies
    obtain ⟨hsound, haction⟩ := resolution_sound hvalid r.id
    cases h.stage with
    | untouched _ _ _ hv =>
      refine ⟨hsound, .inl hv, ?_⟩
      rcases haction with ⟨-, he⟩ | ⟨-, he⟩ | ⟨-, he, hs⟩
      · exact .inl he
      · exact .inl he
      · rw [hs]
        exact .inr ⟨he, rfl, rfl, rfl, hresult, hv⟩
    | atRisk hrisk _ _ _ hv =>
      have hsettle : res.action = .settle := by
        rcases hstatus with hu | ⟨-, hs⟩
        · rw [hrisk] at hu
          cases hu
        · exact hs
      refine ⟨hsound, .inr ⟨hv, by simp [Resolution.settlement, hsettle]⟩, .inl ?_⟩
      simp [Resolution.status, Settlement.status, Resolution.settlement, hsettle]
    | closed s' hs' =>
      rcases status_final s' with hf | hf
      · simp [hs', hf] at hstatus
      · simp [hs', hf] at hstatus

theorem refund_nonneg (i : ReservationItem) (actual : Int) : 0 ≤ i.refund actual :=
  le_max_right ..

/-- Applying what is due closes the reservation, or releases it at risk. -/
theorem RowInv.settle (h : v.RowInv id r) (hdue : r.Due s status) (now : Time) :
    RowInv id (closeReservation now s status r)
      { row := some (closeReservation now s status r)
        items := v.items.map (ReservationItem.charged s.actual)
        applied := v.applied ++ [⟨id, s, status, v.items⟩]
        usage := v.usage ++ usageRows id s
        risks := v.risks + if s.attemptRisk then 1 else 0 } := by
  obtain ⟨hsound, hstage, hstatus⟩ := h.due hdue
  have hitems : ∀ i ∈ v.items.map (ReservationItem.charged s.actual),
      i.held = 0 ∧ i.committed = s.actual := by
    intro i hi
    obtain ⟨j, -, rfl⟩ := List.mem_map.mp hi
    exact ⟨rfl, rfl⟩
  have hnonneg : ∀ i ∈ v.items.map (ReservationItem.charged s.actual),
      0 ≤ i.reserved ∧ 0 ≤ i.held ∧ 0 ≤ i.committed ∧ 0 ≤ i.released := by
    intro i hi
    obtain ⟨j, hj, rfl⟩ := List.mem_map.mp hi
    obtain ⟨hres, -, -, hrel⟩ := h.nonneg j hj
    exact ⟨hres, le_refl 0, hsound.actual, add_nonneg hrel (refund_nonneg j s.actual)⟩
  rcases hstatus with rfl | ⟨rfl, hzero, hout, hrisk, hresult, hv⟩
  · -- the result is applied, and the reservation closed
    have hne : s.status ≠ .releasedUnknown := by
      rcases status_final s with hf | hf <;> rw [hf] <;> decide
    have hbefore : v.usage = [] ∧ v.risks = 0 ∧ (v.applied = [] ∨
        ∃ a, v.applied = [a] ∧ a.status = .releasedUnknown ∧ a.settlement.actual = 0) := by
      rcases hstage with hv | ⟨hv, -⟩
      · exact ⟨hv.usage, hv.risks, .inl hv.applied⟩
      · exact ⟨hv.usage, hv.risks, .inr hv.applied⟩
    obtain ⟨husage, hrisks, happlied⟩ := hbefore
    rw [closeReservation, if_neg hne]
    refine ⟨h.rowID, ?_, .closed s rfl rfl rfl rfl ⟨hitems, ⟨v.applied, _, rfl, rfl, rfl, happlied⟩,
      ?_, ?_⟩, hnonneg⟩
    · intro s' hs'
      cases hs'
      exact hsound
    · rw [husage, List.nil_append]
    · rw [hrisks, Nat.zero_add]
  · -- what was held is given back, and nothing is known yet
    have happlied : r.resultApplied = false := by
      cases h.stage with
      | untouched _ _ happlied => exact happlied
      | atRisk _ _ happlied => exact happlied
      | closed s' _ _ _ hresult' => simp [hresult] at hresult'
    rw [closeReservation, if_pos rfl]
    refine ⟨h.rowID, h.result, .atRisk rfl rfl happlied ?_
      ⟨?_, ⟨⟨id, s, _, v.items⟩, ?_, rfl, hzero⟩,
      ?_, ?_⟩, hnonneg⟩
    · intro s' hs'
      simp [hresult] at hs'
    · intro i hi
      rw [← hzero]
      exact ⟨(hitems i hi).1.trans hzero.symm, (hitems i hi).2⟩
    · rw [hv.applied, List.nil_append]
    · rw [hv.usage, usageRows, hout]
      rfl
    · rw [hv.risks, hrisk]
      rfl

/-- **Every move keeps the invariant.** -/
theorem Inv.step (h : v.Inv id) (hstep : View.Step id v v') : v'.Inv id := by
  cases hstep with
  | stay => exact h
  | reserve now tenantID req items hnew hid hitems =>
    rw [Inv, hnew] at h
    refine ⟨hid, by simp [newReservation], .untouched (.inl rfl) rfl rfl
      ⟨fun i hi ↦ (hitems i hi).1, h.1.applied, h.1.usage, h.1.risks⟩, ?_⟩
    intro i hi
    obtain ⟨⟨hheld, hcomm, hrel⟩, hres⟩ := hitems i hi
    rw [hheld, hcomm, hrel]
    exact ⟨hres, hres, le_refl 0, le_refl 0⟩
  | dispatch now r hrow hstatus hresult =>
    have hr := h.rowInv hrow
    refine ⟨hr.rowID, hr.result, ?_, hr.nonneg⟩
    cases hr.stage with
    | untouched _ hactual happlied hv =>
      exact .untouched (.inr (.inl rfl)) hactual happlied (hv.row _)
    | atRisk hst => simp [hstatus] at hst
    | closed s _ _ _ hres => simp [hresult] at hres
  | record now s r hrow hvalid hout hid hacc =>
    have hr := h.rowInv hrow
    refine ⟨hr.rowID, ?_, ?_, hr.nonneg⟩
    · intro s' hs'
      cases hs'
      exact validateSettlement_sound hvalid hout
    · cases hr.stage with
      | untouched hst hactual _ hv => exact .untouched hst hactual rfl (hv.row _)
      | atRisk hst hactual _ _ hv =>
        refine .atRisk hst hactual rfl (fun s' hs' ↦ ?_) (hv.row _)
        cases hs'
        exact hacc.2.2.2 hst
      | closed s' _ _ _ hres =>
        rw [hacc.1] at hres
        cases hres
  | unknown now reason r hrow hlive =>
    have hr := h.rowInv hrow
    refine ⟨hr.rowID, hr.result, ?_, hr.nonneg⟩
    cases hr.stage with
    | untouched _ hactual happlied hv =>
      exact .untouched (.inr (.inr rfl)) hactual happlied (hv.row _)
    | atRisk hst =>
      rcases hlive.1 with hl | hl <;> simp [hst] at hl
    | closed s _ _ _ hres =>
      rw [hlive.2] at hres
      cases hres
  | settle now s status r hrow hdue => exact (h.rowInv hrow).settle hdue now

/-! ## What a move does to the row -/

theorem Due.status_of_atRisk (hstage : Stage id r v) (hst : r.status = .releasedUnknown)
    (hdue : r.Due s status) : status = .settled := by
  cases hdue with
  | pending s _ hresult =>
    cases hstage with
    | untouched hst' => simp [hst] at hst'
    | atRisk _ _ _ hknown => simp [Settlement.status, hknown s hresult]
    | closed s' hs' =>
      rw [hst] at hs'
      rcases status_final s' with hf | hf <;> simp [hf] at hs'
  | resolved res hvalid happlies =>
    rcases happlies.2.2 with hu | ⟨-, haction⟩
    · simp [hst] at hu
    · simp [Resolution.status, haction]

/-- Once a result is recorded, the one move left is to apply it. -/
theorem Step.of_result {s : Settlement} (hrow : v.row = some r) (hresult : r.result = some s)
    (hstep : View.Step id v v') :
    v' = v ∨ r.resultApplied = false ∧ ∃ now,
    v'.row = some (closeReservation now s s.status r) := by
  cases hstep with
  | stay => exact .inl rfl
  | reserve _ _ _ _ hnew => simp [hrow] at hnew
  | dispatch _ r' hrow' _ hnone =>
    rw [hrow, Option.some.injEq] at hrow'
    subst hrow'
    simp [hresult] at hnone
  | record _ _ r' hrow' _ _ _ hacc =>
    rw [hrow, Option.some.injEq] at hrow'
    subst hrow'
    simp [hacc.1] at hresult
  | unknown _ _ r' hrow' hlive =>
    rw [hrow, Option.some.injEq] at hrow'
    subst hrow'
    simp [hlive.2] at hresult
  | settle now s' _ r' hrow' hdue =>
    rw [hrow, Option.some.injEq] at hrow'
    subst hrow'
    cases hdue with
    | pending _ happlied hpending =>
      obtain rfl : s' = s := Option.some.inj (hpending.symm.trans hresult)
      exact .inr ⟨happlied, now, rfl⟩
    | resolved _ _ happlies => simp [happlies.2.1] at hresult

/-- A closed reservation stays as it is. -/
theorem Inv.step_of_closed (h : v.Inv id) (hrow : v.row = some r)
    (hclosed : r.status = .settled ∨ r.status = .released) (hstep : View.Step id v v') :
    v' = v := by
  have hr := h.rowInv hrow
  -- a closed reservation has its result applied already
  obtain ⟨s, hresult, happlied⟩ : ∃ s, r.result = some s ∧ r.resultApplied = true := by
    cases hr.stage with
    | untouched hst => rcases hclosed with hc | hc <;> simp [hc] at hst
    | atRisk hst => rcases hclosed with hc | hc <;> simp [hc] at hst
    | closed s _ _ happlied hresult => exact ⟨s, hresult, happlied⟩
  rcases hstep.of_result hrow hresult with heq | ⟨hnot, -⟩
  · exact heq
  · simp [happlied] at hnot

/-- **What a move does to the row**: its version grows whenever it changes, and its status moves
forward only. -/
theorem Inv.step_row (h : v.Inv id) (hrow : v.row = some r) (hstep : View.Step id v v') :
    ∃ r', v'.row = some r' ∧ r'.id = r.id ∧ (r' = r ∨ r.version < r'.version) ∧
      (r.status = .releasedUnknown → r'.status = .releasedUnknown ∨ r'.status = .settled) ∧
      v'.items.map ReservationItem.shape = v.items.map ReservationItem.shape := by
  have hr := h.rowInv hrow
  cases hstep with
  | stay => exact ⟨r, hrow, rfl, .inl rfl, .inl, rfl⟩
  | reserve _ _ _ _ hnew => simp [hrow] at hnew
  | dispatch now r' hrow' hstatus =>
    rw [hrow, Option.some.injEq] at hrow'
    subst hrow'
    refine ⟨_, rfl, rfl, .inr (Int.lt_succ _), fun hst ↦ ?_, rfl⟩
    simp [hst] at hstatus
  | record now s r' hrow' =>
    rw [hrow, Option.some.injEq] at hrow'
    subst hrow'
    exact ⟨_, rfl, rfl, .inr (Int.lt_succ _), .inl, rfl⟩
  | unknown now reason r' hrow' hlive =>
    rw [hrow, Option.some.injEq] at hrow'
    subst hrow'
    refine ⟨_, rfl, rfl, .inr (Int.lt_succ _), fun hst ↦ ?_, rfl⟩
    rcases hlive.1 with hl | hl <;> simp [hst] at hl
  | settle now s status r' hrow' hdue =>
    rw [hrow, Option.some.injEq] at hrow'
    subst hrow'
    refine ⟨_, rfl, closeReservation_id .., .inr ?_, fun hst ↦ ?_, ?_⟩
    · rw [closeReservation]
      split <;> exact Int.lt_succ _
    · have hsettled := Due.status_of_atRisk hr.stage hst hdue
      subst hsettled
      exact .inr rfl
    · rw [List.map_map]
      rfl

end Moves

end View

/-! ## What the row tells about the items -/

namespace View.RowInv

variable {id : String} {v : View} {r : ReservationRow}

theorem resultApplied_iff (h : v.RowInv id r) :
    r.resultApplied = true ↔ r.status = .settled ∨ r.status = .released := by
  cases h.stage with
  | untouched hst _ happlied => rcases hst with hs | hs | hs <;> simp [happlied, hs]
  | atRisk hst _ happlied => simp [happlied, hst]
  | closed s hst _ happlied =>
    rw [hst]
    exact ⟨fun _ ↦ status_final s, fun _ ↦ happlied⟩

theorem items_of_open (h : v.RowInv id r)
    (hst : r.status = .reserved ∨ r.status = .dispatched ∨ r.status = .unknown) :
    ∀ i ∈ v.items, i.held = i.reserved ∧ i.committed = 0 ∧ i.released = 0 := by
  cases h.stage with
  | untouched _ _ _ hv => exact hv.items
  | atRisk hst' => simp [hst'] at hst
  | closed s hst' =>
    rw [hst'] at hst
    rcases status_final s with hf | hf <;> simp [hf] at hst

theorem items_of_settled (h : v.RowInv id r) (hst : r.status = .settled) :
    ∃ s, r.result = some s ∧ r.actual = some s.actual ∧
      ∀ i ∈ v.items, i.held = 0 ∧ i.committed = s.actual := by
  cases h.stage with
  | untouched hst' => simp [hst] at hst'
  | atRisk hst' => simp [hst] at hst'
  | closed s _ hactual _ hresult hv => exact ⟨s, hresult, hactual, hv.items⟩

theorem items_of_released (h : v.RowInv id r)
    (hst : r.status = .released ∨ r.status = .releasedUnknown) :
    ∀ i ∈ v.items, i.held = 0 ∧ i.committed = 0 := by
  cases h.stage with
  | untouched hst' => rcases hst with hs | hs <;> simp [hs] at hst'
  | atRisk _ _ _ _ hv => exact hv.items
  | closed s hst' _ _ hresult hv =>
    -- a result that leads to `released` charges nothing
    have hzero : s.actual = 0 := by
      rcases (h.result s hresult).outcome with hk | ⟨-, hz, -⟩
      · rw [hst'] at hst
        simp [Settlement.status, hk] at hst
      · exact hz
    rw [← hzero]
    exact fun i hi ↦ ⟨(hv.items i hi).1.trans hzero.symm, (hv.items i hi).2⟩

end View.RowInv

/-! ## Runs -/

/-- The operations that only report on the progress of a reservation. -/
def Op.MovesNothing : Op → Prop
  | .markDispatched _ _ => True
  | .markStale _ _ _ => True
  | .finishFirst _ s => s.outcome = .unknown
  | _ => False

/-- What holds in every reachable state. -/
structure State.Good (st : State) : Prop where
  wf : st.db.WF
  views : ∀ id, (st.view id).Inv id

section Runs

variable {zones : Zones} {st : State} {db : Db}

theorem State.Good.step (h : st.Good) (op : Op) : (step zones st op).Good :=
  ⟨wf_step op h.wf, fun id ↦ (h.views id).step (view_step zones id op h.wf)⟩

theorem State.Good.run (h : st.Good) (ops : List Op) :
    (Run.run (Voxeltoad.step zones) st ops).Good :=
  Run.invariant (fun _ op hs ↦ hs.step op) ops h

theorem good_start (h : db.Initial) : (State.start db).Good := by
  refine ⟨h.wf, fun id ↦ ?_⟩
  have hv : (State.start db).view id = ⟨none, [], [], [], 0⟩ := by
    simp [State.view, State.start, Db.reservation, Db.itemsOf, Db.risks, Table.find,
      h.reservations, h.items, h.usageRecords, h.events]
  rw [hv]
  exact ⟨⟨by simp, rfl, rfl, rfl⟩, rfl⟩

theorem good_runOps (h : db.Initial) (ops : List Op) : (runOps zones db ops).Good :=
  (good_start h).run ops

/-- The row of a reservation, and its invariant. -/
theorem State.Good.rowInv (h : st.Good) {r : ReservationRow} (hr : r ∈ st.db.reservations) :
    st.db.reservation r.id = some r ∧ (st.view r.id).RowInv r.id r := by
  have hrow := h.wf.reservations.find_of_mem hr
  exact ⟨hrow, (h.views r.id).rowInv hrow⟩

/-- An operation that only looks at a reservation's progress leaves all money where it is. -/
theorem step_movesNothing (zones : Zones) (st : State) {op : Op} (hop : op.MovesNothing) :
    (step zones st op).db.quotas = st.db.quotas ∧
      (step zones st op).db.accounts = st.db.accounts ∧
      (step zones st op).db.items = st.db.items := by
  cases htx : op.tx zones st.db with
  | error e =>
    rw [step_of_error htx]
    exact ⟨rfl, rfl, rfl⟩
  | ok db' =>
    rw [step_of_ok htx]
    have hsame : st.db.SameBooks db' := by
      cases op with
      | markDispatched now id =>
        cases htx
        exact markDispatchedUpdate_sameBooks now id st.db
      | finishFirst now s => exact finishFirst_sameBooks htx
      | markStale now before locked => exact markStale_sameBooks htx
      | _ => exact hop.elim
    exact ⟨hsame.quotas, hsame.accounts, hsame.items⟩

/-- An account keeps its policy and its period. -/
theorem account_step (zones : Zones) (h : st.Good) (op : Op) {a : BudgetAccountRow}
    (ha : a ∈ st.db.accounts) :
    ∃ a' ∈ (step zones st op).db.accounts, a'.shape = a.shape := by
  rcases step_effect zones op h.wf with hstay | ⟨heff, -, -⟩
  · rw [hstay]
    exact ⟨a, ha, rfl⟩
  · generalize (step zones st op).db = db' at heff
    cases heff with
    | rows hsame =>
      rw [hsame.accounts]
      exact ⟨a, ha, rfl⟩
    | settle now row s status db₁ hrow hdue hok hsame hres =>
      rw [((applyReservation_ok h.wf.items hok).of_sameBooks hsame hres).accounts]
      exact ⟨_, List.mem_map_of_mem ha, rfl⟩
    | hold now req tenantID hnew hest hholds =>
      refine hholds.rec_on (P := fun db' ↦ ∃ a' ∈ db'.accounts, a'.shape = a.shape) ?_ ⟨a, ha, rfl⟩
      rintro db₁ db₂ - - hstep ⟨a₁, ha₁, hs⟩
      cases hstep with
      | quota => exact ⟨a₁, ha₁, hs⟩
      | openAccount => exact ⟨a₁, List.mem_append_left _ ha₁, hs⟩
      | account p b =>
        refine ⟨_, Table.mem_modify.mpr ⟨a₁, ha₁, rfl⟩, ?_⟩
        split <;> exact hs
    | policy row hid hlimit heq =>
      subst heq
      exact ⟨a, ha, rfl⟩
    | limit tenantID row limit enabled start hrow hlimit heq =>
      subst heq
      have hmem : a.shape ∈
          (patched tenantID row.id limit enabled (st.db.accountFor row.id start)
            st.db).shape.accounts := by
        rw [shape_patched]
        exact List.mem_map_of_mem ha
      exact List.mem_map.mp hmem
    | credit scope delta heq =>
      rcases heq with ⟨-, currency, -, rfl⟩ | ⟨-, rfl⟩ <;> exact ⟨a, ha, rfl⟩

theorem account_run (zones : Zones) (h : st.Good) (ops : List Op) {a : BudgetAccountRow}
    (ha : a ∈ st.db.accounts) :
    ∃ a' ∈ (Run.run (step zones) st ops).db.accounts, a'.shape = a.shape := by
  induction ops generalizing st a with
  | nil => exact ⟨a, ha, rfl⟩
  | cons op ops ih =>
    obtain ⟨a₁, ha₁, hs₁⟩ := account_step zones h op ha
    obtain ⟨a₂, ha₂, hs₂⟩ := ih (h.step op) ha₁
    exact ⟨a₂, ha₂, hs₂.trans hs₁⟩

/-- A reservation keeps its items. -/
theorem items_run (zones : Zones) (h : st.Good) (ops : List Op) {id : String} {r : ReservationRow}
    (hr : st.db.reservation id = some r) :
    ((Run.run (step zones) st ops).db.itemsOf id).map ReservationItem.shape =
      (st.db.itemsOf id).map ReservationItem.shape := by
  induction ops generalizing st r with
  | nil => rfl
  | cons op ops ih =>
    obtain ⟨r', hr', -, -, -, hitems⟩ := (h.views id).step_row hr (view_step zones id op h.wf)
    exact (ih (h.step op) hr').trans hitems

/-- The items of a reservation that is being settled have not been charged before. -/
theorem State.Good.committed_eq_zero (h : st.Good) {row : ReservationRow} {s : Settlement}
    {status : Status} (hrow : st.db.reservation row.id = some row) (hdue : row.Due s status)
    {i : ReservationItem} (hi : i ∈ st.db.itemsOf row.id) : i.committed = 0 := by
  obtain ⟨-, hv | ⟨hv, -⟩, -⟩ := ((h.views row.id).rowInv hrow).due hdue
  · exact (hv.items i hi).2.1
  · exact (hv.items i hi).2

/-- **A settlement is charged to the accounts of the reservation's items**, whenever it is applied,
and to no other account. -/
theorem charged_accounts (h : st.Good) {op : Op} {db' : Db} {e : Applied}
    (htx : op.tx zones st.db = .ok db') (happlied : op.applied st.db = [e]) :
    (∀ a ∈ st.db.accounts, (∀ i ∈ st.db.itemsOf e.reservationID, i.target ≠ .account a.id) →
      a ∈ db'.accounts) ∧
    ∀ i ∈ st.db.itemsOf e.reservationID, ∀ a ∈ st.db.accounts, i.target = .account a.id →
      ∃ a' ∈ db'.accounts, a'.shape = a.shape ∧
        a'.committed = a.committed + e.settlement.actual := by
  cases tx_effect h.wf htx with
  | settle now row s status db₁ hrow hdue hok hsame hres hcredits happ =>
    rw [happlied, List.cons.injEq] at happ
    have hset := (applyReservation_ok h.wf.items hok).of_sameBooks hsame hres
    obtain ⟨rfl, -⟩ := happ
    constructor
    · intro a ha hno
      have hsame : a.charged (st.db.itemsOf row.id) s.actual = a := by
        simp only [BudgetAccountRow.charged]
        rw [Table.sumOver_eq_zero fun i hi ht ↦ absurd ht (hno i hi),
          Table.sumOver_eq_zero fun i hi ht ↦ absurd ht (hno i hi),
          Table.sumOver_eq_zero fun i hi ht ↦ absurd ht (hno i hi)]
        simp
      rw [hset.accounts]
      exact List.mem_map.mpr ⟨a, ha, hsame⟩
    · intro i hi a ha ht
      rw [hset.accounts]
      refine ⟨_, List.mem_map_of_mem ha, rfl, ?_⟩
      -- the item is the only one of the reservation on this account
      have huniq : ∀ j ∈ st.db.itemsOf row.id, j.target = .account a.id ↔ j = i := by
        intro j hj
        refine ⟨fun hjt ↦ ?_, fun hji ↦ hji ▸ ht⟩
        obtain ⟨hjm, hjr⟩ := mem_itemsOf.mp hj
        obtain ⟨him, hir⟩ := mem_itemsOf.mp hi
        exact h.wf.itemTargets.eq_of_key hjm him (by rw [hjr, hir, hjt, ht])
      have hnodup : (st.db.itemsOf row.id).Nodup := (List.Nodup.of_map _ h.wf.items).filter _
      show a.committed + Table.sumOver _ _ _ = _
      rw [Table.sumOver_eq_single hnodup hi huniq, h.committed_eq_zero hrow hdue hi, sub_zero]
  | rows _ _ happ => simp [happlied] at happ
  | hold _ _ _ _ _ _ _ happ => simp [happlied] at happ
  | policy _ _ _ _ _ happ => simp [happlied] at happ
  | limit _ _ _ _ _ _ _ _ _ happ => simp [happlied] at happ
  | credit _ _ _ _ happ => simp [happlied] at happ

/-- **The life cycle of a reservation.**  In every reachable state, for every reservation, the
status, the result and the items agree; whatever the next step is, the status moves forward only
and the version grows; reporting progress moves no money; and what the reservation is charged to
was decided when it was made, however late it is settled. -/
theorem reservation_lifecycle (hinit : db.Initial) (ops : List Op) (r : ReservationRow)
    (hr : r ∈ (runOps zones db ops).db.reservations) :
    let st := runOps zones db ops
    (r.resultApplied = true ↔ r.status = .settled ∨ r.status = .released) ∧
    (r.status = .reserved ∨ r.status = .dispatched ∨ r.status = .unknown →
      ∀ i ∈ st.db.itemsOf r.id, i.held = i.reserved ∧ i.committed = 0 ∧ i.released = 0) ∧
    (r.status = .settled → ∃ s, r.result = some s ∧ r.actual = some s.actual ∧
      ∀ i ∈ st.db.itemsOf r.id, i.held = 0 ∧ i.committed = s.actual) ∧
    (r.status = .released ∨ r.status = .releasedUnknown →
      ∀ i ∈ st.db.itemsOf r.id, i.held = 0 ∧ i.committed = 0) ∧
    (∀ op, ∃ r' ∈ (step zones st op).db.reservations, r'.id = r.id ∧
      (r.status = .settled ∨ r.status = .released → r' = r) ∧
      (r.status = .releasedUnknown → r'.status = .releasedUnknown ∨ r'.status = .settled) ∧
      (r' ≠ r → r.version < r'.version)) ∧
    (∀ op, op.MovesNothing →
      (step zones st op).db.quotas = st.db.quotas ∧
      (step zones st op).db.accounts = st.db.accounts ∧
      (step zones st op).db.items = st.db.items) ∧
    ∀ later, let st₁ := Run.run (step zones) st later
      (st₁.db.itemsOf r.id).map ReservationItem.shape =
        (st.db.itemsOf r.id).map ReservationItem.shape ∧
      ∀ (op : Op) (db' : Db) (e : Applied), op.tx zones st₁.db = .ok db' →
        op.applied st₁.db = [e] → e.reservationID = r.id →
        (∀ a ∈ st₁.db.accounts, (∀ i ∈ st.db.itemsOf r.id, i.target ≠ .account a.id) →
          a ∈ db'.accounts) ∧
        ∀ i ∈ st.db.itemsOf r.id, ∀ a ∈ st.db.accounts, i.target = .account a.id →
          ∃ a₁ ∈ st₁.db.accounts, ∃ a' ∈ db'.accounts, a₁.shape = a.shape ∧ a'.shape = a.shape ∧
            a'.committed = a₁.committed + e.settlement.actual := by
  intro st
  have hgood : st.Good := good_runOps hinit ops
  obtain ⟨hrow, hinv⟩ := hgood.rowInv hr
  refine ⟨hinv.resultApplied_iff, hinv.items_of_open, hinv.items_of_settled,
    hinv.items_of_released, ?_, fun op hop ↦ step_movesNothing zones st hop, ?_⟩
  · intro op
    have hstep := view_step zones r.id op hgood.wf
    obtain ⟨r', hr', hid, hversion, hrisk, -⟩ := (hgood.views r.id).step_row hrow hstep
    refine ⟨r', (Table.mem_of_find hr').1, hid, fun hclosed ↦ ?_, hrisk, fun hne ↦ ?_⟩
    · rw [(hgood.views r.id).step_of_closed hrow hclosed hstep] at hr'
      exact Option.some.inj (hr'.symm.trans hrow)
    · exact hversion.resolve_left hne
  · intro later st₁
    have hitems := items_run zones hgood later hrow
    refine ⟨hitems, fun op db' e htx happlied hid ↦ ?_⟩
    obtain ⟨hother, hown⟩ := charged_accounts (hgood.run later) htx happlied
    rw [hid] at hother hown
    -- the items now and then have the same targets
    have hsame : ∀ t : Target, (∃ i ∈ st₁.db.itemsOf r.id, i.target = t) ↔
        ∃ i ∈ st.db.itemsOf r.id, i.target = t := by
      intro t
      have hmap := congrArg (List.map ReservationItem.target) hitems
      rw [List.map_map, List.map_map] at hmap
      have hmem : t ∈ (st₁.db.itemsOf r.id).map ReservationItem.target ↔
          t ∈ (st.db.itemsOf r.id).map ReservationItem.target := by
        rw [show (st₁.db.itemsOf r.id).map ReservationItem.target =
          (st.db.itemsOf r.id).map ReservationItem.target from hmap]
      simpa using hmem
    constructor
    · intro a ha hno
      refine hother a ha fun i hi ht ↦ ?_
      obtain ⟨j, hj, hjt⟩ := (hsame _).mp ⟨i, hi, ht⟩
      exact hno j hj hjt
    · intro i hi a ha ht
      obtain ⟨a₁, ha₁, hs₁⟩ := account_run zones hgood later ha
      have hid₁ : a₁.shape.id = a.shape.id := congrArg BudgetAccountRow.id hs₁
      obtain ⟨j, hj, hjt⟩ := (hsame _).mpr ⟨i, hi, ht⟩
      obtain ⟨a', ha', hs', hcomm⟩ := hown j hj a₁ ha₁
        (hjt.trans (congrArg Target.account hid₁.symm))
      exact ⟨a₁, ha₁, a', ha', hs₁, hs'.trans hs₁, hcomm⟩

/-- The reservation of the sample run is settled at four. -/
theorem reservation_lifecycle_sample :
    ∃ s, ((runOps Zones.utc Db.sample Op.sample).db.reservations.head (by decide)).result = some s ∧
      ((runOps Zones.utc Db.sample Op.sample).db.reservations.head (by decide)).actual =
        some s.actual ∧
      ∀ i ∈ (runOps Zones.utc Db.sample Op.sample).db.itemsOf "a",
        i.held = 0 ∧ i.committed = s.actual :=
  (reservation_lifecycle Db.sample_initial Op.sample _ (List.head_mem (by decide))).2.2.1
    (by decide)

end Runs

end Voxeltoad
