import Voxeltoad.Store.Effects

/-!
# A reservation, seen on its own

`State.view id st` is all there is about the reservation `id` in a state of the store: its row, its
items, the settlements that were applied to it, its usage rows and the number of its attempt-risk
events.  `View.Step` is the automaton these go through, six moves in all, and `view_step` is the
refinement: whatever operation the store runs, on this reservation or another one, the view takes
one of these moves or stays where it is.

What holds of a single reservation is therefore a matter of the automaton alone.
-/

set_option autoImplicit false

namespace Voxeltoad

/-- What there is about one reservation. -/
structure View where
  row : Option ReservationRow
  items : List ReservationItem
  applied : List Applied
  usage : List UsageRow
  risks : Nat

/-- A state, seen from one reservation. -/
def State.view (id : String) (st : State) : View where
  row := st.db.reservation id
  items := st.db.itemsOf id
  applied := st.history.applied.filter fun a ↦ a.reservationID = id
  usage := st.db.usageRecords.filter fun u ↦ u.reservationID = id
  risks := st.db.risks id

/-- An item that holds all it reserved. -/
def ReservationItem.Untouched (i : ReservationItem) : Prop :=
  i.held = i.reserved ∧ i.committed = 0 ∧ i.released = 0

/-- **The moves of a reservation.** -/
inductive View.Step (id : String) : View → View → Prop
  | stay (v : View) : Step id v v
  /-- `Reserve` -/
  | reserve (now : Time) (tenantID : Int) (req : ReservationRequest) (items : List ReservationItem)
      {v : View} (hnew : v.row = none) (hid : req.id = id)
      (hitems : ∀ i ∈ items, i.Untouched ∧ 0 ≤ i.reserved) (hne : id ≠ "") :
      Step id v { v with row := some (newReservation now tenantID req), items := items }
  /-- `MarkDispatched` -/
  | dispatch (now : Time) (r : ReservationRow) {v : View} (hrow : v.row = some r)
      (hstatus : r.status = .reserved) (hresult : r.result = none) :
      Step id v { v with
        row := some { r with status := .dispatched, version := r.version + 1, updatedAt := now } }
  /-- The first transaction of `Finish`, when the charge is known. -/
  | record (now : Time) (s : Settlement) (r : ReservationRow) {v : View} (hrow : v.row = some r)
      (hvalid : validateSettlement s = .ok ()) (houtcome : s.outcome ≠ .unknown)
      (hid : s.reservationID = id) (haccepts : r.Accepts s) :
      Step id v { v with
        row := some { r with result := some s, resultApplied := false, version := r.version + 1,
                             updatedAt := now } }
  /-- `Finish` when the charge is unknown, and `MarkStale`. -/
  | unknown (now : Time) (reason : String) (r : ReservationRow) {v : View} (hrow : v.row = some r)
      (hlive : r.Live) :
      Step id v { v with
        row := some { r with status := .unknown, reason := reason, version := r.version + 1,
                             updatedAt := now } }
  /-- The second transaction of `Finish`, and `Resolve`. -/
  | settle (now : Time) (s : Settlement) (status : Status) (r : ReservationRow) {v : View}
      (hrow : v.row = some r) (hdue : r.Due s status) :
      Step id v
        { row := some (closeReservation now s status r)
          items := v.items.map (ReservationItem.charged s.actual)
          applied := v.applied ++ [⟨id, s, status, v.items⟩]
          usage := v.usage ++ usageRows id s
          risks := v.risks + if s.attemptRisk then 1 else 0 }

/-! ## Moves that do not concern the reservation -/

section Steps

variable {zones : Zones} {id : String} {st st' : State}

/-- A state that has the same rows, items, usage and events for the reservation has the same
view. -/
theorem view_eq (hrow : st'.db.reservation id = st.db.reservation id)
    (hitems : st'.db.items = st.db.items) (husage : st'.db.usageRecords = st.db.usageRecords)
    (hrisks : st'.db.risks id = st.db.risks id)
    (happlied : st'.history.applied = st.history.applied) : st'.view id = st.view id := by
  rw [State.view, State.view, Db.itemsOf, Db.itemsOf, hrow, hitems, husage, hrisks, happlied]

/-- When only rows of `billing_reservations` change, so does only the row of the view. -/
theorem view_of_sameBooks (hsame : st.db.SameBooks st'.db)
    (happlied : st'.history.applied = st.history.applied) :
    st'.view id = { st.view id with row := st'.db.reservation id } := by
  simp only [State.view, Db.itemsOf, hsame.items, hsame.usageRecords, hsame.risks, happlied]

/-- An update of rows by key, seen from one reservation. -/
theorem reservation_modify (id : String) {db db' : Db} {k : String}
    {f : ReservationRow → ReservationRow} (hf : ∀ r, (f r).id = r.id)
    (h : db'.reservations = Table.modify ReservationRow.id k f db.reservations) :
    db'.reservation id = (db.reservation id).map fun r ↦ if r.id = k then f r else r := by
  rw [Db.reservation, h, Table.find_modify hf]
  rfl

end Steps

/-! ## The operations, one by one -/

section Operations

variable {zones : Zones} {id : String} {st st' : State}

/-- Rewriting the row of one reservation is a move of that reservation, and of no other. -/
theorem view_modify {k : String} {f : ReservationRow → ReservationRow}
    (hres : st'.db.reservations = Table.modify ReservationRow.id k f st.db.reservations)
    (hf : ∀ r, (f r).id = r.id) (hsame : st.db.SameBooks st'.db)
    (happlied : st'.history.applied = st.history.applied)
    (hmove : ∀ r, st.db.reservation k = some r → ∀ v : View, v.row = some r →
      View.Step k v { v with row := some (f r) }) :
    View.Step id (st.view id) (st'.view id) := by
  rw [view_of_sameBooks hsame happlied, reservation_modify id hf hres]
  cases hrow : st.db.reservation id with
  | none =>
    rw [Option.map_none, ← hrow]
    exact .stay _
  | some r =>
    obtain ⟨-, hid⟩ := Table.mem_of_find hrow
    rw [Option.map_some]
    split
    · rename_i hk
      have hid' : k = id := hk.symm.trans hid
      subst hid'
      exact hmove r hrow _ hrow
    · rw [← hrow]
      exact .stay _

theorem view_markDispatched {now : Time} {k : String}
    (hdb : st'.db = markDispatchedUpdate now k st.db)
    (happlied : st'.history.applied = st.history.applied) :
    View.Step id (st.view id) (st'.view id) := by
  have hsame : st.db.SameBooks st'.db := by
    rw [hdb]
    exact markDispatchedUpdate_sameBooks now k st.db
  rw [markDispatchedUpdate] at hdb
  split at hdb
  · rename_i hhits
    refine view_modify (congrArg Db.reservations hdb) (fun _ ↦ rfl) hsame happlied
      fun r hr v hv ↦ ?_
    rw [markDispatchedHits, hr, Option.any_some, decide_eq_true_eq] at hhits
    exact .dispatch now r hv hhits.1 hhits.2
  · rw [view_of_sameBooks hsame happlied, hdb]
    exact .stay _

theorem view_finishFirst {now : Time} {s : Settlement}
    (hok : finishFirst now s st.db = .ok st'.db)
    (happlied : st'.history.applied = st.history.applied) :
    View.Step id (st.view id) (st'.view id) := by
  have hsame := finishFirst_sameBooks hok
  obtain ⟨hvalid, row, hrow, hdb | ⟨-, hlive, hdb⟩ | ⟨hout, hacc, hdb⟩⟩ := finishFirst_ok hok
  · rw [view_of_sameBooks hsame happlied, hdb]
    exact .stay _
  · obtain ⟨-, hid⟩ := Table.mem_of_find hrow
    have hres := (congrArg Db.reservations hdb).trans (markReservationUnknown_reservations ..)
    refine view_modify hres (fun _ ↦ rfl) hsame happlied fun r hr v hv ↦ ?_
    rw [hid, hrow, Option.some.injEq] at hr
    subst hr
    exact .unknown now s.reason row hv hlive
  · refine view_modify (congrArg Db.reservations hdb) (fun _ ↦ rfl) hsame happlied
      fun r hr v hv ↦ ?_
    rw [hrow, Option.some.injEq] at hr
    subst hr
    exact .record now s row hv hvalid hout rfl hacc

/-- The sweep rewrites the rows it selected, each of them once. -/
theorem sweep_reservations (now : Time) (reason : String) (rows : List ReservationRow)
    (hnodup : (rows.map ReservationRow.id).Nodup) (db : Db) :
    (rows.foldl (fun db row ↦ markReservationUnknown now row reason db) db).reservations =
      db.reservations.map fun r ↦
        if r.id ∈ rows.map ReservationRow.id then
          { r with status := .unknown, reason := reason, version := r.version + 1,
                   updatedAt := now }
        else r := by
  induction rows generalizing db with
  | nil => simp
  | cons row rows ih =>
    obtain ⟨hnew, hrest⟩ := List.nodup_cons.mp hnodup
    rw [List.foldl_cons, ih hrest, markReservationUnknown_reservations, Table.modify,
      List.map_map]
    refine List.map_congr_left fun r _ ↦ ?_
    rw [Function.comp_apply, List.map_cons]
    by_cases hr : r.id = row.id
    · simp [hr, hnew]
    · simp [hr]

theorem staleCandidates_sublist (before : Time) (db : Db) :
    ∃ l, (staleCandidates before db).Sublist l ∧ l.Perm (db.reservations.filter fun r ↦
      r.Stale before) :=
  ⟨_, List.take_sublist .., List.perm_insertionSort ..⟩

theorem view_markStale {now before : Time} {locked : List String} (hwf : st.db.WF)
    (hok : markStale now before locked st.db = .ok st'.db)
    (happlied : st'.history.applied = st.history.applied) :
    View.Step id (st.view id) (st'.view id) := by
  obtain ⟨l, hsub, hperm⟩ := staleCandidates_sublist before st.db
  -- the rows that are swept are live, and they are rows of the table
  have hmem : ∀ row ∈ (staleCandidates before st.db).filter (fun row ↦ row.id ∉ locked),
      row ∈ st.db.reservations ∧ row.Live := by
    intro row hrow
    have hl := hperm.mem_iff.mp (hsub.subset (List.mem_filter.mp hrow).1)
    obtain ⟨hmem, hstale⟩ := List.mem_filter.mp hl
    exact ⟨hmem, (of_decide_eq_true hstale).1⟩
  have hnodup : (((staleCandidates before st.db).filter fun row ↦ row.id ∉ locked).map
      ReservationRow.id).Nodup := by
    have hl : (l.map ReservationRow.id).Nodup :=
      ((hperm.map _).nodup_iff).mpr
        (hwf.reservations.sublist ((List.filter_sublist ..).map _))
    exact hl.sublist (((List.filter_sublist ..).trans hsub).map _)
  rw [view_of_sameBooks (markStale_sameBooks hok) happlied, Db.reservation, markStale_ok hok,
    sweep_reservations now _ _ hnodup]
  generalize (staleCandidates before st.db).filter (fun row ↦ row.id ∉ locked) = rows at *
  rw [Table.find_map (fun r ↦ by split <;> rfl)]
  cases hrow : st.db.reservation id with
  | none =>
    have hnone : Table.find ReservationRow.id id st.db.reservations = none := hrow
    rw [hnone, Option.map_none, ← hrow]
    exact .stay _
  | some r =>
    have hsome : Table.find ReservationRow.id id st.db.reservations = some r := hrow
    rw [hsome, Option.map_some]
    split
    · rename_i hswept
      obtain ⟨row, hrows, hid⟩ := List.mem_map.mp hswept
      obtain ⟨hrmem, hlive⟩ := hmem row hrows
      rw [hwf.reservations.eq_of_key hrmem (Table.mem_of_find hrow).1 hid] at hlive
      exact .unknown now _ r hrow hlive
    · rw [← hrow]
      exact .stay _

theorem itemsOf_settledBy {now : Time} {row : ReservationRow} {s : Settlement} {status : Status}
    {db db' : Db} (h : Db.SettledBy now row s status db db') :
    db'.itemsOf id =
      if id = row.id then (db.itemsOf id).map (ReservationItem.charged s.actual)
      else db.itemsOf id := by
  rw [Db.itemsOf, h.items, List.filter_map]
  have hres : ∀ i : ReservationItem,
      (if i.reservationID = row.id then i.charged s.actual else i).reservationID =
        i.reservationID := by
    intro i
    split <;> rfl
  simp only [Function.comp_def, hres]
  split
  · rename_i hid
    refine List.map_congr_left fun i hi ↦ ?_
    have hi' : i.reservationID = id := by simpa using (List.mem_filter.mp hi).2
    rw [if_pos (hi'.trans hid)]
  · rename_i hid
    refine (List.map_congr_left fun i hi ↦ ?_).trans (List.map_id _)
    have hi' : i.reservationID = id := by simpa using (List.mem_filter.mp hi).2
    exact if_neg fun he ↦ hid (hi'.symm.trans he)

theorem closeReservation_id (now : Time) (s : Settlement) (status : Status) (r : ReservationRow) :
    (closeReservation now s status r).id = r.id := by
  rw [closeReservation]
  split <;> rfl

theorem usageRows_reservationID {id : String} {s : Settlement} {u : UsageRow}
    (hu : u ∈ usageRows id s) : u.reservationID = id := by
  rw [usageRows] at hu
  split at hu
  · cases hs : s.usage with
    | none => simp [hs] at hu
    | some rec =>
      simp only [hs, Option.map_some, Option.toList_some, List.mem_singleton] at hu
      rw [hu]
  · simp at hu

theorem view_settle {now : Time} {row : ReservationRow} {s : Settlement} {status : Status}
    (hrow : st.db.reservation row.id = some row) (hdue : row.Due s status)
    (hset : Db.SettledBy now row s status st.db st'.db)
    (happlied : st'.history.applied =
      st.history.applied ++ [⟨row.id, s, status, st.db.itemsOf row.id⟩]) :
    View.Step id (st.view id) (st'.view id) := by
  have hres := reservation_modify id (closeReservation_id now s status) hset.reservations
  by_cases hid : id = row.id
  · subst hid
    have hv : st'.view row.id =
        { row := some (closeReservation now s status row)
          items := (st.view row.id).items.map (ReservationItem.charged s.actual)
          applied := (st.view row.id).applied ++ [⟨row.id, s, status, (st.view row.id).items⟩]
          usage := (st.view row.id).usage ++ usageRows row.id s
          risks := (st.view row.id).risks + if s.attemptRisk then 1 else 0 } := by
      have husage : (usageRows row.id s).filter (fun u ↦ u.reservationID = row.id) =
          usageRows row.id s :=
        List.filter_eq_self.mpr fun u hu ↦ by simpa using usageRows_reservationID hu
      simp [State.view, hres, hrow, itemsOf_settledBy hset, happlied, hset.usageRecords, husage,
        hset.risks]
    rw [hv]
    exact .settle now s status row hrow hdue
  · have hv : st'.view id = st.view id := by
      have hrow' : st'.db.reservation id = st.db.reservation id := by
        rw [hres]
        cases hr : st.db.reservation id with
        | none => rfl
        | some r =>
          obtain ⟨-, hrid⟩ := Table.mem_of_find hr
          rw [Option.map_some, if_neg (by rw [hrid]; exact hid)]
      have husage : (usageRows row.id s).filter (fun u ↦ u.reservationID = id) = [] :=
        List.filter_eq_nil_iff.mpr fun u hu he ↦
          hid ((of_decide_eq_true he).symm.trans (usageRows_reservationID hu))
      simp [State.view, hrow', itemsOf_settledBy hset, happlied, hset.usageRecords, husage,
        hset.risks, hid, Ne.symm hid]
    rw [hv]
    exact .stay _

/-- What a sequence of holds leaves alone, and what it adds for its own reservation. -/
theorem Db.Holds.items {req : ReservationRequest} {db db' : Db} (h : Db.Holds req db db') :
    db'.usageRecords = db.usageRecords ∧ db'.events = db.events ∧
      ∃ new : List ReservationItem, db'.items = db.items ++ new ∧
        ∀ i ∈ new, i.reservationID = req.id ∧ i.Untouched ∧ i.reserved = req.estimate := by
  refine h.rec_on (P := fun db' ↦ db'.usageRecords = db.usageRecords ∧ db'.events = db.events ∧
    ∃ new : List ReservationItem, db'.items = db.items ++ new ∧
      ∀ i ∈ new, i.reservationID = req.id ∧ i.Untouched ∧ i.reserved = req.estimate) ?_
    ⟨rfl, rfl, [], by simp⟩
  rintro db₁ db₂ - - hstep ⟨husage, hevents, new, hnew, hall⟩
  refine ⟨hstep.usageRecords.trans husage, hstep.events.trans hevents, ?_⟩
  rcases hstep.items with heq | ⟨target, heq⟩
  · exact ⟨new, heq.trans hnew, hall⟩
  · refine ⟨new ++ [_], by rw [heq, hnew, List.append_assoc], fun i hi ↦ ?_⟩
    rw [List.mem_append, List.mem_singleton] at hi
    rcases hi with hi | rfl
    · exact hall i hi
    · exact ⟨rfl, ⟨rfl, rfl, rfl⟩, rfl⟩

theorem view_hold {now : Time} {req : ReservationRequest} {tenantID : Int} (hwf : st.db.WF)
    (hnew : st.db.reservation req.id = none) (hest : 0 ≤ req.estimate) (hne : req.id ≠ "")
    (hholds : Db.Holds req (st.db.insertReservation (newReservation now tenantID req)) st'.db)
    (happlied : st'.history.applied = st.history.applied) :
    View.Step id (st.view id) (st'.view id) := by
  obtain ⟨husage, hevents, new, hitems, hall⟩ := hholds.items
  rw [Db.insertReservation_usageRecords] at husage
  rw [Db.insertReservation_items] at hitems
  have hrisks : st'.db.risks id = st.db.risks id := by rw [Db.risks, hevents]; rfl
  have hres : st'.db.reservation id = (st.db.reservation id).or
      (Table.find ReservationRow.id id [newReservation now tenantID req]) := by
    rw [Db.reservation, hholds.reservations]
    exact Table.find_append
  have hold : (st'.db.itemsOf id) =
      st.db.itemsOf id ++ new.filter fun i ↦ i.reservationID = id := by
    rw [Db.itemsOf, hitems, List.filter_append]
    rfl
  by_cases hid : req.id = id
  · subst hid
    have hnone : st.db.itemsOf req.id = [] :=
      List.filter_eq_nil_iff.mpr fun i hi he ↦ hwf.no_items hnew hi (of_decide_eq_true he)
    have hv : st'.view req.id =
        { st.view req.id with row := some (newReservation now tenantID req), items := new } := by
      have hnew' : new.filter (fun i ↦ i.reservationID = req.id) = new :=
        List.filter_eq_self.mpr fun i hi ↦ by simpa using (hall i hi).1
      simp [State.view, hres, hnew, hold, hnone, hnew', husage, hrisks, happlied, Table.find,
        newReservation]
    rw [hv]
    refine .reserve now tenantID req new hnew rfl (fun i hi ↦ ⟨(hall i hi).2.1, ?_⟩) hne
    rw [(hall i hi).2.2]
    exact hest
  · have hv : st'.view id = st.view id := by
      have hnew' : new.filter (fun i ↦ i.reservationID = id) = [] :=
        List.filter_eq_nil_iff.mpr fun i hi he ↦
          hid ((hall i hi).1.symm.trans (of_decide_eq_true he))
      simp [State.view, hres, hold, hnew', husage, hrisks, happlied, Table.find, newReservation,
        hid]
    rw [hv]
    exact .stay _

/-- Changing a limit raises alerts, and touches no reservation. -/
theorem patched_frame (tenantID id limit : Int) (enabled : Bool)
    (account : Option BudgetAccountRow) (db : Db) :
    (patched tenantID id limit enabled account db).reservations = db.reservations ∧
      (patched tenantID id limit enabled account db).items = db.items ∧
      (patched tenantID id limit enabled account db).usageRecords = db.usageRecords ∧
      ∀ rid, (patched tenantID id limit enabled account db).risks rid = db.risks rid := by
  have halerts := patched_sameButAlerts tenantID id limit enabled account db
  obtain ⟨new, hnew, hall⟩ := halerts.events
  rw [halerts.reservations, halerts.items, halerts.usageRecords]
  simp only [risks_of_alerts hnew hall]
  cases account <;> exact ⟨rfl, rfl, rfl, fun _ ↦ rfl⟩

/-- **Refinement.**  Seen from one reservation, a step of the store is a move of the
reservation. -/
theorem view_step (zones : Zones) (id : String) (op : Op) (hwf : st.db.WF) :
    View.Step id (st.view id) ((step zones st op).view id) := by
  cases htx : op.tx zones st.db with
  | error e =>
    rw [step_of_error htx]
    exact .stay _
  | ok db' =>
    rw [step_of_ok htx]
    have hstay : ∀ {h : History}, h.applied = st.history.applied →
        db'.reservations = st.db.reservations → db'.items = st.db.items →
        db'.usageRecords = st.db.usageRecords → db'.risks id = st.db.risks id →
        View.Step id (st.view id) (State.view id ⟨db', h⟩) := by
      intro h happlied hres hitems husage hrisks
      have hrow : db'.reservation id = st.db.reservation id :=
        congrArg (Table.find ReservationRow.id id) hres
      have hv : State.view id ⟨db', h⟩ = st.view id := view_eq hrow hitems husage hrisks happlied
      rw [hv]
      exact .stay _
    cases op with
    | reserve now req =>
      rcases reserve_ok hwf htx with rfl | ⟨req', tenantID, hvalid, hnew, hholds⟩
      · exact hstay (List.append_nil _) rfl rfl rfl rfl
      · obtain ⟨-, hest, -, hne, -⟩ := validateRequest_ok hvalid
        exact view_hold hwf hnew hest hne hholds (List.append_nil _)
    | markDispatched now k =>
      cases htx
      exact view_markDispatched rfl (List.append_nil _)
    | finishFirst now s => exact view_finishFirst htx (List.append_nil _)
    | applyPending now k =>
      obtain ⟨row, hrow, ⟨happlied, rfl⟩ | ⟨s, happlied, hresult, hok⟩⟩ := applyPending_ok htx
      · exact hstay (by simp [Op.applied, hrow, happlied]) rfl rfl rfl rfl
      · obtain ⟨-, rfl⟩ := Table.mem_of_find hrow
        exact view_settle hrow (.pending s happlied hresult) (applyReservation_ok hwf.items hok)
          (by simp [Op.applied, hrow, happlied, hresult])
    | markStale now before locked => exact view_markStale hwf htx (List.append_nil _)
    | resolve tenantID now k res =>
      obtain ⟨hvalid, row, hrow, happlies, db₁, hok, rfl⟩ := resolve_ok htx
      obtain ⟨hmem, -, rfl⟩ := mem_of_ownedReservation hrow
      exact view_settle (hwf.reservations.find_of_mem hmem) (.resolved res hvalid happlies)
        ((applyReservation_ok hwf.items hok).of_sameBooks (.insertEvent rfl (by simp) db₁) rfl) rfl
    | createPolicy tenantID now spec =>
      obtain ⟨row, -, -, -, rfl⟩ := createPolicy_ok htx
      exact hstay (List.append_nil _) rfl rfl rfl rfl
    | patch tenantID now k p =>
      obtain ⟨row, start, -, -, -, -, rfl⟩ := patch_ok htx
      obtain ⟨hres, hitems, husage, hrisks⟩ := patched_frame tenantID k
        (p.limit.getD row.limitAmount) (p.enabled.getD row.enabled) (st.db.accountFor k start) st.db
      exact hstay (List.append_nil _) hres hitems husage (hrisks id)
    | topUp scope delta currency =>
      rcases topUp_ok htx with ⟨-, -, rfl⟩ | ⟨q, -, rfl⟩
      · exact hstay (List.append_nil _) rfl rfl rfl rfl
      · exact hstay (List.append_nil _) rfl rfl rfl rfl

end Operations

end Voxeltoad
