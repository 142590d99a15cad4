import Voxeltoad.Proxy.Accounted
import Voxeltoad.Proxy.Course
import Voxeltoad.Store.ExactlyOnce

/-!
# A request closes its reservation

What a request reserves is held until the reservation is closed, and it is for the request to see to
that.  Other processes go on with the same store between any two of its statements, and they may be
after this very reservation: a sweep that takes it for stale, an operator who resolves it, another
`Finish` of it.

`request_closes` is what the ledger shows when the request has ended, and from then on.  A
reservation is not left live if every statement of the request got through to the store, and if one
of its calls of `Finish` was accepted, the ledger has what the attempts of the request call for
(`Classified`), and nothing else: `Db.ClosedWith`.
-/

set_option autoImplicit false

namespace Voxeltoad

/-! ## What others leave alone -/

/-- A property of a shared store that the transactions of other processes keep. -/
structure Shared.Stable (zones : Zones) (P : Shared → Prop) : Prop where
  commit : ∀ {w}, P w → ∀ op, P (w.commit zones op)
  note : ∀ {w}, P w → ∀ m, P (w.note m)
  turn :
    ∀ {w : Shared} {t : Turn} {ts : List Turn}, P w → w.turns = t :: ts → P { w with turns := ts }

namespace Shared.Stable

variable {zones : Zones} {P : Shared → Prop} {w : Shared}

theorem foldl_commit (hP : Stable zones P) (h : P w) (ops : List Op) :
    P (ops.foldl (Shared.commit zones) w) ∧
    (ops.foldl (Shared.commit zones) w).turns = w.turns := by
  induction ops generalizing w with
  | nil => exact ⟨h, rfl⟩
  | cons op ops ih => exact ih (hP.commit h op)

theorem wait (hP : Stable zones P) (h : P w) :
    P (w.wait zones).2 ∧ ((w.wait zones).1.fails = true → ∃ t ∈ w.turns, t.fails = true) := by
  rw [Shared.wait]
  split
  · exact ⟨h, fun hf ↦ absurd hf Bool.false_ne_true⟩
  · rename_i t ts hturns
    obtain ⟨hcommitted, hkeep⟩ := hP.foldl_commit h t.ops
    exact ⟨hP.turn hcommitted (hkeep.trans hturns), fun hf ↦ ⟨t, by simp [hturns], hf⟩⟩

theorem markDispatched (hP : Stable zones P) (h : P w) (id : String) :
    P (w.markDispatched zones id).2 := by
  obtain ⟨hupdate, -⟩ := hP.wait (hP.note h (.attempt w.st.db))
  simp only [Shared.markDispatched]
  generalize (w.note (.attempt w.st.db)).wait zones = turn at hupdate ⊢
  split
  · exact hupdate
  split
  · exact hP.commit (hP.note hupdate _) _
  obtain ⟨hselect, -⟩ := hP.wait hupdate
  generalize turn.2.wait zones = turn' at hselect ⊢
  split
  · exact hselect
  split
  · exact hselect
  · exact hP.note hselect _

/-- What a transaction comes to: it got through and committed, it got through and was refused, or it
did not get through. -/
theorem transact (hP : Stable zones P) (h : P w) (op : Time → Op) :
    let r := w.transact zones op
    P r.2 ∧
    ((r.1 = .ok () ∧ ∃ w' now db, P w' ∧ (op now).tx zones w'.st.db = .ok db ∧ r.2.st.db = db) ∨
      (∃ e now, r.1 = .error (.accounting e) ∧ (op now).tx zones r.2.st.db = .error e) ∨
      r.1 = .error .unavailable ∧ ∃ t ∈ w.turns, t.fails = true) := by
  obtain ⟨hwait, hfails⟩ := hP.wait h
  simp only [Shared.transact]
  generalize w.wait zones = turn at hwait hfails ⊢
  split
  · rename_i hf
    exact ⟨hwait, .inr (.inr ⟨rfl, hfails hf⟩)⟩
  split
  · rename_i e he
    exact ⟨hwait, .inr (.inl ⟨e, turn.1.now, rfl, he⟩)⟩
  · rename_i db hdb
    refine ⟨hP.commit hwait _, .inl ⟨rfl, turn.2, turn.1.now, db, hwait, hdb, ?_⟩⟩
    rw [Shared.commit, step_of_ok hdb]

end Shared.Stable

/-! ## What the transactions do -/

section Transactions

variable {zones : Zones} {now : Time} {db db' : Db} {t : Settlement} {row : ReservationRow}

/-- The row of a reservation, after it has been rewritten. -/
theorem reservation_rewritten {id k : String} {f : ReservationRow → ReservationRow}
    (hf : ∀ r, (f r).id = r.id)
    (h : db'.reservations = Table.modify ReservationRow.id k f db.reservations) (hk : k = id)
    (hrow : db.reservation id = some row) : db'.reservation id = some (f row) := by
  subst hk
  rw [Db.reservation, h, Table.find_modify_of_find hf hrow, if_pos rfl]

/-- After `Reserve` the reservation is there. -/
theorem reserve_found {req : ReservationRequest} (hwf : db.WF)
    (h : reserve zones now req db = .ok db') : ∃ row, db'.reservation req.id = some row := by
  obtain ⟨req', hvalid, h⟩ := Loop.bind_eq_ok.mp h
  obtain ⟨hid, -, hcur, -⟩ := validateRequest_ok hvalid
  dsimp only at h
  split at h
  · cases h
  rename_i htenant
  obtain ⟨t, ht, htid, -⟩ := tenantIDByName_ne_zero htenant
  split at h
  · rename_i row hrow
    split at h
    · cases h
      exact ⟨row, hid ▸ hrow⟩
    · cases h
  · rename_i hnone
    have hholds := reserveFresh_ok hwf hnone ⟨t, ht, htid⟩ hcur h
    rw [← Option.isSome_iff_exists, Db.reservation, hholds.reservations, Table.find_isSome_iff]
    exact ⟨newReservation now (db.tenantIDByName req'.tenant) req',
      List.mem_append_right _ (List.mem_singleton_self _), hid⟩

/-- The row of a result that has been recorded. -/
theorem not_live_of_result (h : row.result = some t) : ¬ row.Live :=
  fun hlive ↦ by simp [hlive.2] at h

/-- After the first transaction of `Finish` the reservation is not live, and its result is
recorded. -/
theorem ended_finishFirst (h : finishFirst now t db = .ok db') :
    db'.Ended t.reservationID ∧
      (t.outcome ≠ .unknown → ∃ row, db'.reservation t.reservationID = some row ∧
        row.result = some t) := by
  obtain ⟨⟨⟩, hvalid, h⟩ := Loop.bind_eq_ok.mp h
  split at h
  · rename_i hout
    refine ⟨?_, fun hne ↦ absurd hout hne⟩
    obtain ⟨row, hrow, ⟨hst, rfl⟩ | ⟨-, rfl⟩⟩ := markUnknown_ok h
    · refine ⟨row, hrow, fun hlive ↦ ?_⟩
      rcases hlive.1 with hl | hl <;> simp [hl] at hst
    · have hres :=
        reservation_rewritten (by intro; rfl)
        (markReservationUnknown_reservations now row t.reason db) (Table.mem_of_find hrow).2 hrow
      exact ⟨_, hres, by simp [ReservationRow.Live]⟩
  · obtain ⟨row, hrow, ⟨hresult, rfl⟩ | ⟨-, rfl⟩⟩ := recordResult_ok h
    · exact ⟨⟨row, hrow, not_live_of_result hresult⟩, fun _ ↦ ⟨row, hrow, hresult⟩⟩
    · exact ⟨⟨_, reservation_rewritten (by intro; rfl) rfl rfl hrow, not_live_of_result rfl⟩,
        fun _ ↦ ⟨_, reservation_rewritten (by intro; rfl) rfl rfl hrow, rfl⟩⟩

/-- A live reservation takes any settlement. -/
theorem finishFirst_live (hwf : db.WF) (hvalid : validateSettlement t = .ok ())
    (hrow : db.reservation t.reservationID = some row) (hlive : row.Live) :
    ∃ db', finishFirst now t db = .ok db' := by
  obtain ⟨hst, hresult⟩ := hlive
  obtain ⟨-, hid⟩ := Table.mem_of_find hrow
  rw [finishFirst, hvalid]
  by_cases hout : t.outcome = .unknown
  · have hrow' : db.reservation row.id = some row := hid ▸ hrow
    have htenant := shareAccountingTenant_ok hwf hrow'
    rw [hid, hrow] at htenant
    have hnot : ¬ (row.status = .unknown ∨ row.status = .releasedUnknown) := by
      rcases hst with hl | hl <;> simp [hl]
    have hopen : ¬ ((row.status ≠ .reserved ∧ row.status ≠ .dispatched) ∨ row.result ≠ none) := by
      rcases hst with hl | hl <;> simp [hl, hresult]
    refine ⟨markReservationUnknown now row t.reason db, ?_⟩
    simp only [bind, Except.bind, if_pos hout, markUnknown, hrow, htenant,
      if_neg hnot, if_neg hopen]
  · have hopen : ¬ (row.status = .settled ∨ row.status = .released ∨
        (row.status = .releasedUnknown ∧ t.outcome ≠ .known)) := by
      rcases hst with hl | hl <;> simp [hl]
    simp only [bind, Except.bind, if_neg hout, recordResult, hrow, hresult, if_neg hopen]
    exact ⟨_, rfl⟩

/-- After the second one it has been applied. -/
theorem applied_applyPending {id : String} (hwf : db.WF) (h : applyPending now id db = .ok db')
    (hrow : db.reservation id = some row) (hresult : row.result = some t) :
    ∃ row', db'.reservation id = some row' ∧ row'.result = some t ∧ row'.resultApplied = true := by
  obtain ⟨row', hrow', ⟨happlied, rfl⟩ | ⟨s, -, hs, happly⟩⟩ := applyPending_ok h
  · rw [hrow, Option.some.injEq] at hrow'
    subst hrow'
    exact ⟨row, hrow, hresult, happlied⟩
  · rw [hrow, Option.some.injEq] at hrow'
    subst hrow'
    obtain rfl : s = t := Option.some.inj (hs.symm.trans hresult)
    have hset := applyReservation_ok hwf.items happly
    have hres := reservation_rewritten (closeReservation_id now s s.status) hset.reservations
      (Table.mem_of_find hrow).2 hrow
    have hfinal : s.status ≠ .releasedUnknown := by
      rcases View.status_final s with hf | hf <;> rw [hf] <;> decide
    refine ⟨_, hres, ?_⟩
    rw [closeReservation, if_neg hfinal]
    exact ⟨rfl, rfl⟩

/-- What `settle` decides on is a settlement the store can take. -/
theorem classify_valid (live : Dynamic) {pc : PluginContext} (h : pc.reservationID ≠ "") :
    validateSettlement (BillingPlugin.classify live pc).2 = .ok () := by
  have hd := BillingPlugin.classify_decided live pc
  have husage : (BillingPlugin.classify live pc).2.outcome ≠ .known →
      (BillingPlugin.classify live pc).2.usage = none := by
    intro hne
    simp only [BillingPlugin.classify] at hne ⊢
    rw [BillingPlugin.recordOf.eq_def]
    split
    · exact if_neg hne
    · rfl
  have hactual : 0 ≤ (BillingPlugin.classify live pc).2.actual := by
    by_cases hk : (BillingPlugin.classify live pc).2.outcome = .known
    · obtain ⟨-, u, pr, -, -, hcost⟩ := (hd.known _).mp ⟨hk, rfl⟩
      exact checkedCost_nonneg hcost
    · rw [hd.zero hk]
  rw [validateSettlement, if_neg]
  rintro (hempty | hneg | ⟨hknown, hreleased, hunknown⟩ | ⟨hknown, hrest⟩)
  · exact h (hd.reservationID.symm.trans hempty)
  · omega
  · exact hd.outcome.elim hreleased fun ho ↦ ho.elim hknown hunknown
  · exact hrest.elim (fun ha ↦ ha (hd.zero hknown)) fun hu ↦ hu (husage hknown)

end Transactions

/-! ## How far a request is -/

/-- The result `t` has been recorded for the reservation. -/
def Db.Recorded (id : String) (t : Settlement) (db : Db) : Prop :=
  ∃ row, db.reservation id = some row ∧ row.result = some t

/-- And it has been applied. -/
def Db.AppliedWith (id : String) (t : Settlement) (db : Db) : Prop :=
  ∃ row, db.reservation id = some row ∧ row.result = some t ∧ row.resultApplied = true

/-- **A closed reservation**: what the ledger shows of one that was settled with `t`. -/
structure Db.ClosedWith (id : String) (t : Settlement) (db : Db) : Prop where
  row : ∃ row, db.reservation id = some row ∧ row.status = t.status ∧ row.actual = some t.actual
  items : ∀ i ∈ db.itemsOf id, i.held = 0 ∧ i.committed = t.actual
  usage : (db.usageRecords.filter fun u ↦ u.reservationID = id) = usageRows id t
  risks : db.risks id = if t.attemptRisk then 1 else 0

section Ledger

variable {zones : Zones} {id : String} {t : Settlement} {st : State}

theorem recorded_step (hgood : st.Good) (op : Op) (h : st.db.Recorded id t) :
    (step zones st op).db.Recorded id t := by
  obtain ⟨row, hrow, hresult⟩ := h
  exact View.step_result hrow hresult (view_step zones id op hgood.wf)

theorem applied_step (hgood : st.Good) (op : Op) (h : st.db.AppliedWith id t) :
    (step zones st op).db.AppliedWith id t := by
  obtain ⟨row, hrow, hresult, happlied⟩ := h
  have hclosed := ((hgood.views id).rowInv hrow).resultApplied_iff.mp happlied
  have hstay := (hgood.views id).step_of_closed hrow hclosed (view_step zones id op hgood.wf)
  exact ⟨row, (congrArg View.row hstay).trans hrow, hresult, happlied⟩

theorem found_step (hgood : st.Good) (op : Op) (h : ∃ row, st.db.reservation id = some row) :
    ∃ row, (step zones st op).db.reservation id = some row := by
  obtain ⟨row, hrow⟩ := h
  obtain ⟨row', hrow', -⟩ := (hgood.views id).step_row hrow (view_step zones id op hgood.wf)
  exact ⟨row', hrow'⟩

/-- A result that has been applied is all that the ledger has of its reservation. -/
theorem closed_of_applied (hgood : st.Good) (h : st.db.AppliedWith id t) :
    st.db.ClosedWith id t := by
  obtain ⟨row, hrow, hresult, happlied⟩ := h
  cases ((hgood.views id).rowInv hrow).stage with
  | untouched _ _ hnot => simp [hnot] at happlied
  | atRisk _ _ hnot => simp [hnot] at happlied
  | closed s hstatus hactual _ hs hv =>
    obtain rfl : s = t := Option.some.inj (hs.symm.trans hresult)
    exact ⟨⟨row, hrow, hstatus, hactual⟩, hv.items, hv.usage, hv.risks⟩

end Ledger

/-- **The invariant of a request**: what it knows of its reservation after the calls `fs` of
`Finish`.  `steady` says that all its statements get through. -/
structure Closing (id : String) (steady : Prop) (fs : List (Settlement × Except StoreError Unit))
    (w : Shared) : Prop where
  named : id ≠ ""
  good : w.st.Good
  found : ∃ row, w.st.db.reservation id = some row
  turns : steady → ∀ turn ∈ w.turns, turn.fails = false
  ended : (steady ∧ fs ≠ []) ∨ (∃ f ∈ fs, f.2 = .ok ()) → w.st.db.Ended id
  applied : ∀ f ∈ fs, f.2 = .ok () → f.1.outcome ≠ .unknown → w.st.db.AppliedWith id f.1

section Invariant

variable (zones : Zones) {id : String} {steady : Prop}
  {fs : List (Settlement × Except StoreError Unit)} {w : Shared}

theorem stable_closing : Shared.Stable zones (Closing id steady fs) where
  commit h op :=
    ⟨h.named, h.good.step op, found_step h.good op h.found, h.turns,
      fun he ↦ ended_step h.good.wf op (h.ended he),
      fun f hf hok hout ↦ applied_step h.good op (h.applied f hf hok hout)⟩
  note h _ := ⟨h.named, h.good, h.found, h.turns, h.ended, h.applied⟩
  turn h hturns :=
    ⟨h.named, h.good, h.found,
      fun hs turn hturn ↦ h.turns hs turn (hturns ▸ List.mem_cons_of_mem _ hturn), h.ended,
      h.applied⟩

/-- After the first transaction of `Finish`. -/
theorem stable_recorded (t : Settlement) : Shared.Stable zones fun w ↦
    Closing id steady fs w ∧ w.st.db.Ended id ∧ (t.outcome ≠ .unknown → w.st.db.Recorded id t) where
  commit h op :=
    ⟨(stable_closing zones).commit h.1 op, ended_step h.1.good.wf op h.2.1,
      fun hout ↦ recorded_step h.1.good op (h.2.2 hout)⟩
  note h m := ⟨(stable_closing zones).note h.1 m, h.2⟩
  turn h hturns := ⟨(stable_closing zones).turn h.1 hturns, h.2⟩

/-- One more call of `Finish`. -/
theorem Closing.concat (h : Closing id steady fs w) {f : Settlement × Except StoreError Unit}
    (hended : steady ∨ f.2 = .ok () → w.st.db.Ended id)
    (happlied : f.2 = .ok () → f.1.outcome ≠ .unknown → w.st.db.AppliedWith id f.1) :
    Closing id steady (fs ++ [f]) w where
  named := h.named
  good := h.good
  found := h.found
  turns := h.turns
  ended := by
    rintro (⟨hs, -⟩ | ⟨f', hf', hok⟩)
    · exact hended (.inl hs)
    rcases List.mem_append.mp hf' with hold | hnew
    · exact h.ended (.inr ⟨f', hold, hok⟩)
    · rw [List.mem_singleton.mp hnew] at hok
      exact hended (.inr hok)
  applied := by
    refine List.forall_mem_append.mpr ⟨h.applied, ?_⟩
    rw [List.forall_mem_singleton]
    exact happlied

/-- **A call of `Finish`**, with a valid settlement of the reservation. -/
theorem Closing.finish (h : Closing id steady fs w) {t : Settlement} (hid : t.reservationID = id)
    (hvalid : validateSettlement t = .ok ()) :
    Closing id steady (fs ++ [(t, (w.finish zones t).1)]) (w.finish zones t).2 := by
  obtain ⟨hw, hfirst⟩ := (stable_closing zones).transact h fun now ↦ .finishFirst now t
  rw [Shared.finish]
  rcases hr : w.transact zones (fun now ↦ .finishFirst now t) with ⟨result, w₁⟩
  rw [hr] at hw hfirst
  rcases hfirst with ⟨hok, w', now, db, -, htx, hdb⟩ | ⟨e, now, herr, htx⟩ | ⟨herr,
    turn, hmem, hfails⟩
  · simp only at hok hdb
    subst hok
    obtain ⟨hended, hrecorded⟩ := ended_finishFirst htx
    rw [← hdb, hid] at hended hrecorded
    simp only
    split
    · rename_i hout
      exact hw.concat (fun _ ↦ hended) fun _ hne ↦ absurd hout hne
    rename_i hout
    -- Others go on between the two transactions.
    obtain ⟨⟨hw₂, hended₂, hrecorded₂⟩, hsecond⟩ := (stable_recorded zones t).transact
      ⟨hw, hended, hrecorded⟩ fun now ↦ .applyPending now t.reservationID
    refine hw₂.concat (fun _ ↦ hended₂) fun hok _ ↦ ?_
    rcases hsecond with ⟨-, w', now, db', ⟨hw', -, hrec⟩, htx', hdb'⟩ | ⟨e, now,
      herr, -⟩ | ⟨herr, -⟩
    · obtain ⟨row, hrow, hresult⟩ := hrec hout
      rw [hdb']
      exact applied_applyPending hw'.good.wf (hid ▸ htx') hrow hresult
    · simp [herr] at hok
    · simp [herr] at hok
  · simp only at herr
    subst herr
    refine hw.concat (fun _ ↦ ?_) fun hok ↦ by cases hok
    -- A live reservation would have taken the settlement.
    obtain ⟨row, hrow⟩ := hw.found
    refine ⟨row, hrow, fun hlive ↦ ?_⟩
    have htaken : ∃ db', finishFirst now t w₁.st.db = .ok db' :=
      finishFirst_live hw.good.wf hvalid (hid ▸ hrow) hlive
    obtain ⟨db', hdb'⟩ := htaken
    have htx' : finishFirst now t w₁.st.db = .error e := htx
    rw [hdb'] at htx'
    cases htx'
  · simp only at herr
    subst herr
    refine hw.concat ?_ fun hok ↦ by cases hok
    rintro (hs | hok)
    · simp [h.turns hs turn hmem] at hfails
    · cases hok

theorem course_closing (env : Surroundings) :
    Course (env.gateway zones) id (Closing id steady) where
  exchange {fs w} h key req := by
    obtain ⟨hwait, -⟩ := (stable_closing zones).wait h
    exact ((stable_closing zones).wait ((stable_closing zones).note hwait _)).1
  mark h := (stable_closing zones).markDispatched h id
  finish {fs w} h live pc hpc :=
    h.finish zones ((BillingPlugin.classify_decided live pc).reservationID.trans hpc)
      (classify_valid live (hpc.trans_ne h.named))

end Invariant

/-! ## The result -/

section Result

variable (zones : Zones) (env : Surroundings) (d : Dispatcher) (chain : Chain) (call : Call)

theorem closing_serveChat {st : State} (hgood : st.Good) (turns : List Turn) :
    let s := (serveChat (env.gateway zones) d chain call ⟨st, turns, []⟩).session
    s.pc.reservationID ≠ "" →
      Closing s.pc.reservationID (∀ turn ∈ turns, turn.fails = false) s.finishes s.world := by
  refine Course.serveChat (fun id ↦ course_closing zones env)
    (fun req w' hreserve ↦ ?_) d chain call
  have hstable : Shared.Stable zones fun w ↦
      w.st.Good ∧ ((∀ turn ∈ turns, turn.fails = false) → ∀ turn ∈ w.turns, turn.fails = false) :=
    { commit := fun h op ↦ ⟨h.1.step op, h.2⟩
      note := fun h _ ↦ h
      turn := fun h hturns ↦ ⟨h.1,
        fun hs turn hturn ↦ h.2 hs turn (hturns ▸ List.mem_cons_of_mem _ hturn)⟩ }
  obtain ⟨⟨hgood', hturns⟩, hresult⟩ :=
    hstable.transact (w := ⟨st, turns, []⟩) ⟨hgood, fun h ↦ h⟩ fun now ↦ .reserve now req
  have hr : Shared.transact zones (fun now ↦ .reserve now req) ⟨st, turns, []⟩ = (.ok (), w') :=
    hreserve
  rw [hr] at hgood' hturns hresult
  rcases hresult with ⟨-, w'', now, db, ⟨hgood'', -⟩, htx, hdb⟩ | ⟨e, now, herr, -⟩ | ⟨herr, -⟩
  · obtain ⟨req', hvalid, -⟩ := Loop.bind_eq_ok.mp htx
    obtain ⟨hid, -, -, hne, -⟩ := validateRequest_ok hvalid
    refine ⟨hid ▸ hne, hgood', ?_, hturns, by simp, by simp⟩
    simp only at hdb
    rw [hdb]
    exact reserve_found hgood''.wf htx
  · cases herr
  · cases herr

/-- **A request closes its reservation**, whatever other processes do meanwhile. -/
theorem request_closes {db : Db} (hinit : db.Initial) (ops : List Op) (turns : List Turn) :
    let served := serveChat (env.gateway zones) d chain call ⟨runOps zones db ops, turns, []⟩
    let s := served.session
    let id := s.pc.reservationID
    id ≠ "" → ∃ snapshot t, Classified env.json d call snapshot served.attempts t ∧
      s.finishes ≠ [] ∧ (∀ f ∈ s.finishes, f.1 = t) ∧
      ∀ later, let ledger := (Run.run (step zones) s.world.st later).db
        ((∀ turn ∈ turns, turn.fails = false) ∨ (∃ f ∈ s.finishes, f.2 = .ok ()) →
          ledger.Ended id) ∧
        ((∃ f ∈ s.finishes, f.2 = .ok ()) → t.outcome ≠ .unknown → ledger.ClosedWith id t) := by
  intro served s id hid
  obtain ⟨snapshot, ⟨t, hclassified, hsettling⟩, hfinished⟩ :=
    concluded_serveChat _ d chain call _ hid
  have hclosing := closing_serveChat zones env d chain call (good_runOps hinit ops) turns hid
  refine ⟨snapshot, t, hclassified, hfinished, hsettling.finishes, fun later ↦ ⟨fun h ↦ ?_, ?_⟩⟩
  · have hended : s.world.st.db.Ended id := hclosing.ended (h.imp_left fun hs ↦ ⟨hs, hfinished⟩)
    exact (Run.invariant (I := fun st : State ↦ st.Good ∧ st.db.Ended id)
      (fun st op h ↦ ⟨h.1.step op, ended_step h.1.wf op h.2⟩) later ⟨hclosing.good, hended⟩).2
  · rintro ⟨f, hf, hok⟩ hout
    have hft := hsettling.finishes f hf
    have happlied : s.world.st.db.AppliedWith id t := hft ▸ hclosing.applied f hf hok (hft ▸ hout)
    obtain ⟨hgood, happlied'⟩ :=
      Run.invariant (I := fun st : State ↦ st.Good ∧ st.db.AppliedWith id t)
      (fun st op h ↦ ⟨h.1.step op, applied_step h.1 op h.2⟩) later ⟨hclosing.good, happlied⟩
    exact closed_of_applied hgood happlied'

end Result

/-- A sweep takes everything for stale while the second candidate answers. -/
def Turn.sample : List Turn := List.replicate 7 ⟨[], 0, false⟩ ++ [⟨[.markStale 10 5 []], 0, false⟩]

/-- Swept on the way, and settled all the same. -/
theorem request_closes_sample :
    let s :=
      (serveChat (Surroundings.sample.gateway Zones.utc) (.sample .sample) ⟨[], []⟩ (.sample false)
      ⟨runOps Zones.utc Db.sample [], Turn.sample, []⟩).session
    ∃ t, t.outcome = .known ∧ t.actual = 4 ∧
      ∀ later, (Run.run (step Zones.utc) s.world.st later).db.ClosedWith s.pc.reservationID t := by
  intro s
  have hfinishes :
    s.finishes.map (fun f ↦ (f.1.outcome, f.1.actual, f.2.toBool)) =
    [(.known, 4, true)] := by decide
  obtain ⟨-, t, -, -, hsame, hledger⟩ :=
    request_closes Zones.utc Surroundings.sample (.sample .sample) ⟨[], []⟩
    (.sample false) Db.sample_initial [] Turn.sample (by decide)
  obtain ⟨f, hf, hcall⟩ :=
    List.mem_map.mp (hfinishes ▸ List.mem_singleton_self (Outcome.known, (4 : Int), true))
  obtain ⟨hout, hactual, hok⟩ : f.1.outcome = .known ∧ f.1.actual = 4 ∧ f.2.toBool = true := by
    simpa using hcall
  have haccepted : f.2 = .ok () := by
    rcases h : f.2 with e | ⟨⟩
    · simp [h, Except.toBool] at hok
    · rfl
  have ht := hsame f hf
  exact ⟨t, ht ▸ hout, ht ▸ hactual,
    fun later ↦ (hledger later).2 ⟨f, hf, haccepted⟩ (by simp [← ht, hout])⟩

end Voxeltoad
