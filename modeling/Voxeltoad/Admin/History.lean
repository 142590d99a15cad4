import Voxeltoad.Admin.Config
import Voxeltoad.Config.Snapshot

/-!
# The history of the configuration

Every mutation of `ConfigRepo` ends in `saveAfterMutation`: a goroutine that takes a `Snapshot` when
it gets to it, and saves it under the version it has read.  Between its statements others commit.
`Rollback` is a method of `ConfigSnapshotRepo`; it bumps the generation as the mutations do, and
starts no goroutine.

So `history_complete` holds for runs in which a rollback finds a goroutine that has yet to read the
version and saves it in passing.  After any other rollback there is nothing that would save the
generation it made (`rollback_unrecorded`).
-/

set_option autoImplicit false

namespace Voxeltoad
namespace Admin

open Config hiding Op

/-! ## Mutations and the saves after them -/

/-- The tables after a mutation through the API. -/
def request (t : Tables) : Mutation → Tables
  | .rollback version => (rollbackHandler version t).2
  | m => t.mutate m

/-- Whether a mutation calls `saveAfterMutation`. -/
def savesAfter : Mutation → Bool
  | .rollback _ => false
  | _ => true

/-- The tables and the goroutines. -/
structure Archive where
  tables : Tables
  /-- How many have not read the version. -/
  pending : Nat
  saves : List Reading
  deriving DecidableEq, Repr

namespace Archive

def initial : Archive := ⟨.empty, 0, []⟩

inductive Op where
  | mutate (m : Mutation)
  /-- A goroutine reads the version. -/
  | start
  /-- The next statement of its `Snapshot`. -/
  | read (i : Nat)
  /-- `SaveSnapshot`, and it is done. -/
  | save (i : Nat)
  deriving DecidableEq, Repr

def step (s : Archive) : Op → Archive
  | .mutate m =>
      { s with tables := request s.tables m, pending := s.pending + if savesAfter m then 1 else 0 }
  | .start =>
    if s.pending = 0 then s
    else { s with pending := s.pending - 1, saves := s.saves ++ [.start s.tables] }
  | .read i =>
    match s.saves[i]? with
    | none => s
    | some r => { s with saves := s.saves.set i (r.next s.tables) }
  | .save i =>
    match s.saves[i]? with
    | none => s
    | some r =>
      match r.result with
      | none => s
      | some d =>
          { s with tables := s.tables.saveSnapshot r.version d, saves := s.saves.eraseIdx i }

/-- All saves are done. -/
def Idle (s : Archive) : Prop := s.pending = 0 ∧ s.saves = []

instance (s : Archive) : Decidable s.Idle := inferInstanceAs (Decidable (_ ∧ _))

/-- The configuration that is live. -/
def live (s : Archive) : Config.Dynamic := s.tables.toContents.dynamic s.tables.generation

/-- A rollback to a saved version is made only while a goroutine has yet to read the version. -/
def Observed (s : Archive) : Op → Prop
  | .mutate (.rollback version) => s.tables.getSnapshot version = none ∨ 0 < s.pending
  | _ => True

instance (s : Archive) (o : Op) : Decidable (s.Observed o) := by
  unfold Observed
  split <;> infer_instance

/-! ## What is known of the rows and of the goroutines -/

/-- What has been read fits the unique columns. -/
structure ReadKeys (r : Reading) : Prop where
  providers : ∀ x ∈ r.providers, Table.Keyed Config.Provider.name x
  models : ∀ x ∈ r.models, Table.Keyed Config.Model.modelAlias x
  routes : ∀ x ∈ r.routes, Table.Keyed Config.Route.modelAlias x

theorem readKeys_start (t : Tables) : ReadKeys (.start t) := ⟨nofun, nofun, nofun⟩

theorem readKeys_next {t : Tables} (ht : t.Keys) {r : Reading} (h : ReadKeys r) :
    ReadKeys (r.next t) := by
  rw [Reading.next]
  split_ifs
  · exact { h with providers := fun _ hx ↦ Option.some.inj hx ▸ ht.providers }
  · exact { h with models := fun _ hx ↦ Option.some.inj hx ▸ ht.models }
  · exact { h with routes := fun _ hx ↦ Option.some.inj hx ▸ ht.routes }
  · exact { h with }
  · exact { h with }
  · exact h

theorem keys_of_result {r : Reading} (h : ReadKeys r) {d : Config.Dynamic}
    (hd : r.result = some d) : d.Keys := by
  simp only [Reading.result, Option.bind_eq_bind, Option.bind_eq_some_iff, Option.pure_def,
    Option.some_inj] at hd
  obtain ⟨p, hp, m, hm, rt, hr, _, -, _, -, rfl⟩ := hd
  exact ⟨h.providers p hp, h.models m hm, h.routes rt hr⟩

structure Inv (s : Archive) : Prop where
  keys : s.tables.Keys
  row_le : ∀ row ∈ s.tables.snapshots, row.version ≤ s.tables.generation
  /-- A row of the current generation has the current configuration. -/
  row_eq : ∀ row ∈ s.tables.snapshots, row.version = s.tables.generation → row.payload = s.live
  row_keys : ∀ row ∈ s.tables.snapshots, row.payload.Keys
  save_le : ∀ r ∈ s.saves, r.version ≤ s.tables.generation
  /-- What was read under the current version is still there. -/
  save_agrees : ∀ r ∈ s.saves, r.version = s.tables.generation → r.Agrees s.tables.toContents
  save_keys : ∀ r ∈ s.saves, ReadKeys r

theorem inv_initial : Inv initial :=
  ⟨⟨List.nodup_nil, List.nodup_nil, List.nodup_nil⟩, nofun, nofun, nofun, nofun, nofun, nofun⟩

/-- What a mutation through the API does to the tables. -/
theorem request_eq (t : Tables) (m : Mutation) : request t m = t ∨ request t m = t.mutate m := by
  unfold request
  split
  · rename_i version
    rw [rollbackHandler]
    split
    · exact .inl rfl
    · rw [Tables.mutate, Int.toNat_natCast]
      cases t.rollback version with
      | error e => exact .inl rfl
      | ok t' => exact .inr rfl
  · exact .inr rfl

theorem request_snapshots (t : Tables) (m : Mutation) : (request t m).snapshots = t.snapshots := by
  rcases request_eq t m with h | h
  · rw [h]
  · rw [h, (mutated t m).snapshots]

theorem request_generation (t : Tables) (m : Mutation) :
    request t m = t ∨ (request t m).generation = t.generation + 1 := by
  rcases request_eq t m with h | h
  · exact .inl h
  · rw [h]
    exact mutate_generation t m

theorem request_keys {t : Tables} (h : t.Keys) (m : Mutation) : (request t m).Keys := by
  rcases request_eq t m with heq | heq
  · rwa [heq]
  · rw [heq]
    exact (mutated t m).keys h

theorem Inv.mutate {s : Archive} (h : Inv s) (m : Mutation) : Inv (s.step (.mutate m)) := by
  have hsnapshots := request_snapshots s.tables m
  rcases request_generation s.tables m with heq | hbump
  · rw [step, heq]
    exact { h with }
  · -- There is nothing yet under the new version.
    have hrow :
        ∀ row ∈ (request s.tables m).snapshots, row.version < (request s.tables m).generation := by
      intro row hrow
      rw [hsnapshots] at hrow
      have := h.row_le row hrow
      omega
    have hsave : ∀ r ∈ s.saves, r.version < (request s.tables m).generation := by
      intro r hr
      have := h.save_le r hr
      omega
    exact
      { keys := request_keys h.keys m
        row_le := fun row hr ↦ (hrow row hr).le
        row_eq := fun row hr hversion ↦ absurd hversion (hrow row hr).ne
        row_keys := fun row hr ↦ h.row_keys row (hsnapshots ▸ hr)
        save_le := fun r hr ↦ (hsave r hr).le
        save_agrees := fun r hr hversion ↦ absurd hversion (hsave r hr).ne
        save_keys := h.save_keys }

theorem Inv.start {s : Archive} (h : Inv s) : Inv (s.step .start) := by
  rw [step]
  split
  · exact h
  · have hmem : ∀ {P : Reading → Prop}, (∀ r ∈ s.saves, P r) → P (.start s.tables) →
        ∀ r ∈ s.saves ++ [.start s.tables], P r := by
      intro P hall hstart r hr
      rcases List.mem_append.mp hr with hr | hr
      · exact hall r hr
      · exact List.mem_singleton.mp hr ▸ hstart
    exact
      { h with
        save_le := hmem h.save_le le_rfl
        save_agrees := hmem h.save_agrees fun _ ↦ Reading.start_agrees ..
        save_keys := hmem h.save_keys (readKeys_start _) }

theorem Inv.read {s : Archive} (h : Inv s) (i : Nat) : Inv (s.step (.read i)) := by
  rw [step]
  split
  · exact h
  · rename_i r hr
    have hr := List.mem_of_getElem? hr
    have hmem : ∀ {P : Reading → Prop}, (∀ r ∈ s.saves, P r) → P (r.next s.tables) →
        ∀ r' ∈ s.saves.set i (r.next s.tables), P r' := by
      intro P hall hnext r' hr'
      rcases List.mem_or_eq_of_mem_set hr' with hr' | rfl
      · exact hall r' hr'
      · exact hnext
    exact
      { h with
        save_le := hmem h.save_le (Reading.next_version s.tables r ▸ h.save_le r hr)
        save_agrees := hmem h.save_agrees fun hversion ↦
          Reading.next_agrees (h.save_agrees r hr (Reading.next_version s.tables r ▸ hversion))
          (.refl ..)
        save_keys := hmem h.save_keys (readKeys_next h.keys (h.save_keys r hr)) }

/-- The rows after a save. -/
theorem mem_saveSnapshot {t : Tables} {version : Nat} {d : Config.Dynamic} {row : SnapshotRow}
    (h : row ∈ (t.saveSnapshot version d).snapshots) : row ∈ t.snapshots ∨ row = ⟨version, d⟩ := by
  rw [Tables.saveSnapshot] at h
  split at h
  · exact .inl h
  · exact (List.mem_append.mp h).imp_right List.mem_singleton.mp

/-- **A save leaves a row of its version.** -/
theorem exists_saveSnapshot (t : Tables) (version : Nat) (d : Config.Dynamic) :
    ∃ row ∈ (t.saveSnapshot version d).snapshots, row.version = version := by
  rw [Tables.saveSnapshot]
  split
  · assumption
  · exact ⟨_, List.mem_append_right _ (List.mem_singleton_self _), rfl⟩

theorem saveSnapshot_subset (t : Tables) (version : Nat) (d : Config.Dynamic) :
    t.snapshots ⊆ (t.saveSnapshot version d).snapshots := by
  rw [Tables.saveSnapshot]
  split
  · exact fun _ ↦ id
  · exact List.subset_append_left ..

theorem saveSnapshot_contents (t : Tables) (version : Nat) (d : Config.Dynamic) :
    (t.saveSnapshot version d).toContents = t.toContents ∧
      (t.saveSnapshot version d).generation = t.generation := by
  rw [Tables.saveSnapshot]
  split <;> exact ⟨rfl, rfl⟩

theorem saveSnapshot_keys {t : Tables} (h : t.Keys) (version : Nat) (d : Config.Dynamic) :
    (t.saveSnapshot version d).Keys := by
  rw [Tables.saveSnapshot]
  split <;> exact { h with }

theorem Inv.save {s : Archive} (h : Inv s) (i : Nat) : Inv (s.step (.save i)) := by
  rw [step]
  split
  · exact h
  rename_i r hr
  have hr := List.mem_of_getElem? hr
  split
  · exact h
  rename_i d hd
  obtain ⟨hcontents, hgeneration⟩ := saveSnapshot_contents s.tables r.version d
  have herase : ∀ r' ∈ s.saves.eraseIdx i, r' ∈ s.saves := fun _ ↦ List.mem_of_mem_eraseIdx
  have hmem : ∀ {P : SnapshotRow → Prop}, (∀ row ∈ s.tables.snapshots, P row) → P ⟨r.version, d⟩ →
      ∀ row ∈ (s.tables.saveSnapshot r.version d).snapshots, P row := by
    intro P hall hnew row hrow
    rcases mem_saveSnapshot hrow with hrow | rfl
    · exact hall row hrow
    · exact hnew
  refine
    { keys := saveSnapshot_keys h.keys ..
      row_le := hmem ?_ ?_
      row_eq := hmem ?_ ?_
      row_keys := hmem h.row_keys (keys_of_result (h.save_keys r hr) hd)
      save_le := fun r' hr' ↦ hgeneration ▸ h.save_le r' (herase r' hr')
      save_agrees := fun r' hr' hversion ↦ ?_
      save_keys := fun r' hr' ↦ h.save_keys r' (herase r' hr') }
  · exact hgeneration ▸ h.row_le
  · exact hgeneration ▸ h.save_le r hr
  · rw [live, hcontents, hgeneration]
    exact h.row_eq
  · intro hversion
    rw [live, hcontents, hgeneration]
    rw [hgeneration] at hversion
    exact hversion ▸ Reading.result_eq (h.save_agrees r hr hversion) hd
  · rw [hcontents]
    exact h.save_agrees r' (herase r' hr') (hversion.trans hgeneration)

theorem inv_step (s : Archive) (o : Op) (h : Inv s) : Inv (s.step o) := by
  cases o with
  | mutate m => exact h.mutate m
  | start => exact h.start
  | read i => exact h.read i
  | save i => exact h.save i

/-! ## Who saves the current generation -/

/-- The current generation is saved, or is about to be. -/
def Recorded (s : Archive) : Prop :=
  s.tables.generation = 0 ∨ 0 < s.pending ∨ (∃ r ∈ s.saves, r.version = s.tables.generation) ∨
    ∃ row ∈ s.tables.snapshots, row.version = s.tables.generation

/-- A rollback that finds no row changes nothing. -/
theorem request_rollback {t : Tables} {version : Nat} (h : t.getSnapshot version = none) :
    request t (.rollback version) = t := by
  rw [request, rollbackHandler]
  split
  · rfl
  · rw [Int.toNat_natCast, Tables.rollback, h]

theorem Recorded.mutate {s : Archive} {m : Mutation} (hobserved : s.Observed (.mutate m))
    (h : Recorded s) : Recorded (s.step (.mutate m)) := by
  rw [step]
  cases hsaves : savesAfter m with
  | true => exact .inr (.inl (Nat.succ_pos _))
  | false =>
    obtain ⟨version, rfl⟩ : ∃ version, m = .rollback version := by
      cases m <;> first | exact ⟨_, rfl⟩ | cases hsaves
    rcases hobserved with hnone | hpending
    · rw [request_rollback hnone]
      exact h
    · exact .inr (.inl hpending)

theorem Recorded.start {s : Archive} (h : Recorded s) : Recorded (s.step .start) := by
  rw [step]
  split
  · exact h
  · exact .inr (.inr (.inl ⟨_, List.mem_append_right _ (List.mem_singleton_self _), rfl⟩))

theorem Recorded.read {s : Archive} (i : Nat) (h : Recorded s) : Recorded (s.step (.read i)) := by
  rw [step]
  split
  · exact h
  · rename_i r hi
    refine h.imp_right (Or.imp_right (Or.imp_left ?_))
    rintro ⟨r', hr', hversion⟩
    obtain ⟨j, hj⟩ := List.mem_iff_getElem?.mp hr'
    rcases eq_or_ne i j with rfl | hne
    · obtain rfl : r = r' := Option.some.inj (hi.symm.trans hj)
      refine ⟨r.next s.tables, ?_, (Reading.next_version s.tables r).trans hversion⟩
      exact List.mem_set (List.getElem?_eq_some_iff.mp hi).1 _
    · refine ⟨r', List.mem_iff_getElem?.mpr ⟨j, ?_⟩, hversion⟩
      rwa [List.getElem?_set_ne hne]

theorem Recorded.save {s : Archive} (i : Nat) (h : Recorded s) : Recorded (s.step (.save i)) := by
  rw [step]
  split
  · exact h
  rename_i r hi
  split
  · exact h
  rename_i d hd
  obtain ⟨-, hgeneration⟩ := saveSnapshot_contents s.tables r.version d
  rw [Recorded, hgeneration]
  rcases h with hzero | hpending | ⟨r', hr', hversion⟩ | ⟨row, hrow, hversion⟩
  · exact .inl hzero
  · exact .inr (.inl hpending)
  · obtain ⟨j, hj⟩ := List.mem_iff_getElem?.mp hr'
    rcases eq_or_ne j i with rfl | hne
    · obtain rfl : r = r' := Option.some.inj (hi.symm.trans hj)
      exact .inr (.inr (.inr (hversion ▸ exists_saveSnapshot s.tables r.version d)))
    · exact .inr (.inr (.inl ⟨r', List.mem_eraseIdx_iff_getElem?.mpr ⟨j, hne, hj⟩, hversion⟩))
  · exact .inr (.inr (.inr ⟨row, saveSnapshot_subset _ _ _ hrow, hversion⟩))

theorem recorded_step {s : Archive} {o : Op} (hobserved : s.Observed o) (h : Recorded s) :
    Recorded (s.step o) := by
  cases o with
  | mutate m => exact h.mutate hobserved
  | start => exact h.start
  | read i => exact h.read i
  | save i => exact h.save i

/-! ## The rows stay -/

theorem getSnapshot_step {s : Archive} {version : Nat} {d : Config.Dynamic}
    (h : s.tables.getSnapshot version = some d) (o : Op) :
    (s.step o).tables.getSnapshot version = some d := by
  have happend :
      ∀ {t : Tables} (rows : List SnapshotRow), t.snapshots = s.tables.snapshots ++ rows →
      t.getSnapshot version = some d := by
    intro t rows heq
    rw [Tables.getSnapshot, Option.map_eq_some_iff] at h ⊢
    obtain ⟨row, hrow, rfl⟩ := h
    exact ⟨row, by rw [heq, Table.find_append, hrow, Option.some_or], rfl⟩
  cases o with
  | mutate m => exact happend [] (by rw [List.append_nil]; exact request_snapshots s.tables m)
  | start =>
    rw [step]
    split <;> exact h
  | read i =>
    rw [step]
    split <;> exact h
  | save i =>
    rw [step]
    split
    · exact h
    split
    · exact h
    rename_i r _ _ d' _
    rw [Tables.saveSnapshot]
    split
    · exact h
    · exact happend [⟨r.version, d'⟩] rfl

theorem getSnapshot_run {s : Archive} {version : Nat} {d : Config.Dynamic}
    (h : s.tables.getSnapshot version = some d) (ops : List Op) :
    (Run.run step s ops).tables.getSnapshot version = some d :=
  Run.invariant (I := fun s : Archive ↦ s.tables.getSnapshot version = some d)
    (fun _ o hs ↦ getSnapshot_step hs o) ops h

/-- The row of the current generation has what is live. -/
theorem Inv.getSnapshot {s : Archive} (h : Inv s)
    (hrow : ∃ row ∈ s.tables.snapshots, row.version = s.tables.generation) :
    s.tables.getSnapshot s.tables.generation = some s.live := by
  obtain ⟨row, hfind⟩ := Option.isSome_iff_exists.mp (Table.find_isSome_iff.mpr hrow)
  obtain ⟨hmem, hversion⟩ := Table.mem_of_find hfind
  rw [Tables.getSnapshot, hfind, Option.map_some, h.row_eq row hmem hversion]

/-! ## The history -/

/-- **The history is complete**, in a run whose rollbacks are seen by some goroutine.  When all
saves are done there is a row for the current generation, and whatever happens afterwards, under
that version there is the configuration that was live. -/
theorem history_complete (ops : List Op) (h : Run.Along step Observed initial ops)
    (hidle : (Run.run step initial ops).Idle)
    (hmutated : 0 < (Run.run step initial ops).tables.generation) :
    let s := Run.run step initial ops
    (∃ row ∈ s.tables.snapshots, row.version = s.tables.generation) ∧
      ∀ later, (Run.run step s later).tables.getSnapshot s.tables.generation = some s.live := by
  intro s
  have hinv : Inv s := Run.invariant inv_step ops inv_initial
  have hrecorded : Recorded s := Run.invariant_along (fun _ _ ↦ recorded_step) h (.inl rfl)
  have hrow : ∃ row ∈ s.tables.snapshots, row.version = s.tables.generation := by
    rcases hrecorded with hzero | hpending | ⟨r, hr, -⟩ | hrow
    · exact absurd hzero hmutated.ne'
    · exact absurd hidle.1 hpending.ne'
    · rw [hidle.2] at hr
      cases hr
    · exact hrow
  exact ⟨hrow, fun later ↦ getSnapshot_run (hinv.getSnapshot hrow) later⟩

/-- What the goroutines do. -/
def IsSave : Op → Prop
  | .mutate _ => False
  | _ => True

/-- There is no trace of the current generation. -/
structure Unrecorded (s : Archive) : Prop where
  pending : s.pending = 0
  saves : ∀ r ∈ s.saves, r.version < s.tables.generation
  rows : ∀ row ∈ s.tables.snapshots, row.version < s.tables.generation

/-- No goroutine makes up for it. -/
theorem Unrecorded.step {s : Archive} (h : Unrecorded s) {o : Op} (ho : IsSave o) :
    Unrecorded (s.step o) := by
  cases o with
  | mutate m => cases ho
  | start =>
    rw [Archive.step, if_pos h.pending]
    exact h
  | read i =>
    rw [Archive.step]
    split
    · exact h
    · rename_i r hr
      refine { h with saves := fun r' hr' ↦ ?_ }
      rcases List.mem_or_eq_of_mem_set hr' with hr' | rfl
      · exact h.saves r' hr'
      · exact Reading.next_version s.tables r ▸ h.saves r (List.mem_of_getElem? hr)
  | save i =>
    rw [Archive.step]
    split
    · exact h
    rename_i r hr
    split
    · exact h
    rename_i d hd
    obtain ⟨-, hgeneration⟩ := saveSnapshot_contents s.tables r.version d
    refine ⟨h.pending, fun r' hr' ↦ ?_, fun row hrow ↦ ?_⟩
    · exact hgeneration ▸ h.saves r' (List.mem_of_mem_eraseIdx hr')
    · rw [hgeneration]
      rcases mem_saveSnapshot hrow with hrow | rfl
      · exact h.rows row hrow
      · exact h.saves r (List.mem_of_getElem? hr)

/-- **A rollback leaves no trace**, when no goroutine is about to read the version.  It goes
through, and whatever the goroutines do then, there is no row for the generation it made. -/
theorem rollback_unrecorded (ops : List Op) {version : Nat} {d : Config.Dynamic}
    (hversion : 0 < version)
    (hsaved : (Run.run step initial ops).tables.getSnapshot version = some d)
    (hpending : (Run.run step initial ops).pending = 0) {saves : List Op}
    (hsaves : ∀ o ∈ saves, IsSave o) :
    let s := Run.run step (step (Run.run step initial ops) (.mutate (.rollback version))) saves
    ∀ row ∈ s.tables.snapshots, row.version ≠ s.tables.generation := by
  intro s
  have hinv : Inv (Run.run step initial ops) := Run.invariant inv_step ops inv_initial
  have hkeys : d.Keys := by
    rw [Tables.getSnapshot, Option.map_eq_some_iff] at hsaved
    obtain ⟨row, hrow, rfl⟩ := hsaved
    exact hinv.row_keys row (Table.mem_of_find hrow).1
  obtain ⟨t, ht⟩ := restore_of_keys hkeys (Run.run step initial ops).tables
  have hrequest : request (Run.run step initial ops).tables (.rollback version) = t := by
    rw [request, rollbackHandler, if_neg (by omega), Int.toNat_natCast, Tables.rollback, hsaved]
    simp only [ht]
  have hbump : t.generation = (Run.run step initial ops).tables.generation + 1 := by
    obtain ⟨-, rfl⟩ := restore_ok ht
    rfl
  have hunrecorded :
      Unrecorded (step (Run.run step initial ops) (.mutate (.rollback version))) := by
    rw [step, hrequest]
    refine ⟨hpending, fun r hr ↦ ?_, fun row hrow ↦ ?_⟩
    · have := hinv.save_le r hr
      exact hbump ▸ Nat.lt_succ_of_le this
    · rw [← hrequest, request_snapshots] at hrow
      exact hbump ▸ Nat.lt_succ_of_le (hinv.row_le row hrow)
  have hs : Unrecorded s :=
    Run.invariant_along (fun _ _ ho hq ↦ hq.step ho) (Run.along_of_forall hsaves _) hunrecorded
  exact fun row hrow ↦ (hs.rows row hrow).ne

/-- A goroutine runs to its end. -/
def Op.saved : List Op := [.start, .read 0, .read 0, .read 0, .read 0, .read 0, .save 0]

/-- A provider is created and deleted, and the first version is rolled back to. -/
def Op.rolledBack : List Op :=
  .mutate (.upsertProvider .sample) :: Op.saved ++ .mutate
  (.deleteProvider "openai-prod") :: Op.saved ++
    [.mutate (.rollback 1)]

/-- The rollback makes the third generation, and nothing is left that would save it. -/
theorem history_incomplete :
    let s := Run.run step initial Op.rolledBack
    s.Idle ∧ s.tables.generation = 3 ∧ ¬ ∃ row ∈ s.tables.snapshots,
    row.version = s.tables.generation := by
  decide

/-- The save after the deletion comes only after the rollback, and saves what the rollback made. -/
def Op.overtaken : List Op :=
  .mutate (.upsertProvider .sample) :: Op.saved ++
    [.mutate (.deleteProvider "openai-prod"), .mutate (.rollback 1)] ++ Op.saved

theorem history_complete_sample :
    let s := Run.run step initial Op.overtaken
    (∃ row ∈ s.tables.snapshots, row.version = s.tables.generation) ∧
      ∀ later, (Run.run step s later).tables.getSnapshot s.tables.generation = some s.live :=
  history_complete Op.overtaken (by decide) (by decide) (by decide)

end Archive

end Admin
end Voxeltoad
