import Voxeltoad.Config.Snapshot

/-!
# Polling the configuration

`Poller.fetch` of `internal/config/poller.go` against `snapshotHandler` of
`internal/admin/server.go`.  The data plane sends the version it has, the endpoint assembles a
snapshot, and answers 304 when its version is the one that was sent.

Snapshots can be torn.  What saves the poller is the order: the version is read first, and every
mutation bumps it.  So a torn snapshot carries a version that is already outdated, and a snapshot
whose version is *not* outdated was not torn (`Current`).  The next poll that nothing gets in the
way of replaces whatever the earlier ones left.
-/

set_option autoImplicit false

namespace Voxeltoad
namespace Config

/-- A write either leaves the configuration alone or bumps the generation. -/
theorem step_contents (t : Tables) (o : Op) :
    ((t.step o).generation = t.generation ∧ (t.step o).toContents = t.toContents) ∨
      (t.step o).generation = t.generation + 1 := by
  cases o with
  | mutate m =>
    rcases mutate_generation t m with heq | hbump
    · exact .inl ⟨congrArg Tables.generation heq, congrArg Tables.toContents heq⟩
    · exact .inr hbump
  | upsertCredential name cred =>
    refine .inl ?_
    simp only [Tables.step, Tables.upsertCredential]
    split <;> exact ⟨rfl, rfl⟩
  | deleteCredential name => exact .inl ⟨rfl, rfl⟩
  | save version d =>
    refine .inl ?_
    simp only [Tables.step, Tables.saveSnapshot]
    split <;> exact ⟨rfl, rfl⟩

/-- The operation is not a mutation of the configuration. -/
def Op.Quiet : Op → Prop
  | .mutate _ => False
  | _ => True

theorem step_quiet (t : Tables) {o : Op} (h : o.Quiet) :
    (t.step o).generation = t.generation ∧ (t.step o).toContents = t.toContents := by
  cases o with
  | mutate m => exact h.elim
  | upsertCredential name cred =>
    simp only [Tables.step, Tables.upsertCredential]
    split <;> exact ⟨rfl, rfl⟩
  | deleteCredential name => exact ⟨rfl, rfl⟩
  | save version d =>
    simp only [Tables.step, Tables.saveSnapshot]
    split <;> exact ⟨rfl, rfl⟩

/-! ## A poll -/

/-- How far a fetch has come.  `etag` is the `If-None-Match` that was sent, empty when there was
none to send. -/
inductive Fetch where
  | sent (etag : String)
  | reading (etag : String) (r : Reading)
  /-- 304 -/
  | notModified
  /-- 200, with the `ETag` header and the body. -/
  | ok (etag : String) (d : Dynamic)
  deriving DecidableEq, Repr

/-- An answer of the snapshot endpoint: what was sent, the generation that was read, and whether it
was a 304. -/
structure Answer where
  etag : String
  generation : Nat
  notModified : Bool
  deriving DecidableEq, Repr

/-- The tables, and a data plane that polls them.  A poller runs one fetch at a time.  `answers` and
`polls` record what happened: the answers of the endpoint, and how many fetches ended with one. -/
structure Plane where
  tables : Tables
  store : Dynamic
  fetch : Option Fetch
  answers : List Answer
  polls : Nat
  deriving DecidableEq, Repr

namespace Plane

/-- `NewStore`, over the empty tables. -/
def initial : Plane := ⟨.empty, .zero, none, [], 0⟩

inductive Op where
  | write (o : Config.Op)
  /-- The poller sends a request. -/
  | send
  /-- The next statement of `Snapshot`, the version first. -/
  | read
  | answer
  | receive
  /-- The request fails, or times out. -/
  | fail
  deriving DecidableEq, Repr

/-- The end of `snapshotHandler`. -/
def respond (etag : String) (d : Dynamic) : Fetch :=
  if etag = d.version then .notModified else .ok d.version d

/-- The end of `fetch`. -/
def received (etag : String) (d : Dynamic) : Dynamic :=
  if d.version = "" then { d with version := etag } else d

def step (s : Plane) : Op → Plane
  | .write o => { s with tables := s.tables.step o }
  | .send =>
    match s.fetch with
    | none => { s with fetch := some (.sent s.store.version) }
    | some _ => s
  | .read =>
    match s.fetch with
    | some (.sent etag) => { s with fetch := some (.reading etag (.start s.tables)) }
    | some (.reading etag r) => { s with fetch := some (.reading etag (r.next s.tables)) }
    | _ => s
  | .answer =>
    match s.fetch with
    | some (.reading etag r) =>
      match r.result with
      | none => s
      | some d =>
        { s with
          fetch := some (respond etag d)
          answers := s.answers ++ [⟨etag, r.version, respond etag d = .notModified⟩] }
    | _ => s
  | .receive =>
    match s.fetch with
    | some .notModified => { s with fetch := none, polls := s.polls + 1 }
    | some (.ok etag d) => { s with store := received etag d, fetch := none, polls := s.polls + 1 }
    | _ => s
  | .fail => { s with fetch := none }

/-- What an operation does to the plane: one case for each way it can go. -/
inductive Moves (s : Plane) : Op → Plane → Prop
  | write (o : Config.Op) : Moves s (.write o) { s with tables := s.tables.step o }
  /-- There is nothing for the operation to act on. -/
  | stay (o : Op) : Moves s o s
  | send (h : s.fetch = none) : Moves s .send { s with fetch := some (.sent s.store.version) }
  | start {etag : String} (h : s.fetch = some (.sent etag)) :
      Moves s .read { s with fetch := some (.reading etag (.start s.tables)) }
  | next {etag : String} {r : Reading} (h : s.fetch = some (.reading etag r)) :
      Moves s .read { s with fetch := some (.reading etag (r.next s.tables)) }
  | notModified {r : Reading} {d : Dynamic} (h : s.fetch = some (.reading d.version r))
      (hd : r.result = some d) :
      Moves s .answer
        { s with
          fetch := some .notModified
          answers := s.answers ++ [⟨d.version, r.version, true⟩] }
  | ok {etag : String} {r : Reading} {d : Dynamic} (h : s.fetch = some (.reading etag r))
      (hd : r.result = some d) :
      Moves s .answer
        { s with
          fetch := some (.ok d.version d)
          answers := s.answers ++ [⟨etag, r.version, false⟩] }
  | keep (h : s.fetch = some .notModified) :
      Moves s .receive { s with fetch := none, polls := s.polls + 1 }
  | replace {etag : String} {d : Dynamic} (h : s.fetch = some (.ok etag d)) :
      Moves s .receive
        { s with store := received etag d, fetch := none, polls := s.polls + 1 }
  | fail : Moves s .fail { s with fetch := none }

theorem step_moves (s : Plane) (o : Op) : Moves s o (s.step o) := by
  cases o with
  | write o => exact .write o
  | send =>
    rw [step]
    split
    · exact .send ‹_›
    · exact .stay _
  | read =>
    rw [step]
    split
    · exact .start ‹_›
    · exact .next ‹_›
    · exact .stay _
  | answer =>
    rw [step]
    split
    · rename_i etag r hfetch
      split
      · exact .stay _
      · rename_i d hd
        by_cases hetag : etag = d.version
        · subst hetag
          simpa [respond] using Moves.notModified hfetch hd
        · simpa [respond, hetag] using Moves.ok hfetch hd
    · exact .stay _
  | receive =>
    rw [step]
    split
    · exact .keep ‹_›
    · exact .replace ‹_›
    · exact .stay _
  | fail => exact .fail

theorem Moves.tables {s s' : Plane} {o : Op} (h : Moves s o s') (hwrite : ∀ w, o ≠ .write w) :
    s'.tables = s.tables := by
  cases h with
  | write o => exact absurd rfl (hwrite o)
  | stay | send | start | next | notModified | ok | keep | replace | fail => rfl

theorem Moves.polls_le {s s' : Plane} {o : Op} (h : Moves s o s') : s.polls ≤ s'.polls := by
  cases h with
  | keep | replace => exact Nat.le_succ _
  | write | stay | send | start | next | notModified | ok | fail => exact le_refl _

/-- The current configuration, as a snapshot. -/
def dynamic (s : Plane) : Dynamic := s.tables.toContents.dynamic s.tables.generation

/-! ## What is current is not torn -/

/-- A snapshot is labelled with a generation there has been, and if that is still the generation, it
is the configuration. -/
def Current (t : Tables) (d : Dynamic) : Prop :=
  ∃ v ≤ t.generation, d.version = toString v ∧
    (v = t.generation → d = t.toContents.dynamic t.generation)

/-- The same for a call of `Snapshot` and what it has read so far. -/
def ReadsCurrent (t : Tables) (r : Reading) : Prop :=
  r.version ≤ t.generation ∧ (r.version = t.generation → r.Agrees t.toContents)

/-- A fetch in flight sent the version that the store still has. -/
def FetchOK (s : Plane) : Fetch → Prop
  | .sent etag => etag = s.store.version
  | .reading etag r => etag = s.store.version ∧ ReadsCurrent s.tables r
  | .notModified => True
  | .ok _ d => Current s.tables d

structure Inv (s : Plane) : Prop where
  store : s.store.version = "" ∨ Current s.tables s.store
  fetch : ∀ f ∈ s.fetch, s.FetchOK f
  answers : ∀ a ∈ s.answers, a.notModified = true → a.etag = toString a.generation

theorem Current.write {t t' : Tables} {d : Dynamic} (h : Current t d)
    (hwrite : (t'.generation = t.generation ∧ t'.toContents = t.toContents) ∨
      t'.generation = t.generation + 1) : Current t' d := by
  obtain ⟨v, hv, hversion, hcur⟩ := h
  rcases hwrite with ⟨hgen, hcontents⟩ | hgen
  · refine ⟨v, by omega, hversion, fun hv' ↦ ?_⟩
    rw [hgen, hcontents]
    exact hcur (by omega)
  · exact ⟨v, by omega, hversion, fun hv' ↦ by omega⟩

theorem ReadsCurrent.write {t t' : Tables} {r : Reading} (h : ReadsCurrent t r)
    (hwrite : (t'.generation = t.generation ∧ t'.toContents = t.toContents) ∨
      t'.generation = t.generation + 1) : ReadsCurrent t' r := by
  obtain ⟨hv, hcur⟩ := h
  rcases hwrite with ⟨hgen, hcontents⟩ | hgen
  · refine ⟨by omega, fun hv' ↦ ?_⟩
    rw [hcontents]
    exact hcur (by omega)
  · exact ⟨by omega, fun hv' ↦ by omega⟩

theorem ReadsCurrent.next {t : Tables} {r : Reading} (h : ReadsCurrent t r) :
    ReadsCurrent t (r.next t) := by
  refine ⟨by simpa using h.1, fun hv ↦ ?_⟩
  exact Reading.next_agrees (h.2 (by simpa using hv)) (.refl ..)

theorem ReadsCurrent.result {t : Tables} {r : Reading} {d : Dynamic} (h : ReadsCurrent t r)
    (hd : r.result = some d) : Current t d ∧ d.version = toString r.version := by
  have hversion : d.version = toString r.version := by
    simp only [Reading.result, Option.bind_eq_bind, Option.bind_eq_some_iff, Option.pure_def,
      Option.some.injEq] at hd
    obtain ⟨_, _, _, _, _, _, _, _, _, _, rfl⟩ := hd
    rfl
  refine ⟨⟨r.version, h.1, hversion, fun hv ↦ ?_⟩, hversion⟩
  rw [← hv]
  exact Reading.result_eq (h.2 hv) hd

theorem Current.version_ne_empty {t : Tables} {d : Dynamic} (h : Current t d) : d.version ≠ "" := by
  obtain ⟨v, -, hversion, -⟩ := h
  rw [hversion]
  exact Nat.repr_ne_empty

/-- The version of a snapshot says whether it is the configuration. -/
theorem Current.eq_dynamic {t : Tables} {d : Dynamic} (h : Current t d)
    (hversion : d.version = toString t.generation) :
    d = t.toContents.dynamic t.generation := by
  obtain ⟨v, -, hv, hcur⟩ := h
  exact hcur (toString_injective (hv.symm.trans hversion))

theorem inv_initial : initial.Inv :=
  ⟨.inl rfl, by simp [initial], by simp [initial]⟩

theorem Moves.inv {s s' : Plane} {o : Op} (hmove : Moves s o s') (h : s.Inv) : s'.Inv := by
  cases hmove with
  | write o =>
    have hwrite := step_contents s.tables o
    refine ⟨h.store.imp id fun hc ↦ hc.write hwrite, fun f hf ↦ ?_, h.answers⟩
    have hok := h.fetch f hf
    cases f with
    | sent etag => exact hok
    | reading etag r => exact ⟨hok.1, hok.2.write hwrite⟩
    | notModified => trivial
    | ok etag d => exact Current.write hok hwrite
  | stay => exact h
  | send =>
    refine ⟨h.store, fun f hf ↦ ?_, h.answers⟩
    obtain rfl := Option.some.inj hf
    exact rfl
  | start hfetch =>
    refine ⟨h.store, fun f hf ↦ ?_, h.answers⟩
    obtain rfl := Option.some.inj hf
    exact ⟨h.fetch _ hfetch, le_refl _, fun _ ↦ Reading.start_agrees ..⟩
  | next hfetch =>
    refine ⟨h.store, fun f hf ↦ ?_, h.answers⟩
    obtain rfl := Option.some.inj hf
    obtain ⟨hetag, hr⟩ := h.fetch _ hfetch
    exact ⟨hetag, hr.next⟩
  | notModified hfetch hd =>
    obtain ⟨-, hr⟩ := h.fetch _ hfetch
    refine ⟨h.store, fun f hf ↦ ?_, fun a ha hnot ↦ ?_⟩
    · obtain rfl := Option.some.inj hf
      trivial
    · rcases List.mem_append.mp ha with ha | ha
      · exact h.answers a ha hnot
      · rw [List.mem_singleton.mp ha]
        exact (hr.result hd).2
  | ok hfetch hd =>
    obtain ⟨-, hr⟩ := h.fetch _ hfetch
    refine ⟨h.store, fun f hf ↦ ?_, fun a ha hnot ↦ ?_⟩
    · obtain rfl := Option.some.inj hf
      exact (hr.result hd).1
    · rcases List.mem_append.mp ha with ha | ha
      · exact h.answers a ha hnot
      · rw [List.mem_singleton.mp ha] at hnot
        cases hnot
  | keep => exact ⟨h.store, by simp, h.answers⟩
  | replace hfetch =>
    rename_i etag d
    have hcur : Current s.tables d := h.fetch _ hfetch
    refine ⟨.inr ?_, by simp, h.answers⟩
    rw [show received etag d = d from if_neg hcur.version_ne_empty]
    exact hcur
  | fail => exact ⟨h.store, by simp, h.answers⟩

theorem step_inv (s : Plane) (o : Op) (h : s.Inv) : (s.step o).Inv := (s.step_moves o).inv h

/-! ## A poll after the last mutation -/

/-- The operation does not change the configuration. -/
def Op.Quiet : Op → Prop
  | .write o => o.Quiet
  | _ => True

/-- What holds from an instant on at which no fetch was in flight and `n` polls had ended, if no
mutation follows: a fetch that was begun since then reads the configuration as it is. -/
structure Settled (n : Nat) (s : Plane) : Prop where
  reading : ∀ etag r, s.fetch = some (.reading etag r) → r.version = s.tables.generation
  notModified : s.fetch = some .notModified → s.store = s.dynamic
  ok : ∀ etag d, s.fetch = some (.ok etag d) → d = s.dynamic
  polled : n < s.polls → s.store = s.dynamic

theorem Settled.idle {n : Nat} {s : Plane} (h : s.fetch = none)
    (hpolled : n < s.polls → s.store = s.dynamic) : Settled n s := by
  refine ⟨?_, ?_, ?_, hpolled⟩ <;> simp [h]

theorem Settled.of_idle {s : Plane} (h : s.fetch = none) : Settled s.polls s :=
  .idle h fun hlt ↦ absurd hlt (lt_irrefl _)

theorem Moves.settled {n : Nat} {s s' : Plane} {o : Op} (hmove : Moves s o s') (hquiet : o.Quiet)
    (hinv : s.Inv) (h : Settled n s) : Settled n s' := by
  cases hmove with
  | write o =>
    obtain ⟨hgen, hcontents⟩ := step_quiet s.tables hquiet
    have hdyn : dynamic { s with tables := s.tables.step o } = s.dynamic := by
      rw [dynamic, dynamic, hgen, hcontents]
    refine ⟨fun etag r hf ↦ ?_, ?_, ?_, ?_⟩
    · rw [hgen]
      exact h.reading etag r hf
    · rw [hdyn]
      exact h.notModified
    · rw [hdyn]
      exact h.ok
    · rw [hdyn]
      exact h.polled
  | stay => exact h
  | send => exact ⟨by simp, by simp, by simp, h.polled⟩
  | start =>
    refine ⟨fun etag r hf ↦ ?_, by simp, by simp, h.polled⟩
    simp only [Option.some.injEq, Fetch.reading.injEq] at hf
    rw [← hf.2]
    rfl
  | next hfetch =>
    refine ⟨fun etag' r' hf ↦ ?_, by simp, by simp, h.polled⟩
    simp only [Option.some.injEq, Fetch.reading.injEq] at hf
    rw [← hf.2, Reading.next_version]
    exact h.reading _ _ hfetch
  | notModified hfetch hd =>
    obtain ⟨hetag, hr⟩ := hinv.fetch _ hfetch
    obtain ⟨hcur, hversion⟩ := hr.result hd
    refine ⟨by simp, fun _ ↦ ?_, by simp, h.polled⟩
    -- The version that was sent is the store's, and it is the current one.
    rcases hinv.store with hempty | hstore
    · exact absurd (hetag.trans hempty) hcur.version_ne_empty
    · refine hstore.eq_dynamic ?_
      rw [← hetag, hversion, h.reading _ _ hfetch]
  | ok hfetch hd =>
    obtain ⟨-, hr⟩ := hinv.fetch _ hfetch
    obtain ⟨hcur, hversion⟩ := hr.result hd
    refine ⟨by simp, by simp, fun etag' d' hf ↦ ?_, h.polled⟩
    cases hf
    refine hcur.eq_dynamic ?_
    rw [hversion, h.reading _ _ hfetch]
  | keep hfetch => exact .idle rfl fun _ ↦ h.notModified hfetch
  | replace hfetch =>
    rename_i etag d
    refine .idle rfl fun _ ↦ ?_
    have hcur : Current s.tables d := hinv.fetch _ hfetch
    exact (if_neg hcur.version_ne_empty).trans (h.ok etag d hfetch)
  | fail => exact .idle rfl h.polled

theorem step_settled {n : Nat} {s : Plane} {o : Op} (hquiet : o.Quiet) (hinv : s.Inv)
    (h : Settled n s) : Settled n (s.step o) := (s.step_moves o).settled hquiet hinv h

/-- A poll that runs by itself. -/
def Op.poll : List Op := [.send, .read, .read, .read, .read, .read, .read, .answer, .receive]

/-- A poll that runs by itself ends. -/
theorem poll_ends {s : Plane} (h : s.fetch = none) :
    (Run.run step s Op.poll).polls = s.polls + 1 := by
  by_cases heq : s.store.version = s.tables.generation.repr <;>
    simp [Op.poll, step, h, Reading.start, Reading.next, Reading.result, respond, heq]

theorem run_settled {s : Plane} (hinv : s.Inv) (hidle : s.fetch = none) {ops : List Op}
    (hquiet : ∀ o ∈ ops, o.Quiet) :
    (Run.run step s ops).Inv ∧ Settled s.polls (Run.run step s ops) := by
  induction ops using List.reverseRecOn with
  | nil => exact ⟨hinv, .of_idle hidle⟩
  | append_singleton ops o ih =>
    obtain ⟨hinv', hset⟩ := ih fun o ho ↦ hquiet o (List.mem_append_left _ ho)
    rw [Run.run_concat]
    exact ⟨step_inv _ o hinv', step_settled (hquiet o (by simp)) hinv' hset⟩

/-- **Poll convergence.**  After any interleaving, a store whose version is the current generation
holds the current configuration, and every 304 was given to a request that had sent the generation
that was read.  From there, once no fetch from before is in flight and no mutation follows, a poll
that ends leaves the store equal to the configuration, and a poll that runs by itself ends. -/
theorem poll_convergence (ops : List Op) :
    let s := Run.run step initial ops
    (s.store.version = toString s.tables.generation → s.store = s.dynamic) ∧
      (∀ a ∈ s.answers, a.notModified = true → a.etag = toString a.generation) ∧
      (s.fetch = none → (Run.run step s Op.poll).polls = s.polls + 1) ∧
      ∀ ops' : List Op, s.fetch = none → (∀ o ∈ ops', o.Quiet) →
        s.polls < (Run.run step s ops').polls →
          (Run.run step s ops').store = (Run.run step s ops').dynamic := by
  intro s
  have hinv : s.Inv := Run.invariant step_inv ops inv_initial
  refine ⟨fun hversion ↦ ?_, hinv.answers, poll_ends, fun ops' hidle hquiet hpoll ↦ ?_⟩
  · rcases hinv.store with hempty | hcur
    · rw [hempty] at hversion
      exact absurd hversion.symm Nat.repr_ne_empty
    · exact hcur.eq_dynamic hversion
  · exact (run_settled hinv hidle hquiet).2.polled hpoll

/-- A provider goes between the version and the providers of a poll, which stores a torn snapshot;
the next poll replaces it. -/
def Op.torn : List Op :=
  [.write (.mutate (.upsertProvider .sample)), .send, .read,
    .write (.mutate (.deleteProvider "openai-prod")), .read, .read, .read, .read, .read, .answer,
    .receive]

theorem poll_convergence_torn :
    (Run.run step initial Op.torn).store.version = "1" ∧
      (Run.run step (Run.run step initial Op.torn) Op.poll).store =
        (Run.run step (Run.run step initial Op.torn) Op.poll).dynamic := by
  refine ⟨by decide, (poll_convergence Op.torn).2.2.2 Op.poll (by decide) ?_ (by decide)⟩
  simp [Op.poll, Op.Quiet]

end Plane

end Config
end Voxeltoad
