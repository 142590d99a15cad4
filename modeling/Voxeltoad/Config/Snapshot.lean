import Voxeltoad.Config.Rollback

/-!
# Snapshots under concurrent mutations

`ConfigRepo.Snapshot` reads the generation and then one table after the other, each with a statement
of its own and outside a transaction.  The snapshot endpoint serves what it returns, and after every
mutation a goroutine saves what it returns in `config_snapshots`, where each row is to hold the
configuration at its version.

`Reading` is how far a call has come.  Since nothing keeps the tables still between two of its
statements, the sections can be from different generations.  `snapshot_faithful` is what it takes
for them not to be: a mutation that commits while a call is reading may change only sections that
the call has behind it.
-/

set_option autoImplicit false

namespace Voxeltoad
namespace Config

/-- A call of `Snapshot` that has read the version, and of the sections those that are not
`none`. -/
structure Reading where
  version : Nat
  providers : Option (List Provider)
  models : Option (List Model)
  routes : Option (List Route)
  plugins : Option (List PluginConfig)
  settings : Option GatewaySettings
  deriving DecidableEq, Repr

namespace Reading

/-- `SELECT version FROM config_generation`. -/
def start (t : Tables) : Reading := ⟨t.generation, none, none, none, none, none⟩

/-- The next statement. -/
def next (t : Tables) (r : Reading) : Reading :=
  if r.providers = none then { r with providers := some t.providers }
  else if r.models = none then { r with models := some t.models }
  else if r.routes = none then { r with routes := some t.routes }
  else if r.plugins = none then { r with plugins := some t.plugins }
  else if r.settings = none then { r with settings := some t.settings }
  else r

/-- What the call returns, when everything is read. -/
def result (r : Reading) : Option Dynamic := do
  let providers ← r.providers
  let models ← r.models
  let routes ← r.routes
  let plugins ← r.plugins
  let settings ← r.settings
  return ⟨toString r.version, providers, models, routes, plugins, some settings⟩

/-- What was read is what the contents `c` have. -/
def Agrees (r : Reading) (c : Contents) : Prop :=
  (∀ x ∈ r.providers, x = c.providers) ∧ (∀ x ∈ r.models, x = c.models) ∧
    (∀ x ∈ r.routes, x = c.routes) ∧ (∀ x ∈ r.plugins, x = c.plugins) ∧
    ∀ x ∈ r.settings, x = c.settings

/-- The contents `c` and `c'` are the same where nothing was read yet. -/
def Ahead (r : Reading) (c c' : Contents) : Prop :=
  (r.providers = none → c'.providers = c.providers) ∧ (r.models = none → c'.models = c.models) ∧
    (r.routes = none → c'.routes = c.routes) ∧ (r.plugins = none → c'.plugins = c.plugins) ∧
    (r.settings = none → c'.settings = c.settings)

instance (r : Reading) (c c' : Contents) : Decidable (r.Ahead c c') :=
  inferInstanceAs (Decidable (_ ∧ _ ∧ _ ∧ _ ∧ _))

theorem start_agrees (t : Tables) (c : Contents) : (start t).Agrees c := by
  simp [start, Agrees]

@[simp] theorem next_version (t : Tables) (r : Reading) : (r.next t).version = r.version := by
  rw [next]
  split_ifs <;> rfl

/-- A statement reads what was ahead of the call. -/
theorem next_agrees {t : Tables} {r : Reading} {c : Contents} (h : r.Agrees c)
    (hahead : r.Ahead c t.toContents) : (r.next t).Agrees c := by
  obtain ⟨hp, hm, hr, hl, hs⟩ := h
  obtain ⟨ap, am, ar, al, as⟩ := hahead
  rw [next]
  split_ifs with h₁ h₂ h₃ h₄ h₅
  · exact ⟨by simpa using ap h₁, hm, hr, hl, hs⟩
  · exact ⟨hp, by simpa using am h₂, hr, hl, hs⟩
  · exact ⟨hp, hm, by simpa using ar h₃, hl, hs⟩
  · exact ⟨hp, hm, hr, by simpa using al h₄, hs⟩
  · exact ⟨hp, hm, hr, hl, by simpa using as h₅⟩
  · exact ⟨hp, hm, hr, hl, hs⟩

theorem next_ahead {t : Tables} {r : Reading} {c c' : Contents} (h : r.Ahead c c') :
    (r.next t).Ahead c c' := by
  obtain ⟨ap, am, ar, al, as⟩ := h
  rw [next]
  split_ifs
  · exact ⟨nofun, am, ar, al, as⟩
  · exact ⟨ap, nofun, ar, al, as⟩
  · exact ⟨ap, am, nofun, al, as⟩
  · exact ⟨ap, am, ar, nofun, as⟩
  · exact ⟨ap, am, ar, al, nofun⟩
  · exact ⟨ap, am, ar, al, as⟩

theorem Ahead.trans {r : Reading} {c c' c'' : Contents} (h : r.Ahead c c') (h' : r.Ahead c' c'') :
    r.Ahead c c'' :=
  ⟨fun hn ↦ (h'.1 hn).trans (h.1 hn), fun hn ↦ (h'.2.1 hn).trans (h.2.1 hn),
    fun hn ↦ (h'.2.2.1 hn).trans (h.2.2.1 hn), fun hn ↦ (h'.2.2.2.1 hn).trans (h.2.2.2.1 hn),
    fun hn ↦ (h'.2.2.2.2 hn).trans (h.2.2.2.2 hn)⟩

theorem Ahead.refl (r : Reading) (c : Contents) : r.Ahead c c :=
  ⟨fun _ ↦ rfl, fun _ ↦ rfl, fun _ ↦ rfl, fun _ ↦ rfl, fun _ ↦ rfl⟩

/-- What a call returns is the contents that it read. -/
theorem result_eq {r : Reading} {c : Contents} {d : Dynamic} (h : r.Agrees c)
    (hd : r.result = some d) : d = c.dynamic r.version := by
  obtain ⟨hp, hm, hr, hl, hs⟩ := h
  simp only [result, Option.bind_eq_bind, Option.bind_eq_some_iff, Option.pure_def,
    Option.some.injEq] at hd
  obtain ⟨p, hp', m, hm', rt, hr', pl, hl', s, hs', rfl⟩ := hd
  rw [Contents.dynamic, hp p hp', hm m hm', hr rt hr', hl pl hl', hs s hs']

end Reading

/-! ## Calls in flight -/

/-- A call of `Snapshot`.  `save` is whether its caller saves the result. -/
structure SnapshotCall where
  save : Bool
  reading : Reading
  deriving DecidableEq, Repr

/-- The tables, the calls in flight, and everything that `Snapshot` has returned. -/
structure Readers where
  tables : Tables
  calls : List SnapshotCall
  returned : List Dynamic
  deriving DecidableEq, Repr

namespace Readers

def initial : Readers := ⟨.empty, [], []⟩

inductive Op where
  | mutate (m : Mutation)
  /-- A poller's request, or the goroutine after a mutation, reads the version. -/
  | call (save : Bool)
  /-- The next statement of a call. -/
  | read (i : Nat)
  /-- `SaveSnapshot` of what a call returned. -/
  | save (i : Nat)
  /-- A call is done, or failed. -/
  | drop (i : Nat)
  deriving DecidableEq, Repr

def step (s : Readers) : Op → Readers
  | .mutate m => { s with tables := s.tables.mutate m }
  | .call save => { s with calls := s.calls ++ [⟨save, .start s.tables⟩] }
  | .read i =>
    match s.calls[i]? with
    | none => s
    | some c =>
      if c.reading.result = none then
        let r := c.reading.next s.tables
        { s with calls := s.calls.set i ⟨c.save, r⟩, returned := s.returned ++ r.result.toList }
      else s
  | .save i =>
    match s.calls[i]? with
    | some ⟨true, r⟩ =>
      match r.result with
      | none => s
      | some d =>
        { s with tables := s.tables.saveSnapshot r.version d, calls := s.calls.eraseIdx i }
    | _ => s
  | .drop i => { s with calls := s.calls.eraseIdx i }

/-- The configuration at the generation of a state. -/
def dynamic (s : Readers) : Dynamic := s.tables.toContents.dynamic s.tables.generation

/-- A mutation changes only what the calls in flight have already read. -/
def Behind (s : Readers) : Op → Prop
  | .mutate m => ∀ c ∈ s.calls, c.reading.Ahead s.tables.toContents (s.tables.mutate m).toContents
  | _ => True

instance (s : Readers) (o : Op) : Decidable (s.Behind o) := by
  cases o <;> unfold Behind <;> infer_instance

/-! ## Where a section comes from -/

/-- What is known in state `s` about the states `past` of the run. -/
structure Inv (past : List Readers) (s : Readers) : Prop where
  /-- The generation tells the configurations of a run apart. -/
  determined : ∀ q ∈ past, ∀ q' ∈ past, q.tables.generation = q'.tables.generation →
    q.tables.toContents = q'.tables.toContents
  latest : ∀ q ∈ past, q.tables.generation ≤ s.tables.generation
  /-- What a call has read is from the state that it got its version from, and what it has not read
  is still as it was there. -/
  calls : ∀ c ∈ s.calls, ∃ q ∈ past, q.tables.generation = c.reading.version ∧
    c.reading.Agrees q.tables.toContents ∧
    c.reading.Ahead q.tables.toContents s.tables.toContents
  returned : ∀ d ∈ s.returned, ∃ q ∈ past, d = q.dynamic
  saved : ∀ row ∈ s.tables.snapshots, ∃ q ∈ past,
    row.version = q.tables.generation ∧ row.payload = q.dynamic

/-- The next state of a run keeps what is known of the states before it. -/
theorem Inv.extend {past : List Readers} {s s' : Readers} (h : Inv past s) (hs : s ∈ past)
    (hwrite : (s'.tables.generation = s.tables.generation ∧
        s'.tables.toContents = s.tables.toContents) ∨
      s'.tables.generation = s.tables.generation + 1)
    (hcalls : ∀ c ∈ s'.calls, ∃ q ∈ past, q.tables.generation = c.reading.version ∧
      c.reading.Agrees q.tables.toContents ∧
      c.reading.Ahead q.tables.toContents s'.tables.toContents)
    (hreturned : ∀ d ∈ s'.returned, ∃ q ∈ past, d = q.dynamic)
    (hsaved : ∀ row ∈ s'.tables.snapshots, ∃ q ∈ past,
      row.version = q.tables.generation ∧ row.payload = q.dynamic) : Inv (past ++ [s']) s' := by
  have hnew : ∀ q ∈ past, q.tables.generation = s'.tables.generation →
      q.tables.toContents = s'.tables.toContents := by
    intro q hq hgen
    rcases hwrite with ⟨hsame, hcontents⟩ | hbump
    · rw [hcontents]
      exact h.determined q hq s hs (hgen.trans hsame)
    · have := h.latest q hq
      omega
  have hsub : ∀ {P : Readers → Prop}, (∃ q ∈ past, P q) → ∃ q ∈ past ++ [s'], P q :=
    fun ⟨q, hq, hP⟩ ↦ ⟨q, List.mem_append_left _ hq, hP⟩
  refine ⟨?_, ?_, fun c hc ↦ hsub (hcalls c hc), fun d hd ↦ hsub (hreturned d hd),
    fun row hrow ↦ hsub (hsaved row hrow)⟩
  · intro q hq q' hq' hgen
    rcases List.mem_append.mp hq with hq | hq <;> rcases List.mem_append.mp hq' with hq' | hq'
    · exact h.determined q hq q' hq' hgen
    · rw [List.mem_singleton.mp hq'] at hgen ⊢
      exact hnew q hq hgen
    · rw [List.mem_singleton.mp hq] at hgen ⊢
      exact (hnew q' hq' hgen.symm).symm
    · rw [List.mem_singleton.mp hq, List.mem_singleton.mp hq']
  · intro q hq
    rcases List.mem_append.mp hq with hq | hq
    · have := h.latest q hq
      omega
    · rw [List.mem_singleton.mp hq]

/-- A state that repeats the last one. -/
theorem Inv.stay {past : List Readers} {s : Readers} (h : Inv past s) (hs : s ∈ past) :
    Inv (past ++ [s]) s :=
  h.extend hs (.inl ⟨rfl, rfl⟩) h.calls h.returned h.saved

/-- A call that has read everything returns the configuration of a state it went by. -/
theorem Inv.result {past : List Readers} {s : Readers} (h : Inv past s) {c : SnapshotCall}
    (hc : c ∈ s.calls) {d : Dynamic} (hd : c.reading.result = some d) :
    ∃ q ∈ past, c.reading.version = q.tables.generation ∧ d = q.dynamic := by
  obtain ⟨q, hq, hgen, hagree, -⟩ := h.calls c hc
  exact ⟨q, hq, hgen.symm, by rw [dynamic, hgen]; exact Reading.result_eq hagree hd⟩

theorem Inv.read {past : List Readers} {s : Readers} (i : Nat) (hs : s ∈ past) (h : Inv past s) :
    Inv (past ++ [s.step (.read i)]) (s.step (.read i)) := by
  cases hc : s.calls[i]? with
  | none =>
    rw [show s.step (.read i) = s by simp [Readers.step, hc]]
    exact h.stay hs
  | some c =>
    by_cases hdone : c.reading.result = none
    · have hstep : s.step (.read i) =
          { s with
            calls := s.calls.set i ⟨c.save, c.reading.next s.tables⟩
            returned := s.returned ++ (c.reading.next s.tables).result.toList } := by
        simp [Readers.step, hc, hdone]
      -- The statement reads a section that is still as it was when the version was read.
      obtain ⟨q, hq, hgen, hagree, hahead⟩ := h.calls c (List.mem_of_getElem? hc)
      have hagree' := Reading.next_agrees hagree hahead
      rw [hstep]
      refine h.extend hs (.inl ⟨rfl, rfl⟩) ?_ ?_ h.saved
      · intro c' hc'
        rcases List.mem_or_eq_of_mem_set hc' with hc' | rfl
        · exact h.calls c' hc'
        · exact ⟨q, hq, by simpa using hgen, hagree', Reading.next_ahead hahead⟩
      · intro d hd
        rcases List.mem_append.mp hd with hd | hd
        · exact h.returned d hd
        · refine ⟨q, hq, ?_⟩
          rw [Reading.result_eq hagree' (Option.mem_toList.mp hd), Reading.next_version, ← hgen,
            dynamic]
    · rw [show s.step (.read i) = s by simp [Readers.step, hc, hdone]]
      exact h.stay hs

theorem Inv.save {past : List Readers} {s : Readers} (i : Nat) (hs : s ∈ past) (h : Inv past s) :
    Inv (past ++ [s.step (.save i)]) (s.step (.save i)) := by
  rw [Readers.step]
  split
  · rename_i r hc
    split
    · exact h.stay hs
    · rename_i d hd
      have hcalls : ∀ c ∈ s.calls.eraseIdx i, c ∈ s.calls := fun c ↦ List.mem_of_mem_eraseIdx
      rw [Tables.saveSnapshot]
      split
      · exact h.extend hs (.inl ⟨rfl, rfl⟩) (fun c hc ↦ h.calls c (hcalls c hc)) h.returned h.saved
      · refine h.extend hs (.inl ⟨rfl, rfl⟩) (fun c hc ↦ h.calls c (hcalls c hc)) h.returned ?_
        intro row hrow
        rcases List.mem_append.mp hrow with hrow | hrow
        · exact h.saved row hrow
        · rw [List.mem_singleton.mp hrow]
          exact h.result (List.mem_of_getElem? hc) hd
  · exact h.stay hs

/-- One step, taken while the calls in flight have what it changes behind them. -/
theorem Inv.step {past : List Readers} {s : Readers} {o : Op} (hbehind : s.Behind o)
    (hs : s ∈ past) (h : Inv past s) : Inv (past ++ [s.step o]) (s.step o) := by
  cases o with
  | mutate m =>
    refine h.extend hs ?_ ?_ h.returned ?_
    · rcases mutate_generation s.tables m with heq | hbump
      · exact .inl ⟨congrArg Tables.generation heq, congrArg Tables.toContents heq⟩
      · exact .inr hbump
    · intro c hc
      obtain ⟨q, hq, hgen, hagree, hahead⟩ := h.calls c hc
      exact ⟨q, hq, hgen, hagree, hahead.trans (hbehind c hc)⟩
    · intro row hrow
      exact h.saved row ((mutated s.tables m).snapshots ▸ hrow)
  | call save =>
    refine h.extend hs (.inl ⟨rfl, rfl⟩) ?_ h.returned h.saved
    intro c hc
    rcases List.mem_append.mp hc with hc | hc
    · exact h.calls c hc
    · rw [List.mem_singleton.mp hc]
      exact ⟨s, hs, rfl, Reading.start_agrees .., .refl ..⟩
  | read i => exact h.read i hs
  | save i => exact h.save i hs
  | drop i =>
    refine h.extend hs (.inl ⟨rfl, rfl⟩) (fun c hc ↦ ?_) h.returned h.saved
    exact h.calls c (List.mem_of_mem_eraseIdx hc)

theorem inv_initial : Inv [initial] initial := by
  refine ⟨?_, ?_, by simp [initial], by simp [initial], by simp [initial, Tables.empty]⟩
  · intro q hq q' hq' _
    rw [List.mem_singleton.mp hq, List.mem_singleton.mp hq']
  · intro q hq
    rw [List.mem_singleton.mp hq]

/-! ## Snapshot atomicity -/

/-- The sections of `d` are those that the configuration had at the generation `d` is labelled
with. -/
def Faithful (past : List Readers) (d : Dynamic) : Prop :=
  (∃ q ∈ past, toString q.tables.generation = d.version) ∧
    ∀ q ∈ past, toString q.tables.generation = d.version → d = q.dynamic

theorem Inv.faithful {past : List Readers} {s : Readers} (h : Inv past s) {d : Dynamic}
    (hd : ∃ q ∈ past, d = q.dynamic) : Faithful past d := by
  obtain ⟨q, hq, rfl⟩ := hd
  refine ⟨⟨q, hq, rfl⟩, fun q' hq' hversion ↦ ?_⟩
  have hgen : q'.tables.generation = q.tables.generation := toString_injective hversion
  rw [dynamic, dynamic, hgen, h.determined q' hq' q hq hgen]

/-- **Snapshot atomicity.**  In a run in which mutations change only what the calls in flight have
already read, everything that `Snapshot` returns, and everything that is saved, has the contents of
the generation it is labelled with. -/
theorem snapshot_faithful (ops : List Op) (h : Run.Along step Behind initial ops) :
    (∀ d ∈ (Run.run step initial ops).returned, Faithful (Run.visited step initial ops) d) ∧
      ∀ row ∈ (Run.run step initial ops).tables.snapshots,
        toString row.version = row.payload.version ∧
          Faithful (Run.visited step initial ops) row.payload := by
  have hinv : Inv (Run.visited step initial ops) (Run.run step initial ops) :=
    Run.invariant_past_along (fun _ _ _ hbehind hs hI ↦ hI.step hbehind hs) inv_initial h
  refine ⟨fun d hd ↦ hinv.faithful (hinv.returned d hd), fun row hrow ↦ ?_⟩
  obtain ⟨q, hq, hversion, hpayload⟩ := hinv.saved row hrow
  exact ⟨by rw [hpayload, hversion]; rfl, hinv.faithful ⟨q, hq, hpayload⟩⟩

/-- A call reads the version, providers come and go, and the call reads the rest. -/
def Op.torn : List Op :=
  [.mutate (.upsertProvider .sample), .call true, .mutate (.deleteProvider "openai-prod"),
    .read 0, .read 0, .read 0, .read 0, .read 0, .save 0]

/-- A snapshot without providers is returned, and saved, under the generation that has one. -/
theorem snapshot_torn :
    (∃ d ∈ (Run.run step initial Op.torn).returned,
      ¬ Faithful (Run.visited step initial Op.torn) d) ∧
    ∃ row ∈ (Run.run step initial Op.torn).tables.snapshots,
      ¬ Faithful (Run.visited step initial Op.torn) row.payload := by
  have htorn : ¬ Faithful (Run.visited step initial Op.torn) ⟨"1", [], [], [], [], some .zero⟩ := by
    intro hfaithful
    have heq := hfaithful.2 (Run.run step initial [.mutate (.upsertProvider .sample)])
      (by decide) (by decide)
    exact absurd heq (by decide)
  exact ⟨⟨_, by decide, htorn⟩, ⟨⟨1, _⟩, by decide, htorn⟩⟩

/-- The same call, when the provider goes after the call has read the providers. -/
def Op.behind : List Op :=
  [.mutate (.upsertProvider .sample), .call true, .read 0, .mutate (.deleteProvider "openai-prod"),
    .read 0, .read 0, .read 0, .read 0]

theorem snapshot_faithful_sample :
    (Run.run step initial Op.behind).returned = [⟨"1", [.sample], [], [], [], some .zero⟩] ∧
      Faithful (Run.visited step initial Op.behind) ⟨"1", [.sample], [], [], [], some .zero⟩ :=
  ⟨by decide, (snapshot_faithful Op.behind (by decide)).1 _ (by decide)⟩

end Readers

end Config
end Voxeltoad
