import Voxeltoad.Ratelimit.Refinement

/-!
# The rate-limit plugin

`Plugin` of `internal/plugin/ratelimit`.  It turns the identity of a request into dimensions, one
for each level that has a limit, and asks the limiter: for the requests per minute and then for the
tokens per minute before the request goes upstream, and once more, to record the tokens, when it has
come back.

The limiter has a lock, and each of these calls takes it on its own: calls of other requests may
come in between.  So a run is a list of *turns*, each of which is at most one call of the limiter.

The counter of a tenant and that of a key belong to one tenant.  That of a group is named after the
group alone, and tenants name their groups as they like: two of them can share it.
-/

set_option autoImplicit false

namespace Voxeltoad

namespace Ratelimit

/-! ## The plugin -/

/-- `Limits`: a limit that is not positive is none. -/
structure Limits where
  tenantRPM : Int
  tenantTPM : Int
  groupRPM : Int
  groupTPM : Int
  keyRPM : Int
  keyTPM : Int
  window : Int
  deriving DecidableEq, Repr

/-- `Plugin`, the limiter apart. -/
structure Plugin where
  limits : Limits
  window : Int
  deriving DecidableEq, Repr

/-- `time.Minute`, in nanoseconds. -/
def minute : Int := 60000000000

/-- `NewPlugin`. -/
def newPlugin (limits : Limits) : Plugin :=
  ⟨limits, if limits.window ≤ 0 then minute else limits.window⟩

/-- What the plugin reads of a `plugin.Context`.  `requestID` tells contexts with the same identity
apart. -/
structure Context where
  requestID : Nat
  tenant : String
  group : String
  apiKeyID : String
  deriving DecidableEq, Repr

namespace Plugin

variable (p : Plugin)

/-- `add`: the dimension of one level. -/
def add (m : Metric) (scopePrefix scopeVal : String) (limit : Int) : List Dimension :=
  if limit > 0 ∧ scopeVal ≠ "" then [⟨scopePrefix ++ ":" ++ scopeVal, m, limit, p.window⟩] else []

/-- `dimensions`. -/
def dimensions (c : Context) : Metric → List Dimension
  | .rpm =>
    p.add .rpm "tenant" c.tenant p.limits.tenantRPM ++
    p.add .rpm "group" c.group p.limits.groupRPM ++
      p.add .rpm "key" c.apiKeyID p.limits.keyRPM
  | .tpm =>
    p.add .tpm "tenant" c.tenant p.limits.tenantTPM ++
    p.add .tpm "group" c.group p.limits.groupTPM ++
      p.add .tpm "key" c.apiKeyID p.limits.keyTPM

end Plugin

/-! ## Turns -/

/-- What a request does next: one half of `check`, or `debit`.  `usage` is the number of tokens of
the response, if there is one that has it. -/
inductive Turn where
  | rpm (c : Context) (now : Int)
  | tpm (c : Context) (now : Int)
  | post (c : Context) (usage : Option Int) (now : Int)
  deriving DecidableEq, Repr

namespace Turn

def context : Turn → Context
  | .rpm c _ => c
  | .tpm c _ => c
  | .post c _ _ => c

def now : Turn → Int
  | .rpm _ now => now
  | .tpm _ now => now
  | .post _ _ now => now

def tenant (u : Turn) : String := u.context.tenant

end Turn

/-- The limiter, and the requests that are half way through `check`. -/
structure Running (σ : Type) where
  limiter : σ
  checking : List Context
  deriving DecidableEq, Repr

/-- There is a call to make only if there is a dimension. -/
def callOf (c : List Dimension → Call) : List Dimension → Option Call
  | [] => none
  | d :: ds => some (c (d :: ds))

namespace Plugin

variable (p : Plugin) {σ : Type} (call : σ → Call → Option Decision × σ)

/-- The call of the limiter that a turn makes. -/
def callOf (checking : List Context) : Turn → Option Call
  | .rpm c now => Ratelimit.callOf (fun dims ↦ .allow now dims 1) (p.dimensions c .rpm)
  | .tpm c now =>
    if c ∈ checking then Ratelimit.callOf (fun dims ↦ .allow now dims 0) (p.dimensions c .tpm)
      else none
  | .post c usage now =>
    match usage with
    | none => none
    | some totalTokens =>
      Ratelimit.callOf (fun dims ↦ .debit now dims totalTokens) (p.dimensions c .tpm)

/-- The requests that are half way through `check` after a turn.  A request that was rejected
stops. -/
def checkingAfter (checking : List Context) (answer : Option Decision) : Turn → List Context
  | .rpm c _ => if answer.any fun d ↦ !d.ok then checking else c :: checking
  | .tpm c _ => checking.filter (· ≠ c)
  | .post .. => checking

/-- **A turn**, over any limiter. -/
def turn (s : Running σ) (u : Turn) : Option Decision × Running σ :=
  let (answer, limiter) :=
    match p.callOf s.checking u with
    | none => (none, s.limiter)
    | some c => call s.limiter c
  (answer, ⟨limiter, checkingAfter s.checking answer u⟩)

/-- The decisions that the requests of a tenant were given, turn by turn. -/
def decisions (tenant : String) (s : Running σ) (turns : List Turn) :
    List (Turn × Option Decision) :=
  (turns.zip (Run.answers (p.turn call) s turns)).filter fun x ↦ x.1.tenant = tenant

/-- The plugin over a limiter. -/
def step (s : Running MemoryLimiter) (u : Turn) : Running MemoryLimiter :=
  (p.turn MemoryLimiter.call s u).2

end Plugin

/-- The capacity bound is not reached: after a call and its idle sweep, there are not too many
counters. -/
def Uncrowded (l : MemoryLimiter) (c : Call) : Prop :=
  let l' := (l.callWith (fun l _ ↦ l) c).2.sweep c.now
  l'.counters.length ≤ l'.maxCounters

instance (l : MemoryLimiter) (c : Call) : Decidable (Uncrowded l c) :=
  inferInstanceAs (Decidable (_ ≤ _))

/-- **A run of the plugin**: the clock does not go back, the ids of API keys belong to one tenant
each, and there are never more counters than the limiter may have. -/
structure Proper (p : Plugin) (s : Running MemoryLimiter) (turns : List Turn) : Prop where
  clock : turns.Pairwise fun u u' ↦ u.now ≤ u'.now
  keys : ∀ u ∈ turns, ∀ u' ∈ turns, u.context.apiKeyID ≠ "" →
    u.context.apiKeyID = u'.context.apiKeyID → u.tenant = u'.tenant
  room : Run.Along p.step (fun s u ↦ ∀ c ∈ p.callOf s.checking u, Uncrowded s.limiter c) s turns

/-- **No group is shared**: there is no limit on groups, or no request of another tenant names a
group of the tenant's. -/
def GroupsApart (p : Plugin) (tenant : String) (turns : List Turn) : Prop :=
  (p.limits.groupRPM ≤ 0 ∧ p.limits.groupTPM ≤ 0) ∨
    ∀ u ∈ turns, ∀ u' ∈ turns, u.tenant = tenant → u'.tenant ≠ tenant → u.context.group ≠ "" →
      u.context.group ≠ u'.context.group

/-! ## The plugin over the ledger -/

/-- A call that is not crowded does what the ledger does. -/
theorem Sim.call {windowOf : String → Int} {ledger : Ledger} {now : Int}
    {l : MemoryLimiter} {c : Call} (h : Sim windowOf ledger now l) (hnow : now ≤ c.now)
    (hwindow : ∀ d ∈ c.dims, d.window = windowOf d.key) (hroom : Uncrowded l c) :
    (l.call c).1 = (ledger.call c).1 ∧ Sim windowOf (ledger.call c).2 c.now (l.call c).2 := by
  obtain ⟨hanswer, hsim⟩ := h.callWith hnow hwindow
  obtain ⟨hsame, hcases⟩ := l.callWith_eq MemoryLimiter.evictIfNeeded c
  rw [MemoryLimiter.call_eq]
  refine ⟨hsame.trans hanswer, ?_⟩
  rcases hcases with heq | heq
  · rw [heq]
    exact hsim
  · rw [heq]
    exact hsim.evictIfNeeded hroom

theorem callOf_dims {f : List Dimension → Call} {ds : List Dimension} {c : Call}
    (h : callOf f ds = some c) : c = f ds := by
  cases ds with
  | nil => cases h
  | cons d ds => exact (Option.some.inj h).symm

section Turns

variable {p : Plugin} {checking : List Context} {u : Turn} {c : Call}

/-- **The call that a turn makes**: at the instant of the turn, over the dimensions of its
request. -/
theorem callOf_eq (h : p.callOf checking u = some c) :
    c.now = u.now ∧ ∃ m, c.dims = p.dimensions u.context m := by
  cases u with
  | rpm ctx now =>
    rw [Plugin.callOf] at h
    obtain rfl := callOf_dims h
    exact ⟨rfl, .rpm, rfl⟩
  | tpm ctx now =>
    rw [Plugin.callOf] at h
    split at h
    · obtain rfl := callOf_dims h
      exact ⟨rfl, .tpm, rfl⟩
    · cases h
  | post ctx usage now =>
    cases usage with
    | none => cases h
    | some totalTokens =>
      rw [Plugin.callOf] at h
      obtain rfl := callOf_dims h
      exact ⟨rfl, .tpm, rfl⟩

theorem mem_add {m : Metric} {scopePrefix scopeVal : String} {limit : Int} {d : Dimension} :
    d ∈ p.add m scopePrefix scopeVal limit ↔
      (limit > 0 ∧ scopeVal ≠ "") ∧ d = ⟨scopePrefix ++ ":" ++ scopeVal, m, limit, p.window⟩ := by
  rw [Plugin.add]
  split
  · rename_i h
    simp [h]
  · rename_i h
    simp [h]

/-- The dimensions of a request, level by level. -/
theorem mem_dimensions {ctx : Context} {m : Metric} {d : Dimension} (h : d ∈ p.dimensions ctx m) :
    d.window = p.window ∧ d.metric = m ∧
      ((ctx.tenant ≠ "" ∧ d.scope = "tenant:" ++ ctx.tenant) ∨
        ((0 < p.limits.groupRPM ∨ 0 < p.limits.groupTPM) ∧ ctx.group ≠ "" ∧
          d.scope = "group:" ++ ctx.group) ∨
        (ctx.apiKeyID ≠ "" ∧ d.scope = "key:" ++ ctx.apiKeyID)) := by
  cases m with
  | rpm =>
    simp only [Plugin.dimensions, List.mem_append, mem_add] at h
    rcases h with (⟨⟨hlimit, hval⟩, rfl⟩ | ⟨⟨hlimit, hval⟩, rfl⟩) | ⟨⟨hlimit, hval⟩, rfl⟩
    · exact ⟨rfl, rfl, .inl ⟨hval, rfl⟩⟩
    · exact ⟨rfl, rfl, .inr (.inl ⟨.inl hlimit, hval, rfl⟩)⟩
    · exact ⟨rfl, rfl, .inr (.inr ⟨hval, rfl⟩)⟩
  | tpm =>
    simp only [Plugin.dimensions, List.mem_append, mem_add] at h
    rcases h with (⟨⟨hlimit, hval⟩, rfl⟩ | ⟨⟨hlimit, hval⟩, rfl⟩) | ⟨⟨hlimit, hval⟩, rfl⟩
    · exact ⟨rfl, rfl, .inl ⟨hval, rfl⟩⟩
    · exact ⟨rfl, rfl, .inr (.inl ⟨.inr hlimit, hval, rfl⟩)⟩
    · exact ⟨rfl, rfl, .inr (.inr ⟨hval, rfl⟩)⟩

end Turns

/-- The plugin over a limiter stands for the plugin over a ledger, with the turns `rest` to come. -/
structure Follows (p : Plugin) (rest : List Turn) (s : Running MemoryLimiter) (t : Running Ledger) :
    Prop where
  clock : rest.Pairwise fun u u' ↦ u.now ≤ u'.now
  room : Run.Along p.step (fun s u ↦ ∀ c ∈ p.callOf s.checking u, Uncrowded s.limiter c) s rest
  checking : s.checking = t.checking
  sim : ∃ now, Sim (fun _ ↦ p.window) t.limiter now s.limiter ∧ ∀ u ∈ rest, now ≤ u.now

theorem Follows.turn {p : Plugin} {rest : List Turn} {s : Running MemoryLimiter}
    {t : Running Ledger} {u : Turn} (h : Follows p (u :: rest) s t) :
    (p.turn MemoryLimiter.call s u).1 = (p.turn Ledger.call t u).1 ∧
      Follows p rest (p.turn MemoryLimiter.call s u).2 (p.turn Ledger.call t u).2 := by
  obtain ⟨hclock, ⟨hroom, hrest⟩, hchecking, now, hsim, hnow⟩ := h
  obtain ⟨hu, hclock⟩ := List.pairwise_cons.mp hclock
  have hmono := hsim.mono (hnow u (List.mem_cons_self ..))
  obtain ⟨l, checking⟩ := s
  obtain ⟨ledger, _⟩ := t
  obtain rfl : checking = _ := hchecking
  rw [Plugin.step] at hrest
  rw [Plugin.turn] at hrest ⊢
  rw [Plugin.turn]
  cases hcall : p.callOf checking u with
  | none =>
    simp only [hcall] at hrest ⊢
    exact ⟨trivial, hclock, hrest, rfl, u.now, hmono, hu⟩
  | some c =>
    obtain ⟨hcnow, m, hdims⟩ := callOf_eq hcall
    have hwindow : ∀ d ∈ c.dims, d.window = p.window := by
      intro d hd
      rw [hdims] at hd
      exact (mem_dimensions hd).1
    obtain ⟨hanswer, hsim'⟩ := hmono.call (le_of_eq hcnow.symm) hwindow (hroom c hcall)
    simp only [hcall] at hrest ⊢
    rw [hcnow] at hsim'
    refine ⟨hanswer, hclock, hrest, ?_, u.now, hsim', hu⟩
    rw [hanswer]

/-! ## Calls on keys of one's own -/

namespace Ledger

variable {ledger ledger' : Ledger} {now n : Int} {ds : List Dimension} {key : String}

theorem live_congr (h : ledger key = ledger' key) (now dur : Int) :
    ledger.live key now dur = ledger'.live key now dur := by
  rw [live, live, h]

theorem judge_congr (h : ∀ d ∈ ds, ledger d.key = ledger' d.key) :
    ledger.judge now n ds = ledger'.judge now n ds := by
  induction ds with
  | nil => rfl
  | cons d ds ih =>
    obtain ⟨hd, hds⟩ := List.forall_mem_cons.mp h
    rw [judge, judge, live_congr hd, ih hds]

theorem chargeAll_congr (h : ledger key = ledger' key) :
    ledger.chargeAll now n ds key = ledger'.chargeAll now n ds key := by
  rw [chargeAll, chargeAll]
  induction ds generalizing ledger ledger' with
  | nil => exact h
  | cons d ds ih =>
    refine ih ?_
    simp only [charge]
    rw [h]

theorem chargeAll_frame (h : ∀ d ∈ ds, d.key ≠ key) :
    ledger.chargeAll now n ds key = ledger key := by
  rw [chargeAll]
  induction ds generalizing ledger with
  | nil => rfl
  | cons d ds ih =>
    obtain ⟨hd, hds⟩ := List.forall_mem_cons.mp h
    rw [List.foldl_cons, ih hds]
    exact if_neg (Ne.symm hd)

/-- A call reads only the keys of its dimensions. -/
theorem call_congr {c : Call} (h : ∀ d ∈ c.dims, ledger d.key = ledger' d.key) :
    (ledger.call c).1 = (ledger'.call c).1 ∧
      ∀ key, ledger key = ledger' key → (ledger.call c).2 key = (ledger'.call c).2 key := by
  cases c with
  | allow now dims n =>
    have hjudge : ledger.judge now n dims = ledger'.judge now n dims := judge_congr h
    rw [call, call, allow, allow, hjudge]
    cases ledger'.judge now n dims with
    | none =>
      refine ⟨rfl, fun key hkey ↦ ?_⟩
      dsimp only
      split
      · exact chargeAll_congr hkey
      · exact hkey
    | some rejection => exact ⟨rfl, fun _ hkey ↦ hkey⟩
  | debit now dims n =>
    refine ⟨rfl, fun key hkey ↦ ?_⟩
    rw [call, call, debit, debit]
    dsimp only
    split
    · exact hkey
    · exact chargeAll_congr hkey

/-- A call changes only the keys of its dimensions. -/
theorem call_frame {c : Call} (h : ∀ d ∈ c.dims, d.key ≠ key) :
    (ledger.call c).2 key = ledger key := by
  cases c with
  | allow now dims n =>
    rw [call, allow]
    cases ledger.judge now n dims with
    | none =>
      dsimp only
      split
      · exact chargeAll_frame h
      · rfl
    | some rejection => rfl
  | debit now dims n =>
    rw [call, debit]
    dsimp only
    split
    · rfl
    · exact chargeAll_frame h

end Ledger

/-! ## Whose counter it is -/

theorem scope_of_key {d d' : Dimension} (h : d.key = d'.key) : d.scope = d'.scope := by
  have h := congrArg String.toList h
  obtain ⟨scope, m, limit, window⟩ := d
  obtain ⟨scope', m', limit', window'⟩ := d'
  refine String.toList_inj.mp ?_
  cases m with
  | rpm =>
    cases m' with
    | rpm => simpa [Dimension.key, Metric.name] using h
    | tpm => simp [Dimension.key, Metric.name] at h
  | tpm =>
    cases m' with
    | rpm => simp [Dimension.key, Metric.name] at h
    | tpm => simpa [Dimension.key, Metric.name] using h

/-- The counters of a request of the tenant are not those of a request of another, unless they share
a group. -/
theorem Proper.key_ne {p : Plugin} {s : Running MemoryLimiter} {tenant : String} {turns : List Turn}
    (h : Proper p s turns) (hgroups : GroupsApart p tenant turns) {u u' : Turn} (hu : u ∈ turns)
    (hu' : u' ∈ turns) (htenant : u.tenant = tenant) (htenant' : u'.tenant ≠ tenant) {m m' : Metric}
    {d d' : Dimension} (hd : d ∈ p.dimensions u.context m) (hd' : d' ∈ p.dimensions u'.context m') :
    d.key ≠ d'.key := by
  intro hkey
  have hscope := congrArg String.toList (scope_of_key hkey)
  obtain ⟨-, -, hlevel⟩ := mem_dimensions hd
  obtain ⟨-, -, hlevel'⟩ := mem_dimensions hd'
  rcases hlevel with ⟨-, hd⟩ | ⟨hlimit, hgroup, hd⟩ | ⟨hid, hd⟩ <;>
    rcases hlevel' with ⟨-, hd'⟩ | ⟨-, -, hd'⟩ | ⟨-, hd'⟩ <;> rw [hd, hd'] at hscope
  · have hname : u.context.tenant = u'.context.tenant :=
      String.toList_inj.mp (by simpa using hscope)
    exact htenant' (hname.symm.trans htenant)
  · simp at hscope
  · simp at hscope
  · simp at hscope
  · have hname : u.context.group = u'.context.group := String.toList_inj.mp (by simpa using hscope)
    rcases hgroups with hnone | hapart
    · omega
    · exact hapart u hu u' hu' htenant htenant' hgroup hname
  · simp at hscope
  · simp at hscope
  · simp at hscope
  · have hname : u.context.apiKeyID = u'.context.apiKeyID :=
      String.toList_inj.mp (by simpa using hscope)
    exact htenant' ((h.keys u hu u' hu' hid hname).symm.trans htenant)

/-! ## Isolation -/

section Isolation

variable {p : Plugin} {tenant : String} {mine : String → Prop} {turns : List Turn} {u : Turn}

/-- Two states that a tenant cannot tell apart, `mine` being the counters of its requests. -/
structure Alike (tenant : String) (mine : String → Prop) (t t' : Running Ledger) : Prop where
  ledger : ∀ key, mine key → t.limiter key = t'.limiter key
  checking : ∀ c : Context, c.tenant = tenant → (c ∈ t.checking ↔ c ∈ t'.checking)

/-- The counters of a request of the tenant are `mine`, those of other requests are not. -/
structure Owns (p : Plugin) (tenant : String) (mine : String → Prop) (u : Turn) : Prop where
  own : u.tenant = tenant → ∀ m, ∀ d ∈ p.dimensions u.context m, mine d.key
  other : u.tenant ≠ tenant → ∀ m, ∀ d ∈ p.dimensions u.context m, ¬mine d.key

variable {t t' : Running Ledger}

theorem Alike.callOf_eq (h : Alike tenant mine t t') (hu : u.tenant = tenant) :
    p.callOf t.checking u = p.callOf t'.checking u := by
  cases u with
  | rpm c now => rfl
  | tpm c now =>
    rw [Plugin.callOf, Plugin.callOf]
    simp only [h.checking c hu]
  | post c usage now => rfl

theorem Alike.checkingAfter (h : Alike tenant mine t t') (answer : Option Decision) (u : Turn)
    (c : Context) (hc : c.tenant = tenant) :
    c ∈ Plugin.checkingAfter t.checking answer u ↔
      c ∈ Plugin.checkingAfter t'.checking answer u := by
  have hchecking := h.checking c hc
  cases u with
  | rpm c' now =>
    rw [Plugin.checkingAfter, Plugin.checkingAfter]
    split
    · exact hchecking
    · simp [hchecking]
  | tpm c' now => simp [Plugin.checkingAfter, hchecking]
  | post c' usage now => exact hchecking

/-- A turn of another request leaves one's own requests where they are. -/
theorem mem_checkingAfter {checking : List Context} {answer : Option Decision} {c : Context}
    (hne : c ≠ u.context) : c ∈ Plugin.checkingAfter checking answer u ↔ c ∈ checking := by
  cases u with
  | rpm c' now =>
    have hne : c ≠ c' := hne
    rw [Plugin.checkingAfter]
    split
    · exact Iff.rfl
    · simp [hne]
  | tpm c' now =>
    have hne : c ≠ c' := hne
    simp [Plugin.checkingAfter, hne]
  | post c' usage now => exact Iff.rfl

/-- **A turn of the tenant's** has the same answer in both states. -/
theorem Alike.own (h : Alike tenant mine t t') (howns : Owns p tenant mine u)
    (hu : u.tenant = tenant) : (p.turn Ledger.call t u).1 = (p.turn Ledger.call t' u).1 ∧
      Alike tenant mine (p.turn Ledger.call t u).2 (p.turn Ledger.call t' u).2 := by
  have hcallOf := h.callOf_eq (p := p) hu
  rw [Plugin.turn, Plugin.turn, ← hcallOf]
  cases hcall : p.callOf t.checking u with
  | none => exact ⟨rfl, h.ledger, fun c hc ↦ h.checkingAfter none u c hc⟩
  | some c =>
    obtain ⟨-, m, hdims⟩ := Ratelimit.callOf_eq hcall
    have hagree : ∀ d ∈ c.dims, t.limiter d.key = t'.limiter d.key := by
      intro d hd
      rw [hdims] at hd
      exact h.ledger d.key (howns.own hu m d hd)
    obtain ⟨hanswer, hsame⟩ := Ledger.call_congr hagree
    refine ⟨hanswer, fun key hkey ↦ hsame key (h.ledger key hkey), fun c' hc' ↦ ?_⟩
    dsimp only
    rw [hanswer]
    exact h.checkingAfter _ u c' hc'

/-- **A turn of another tenant** cannot be told from none. -/
theorem Alike.other (h : Alike tenant mine t t') (howns : Owns p tenant mine u)
    (hu : u.tenant ≠ tenant) : Alike tenant mine (p.turn Ledger.call t u).2 t' := by
  have hchecking : ∀ (answer : Option Decision) (c : Context), c.tenant = tenant →
      (c ∈ Plugin.checkingAfter t.checking answer u ↔ c ∈ t'.checking) := by
    intro answer c hc
    have hne : c ≠ u.context := by
      rintro rfl
      exact hu hc
    rw [mem_checkingAfter hne]
    exact h.checking c hc
  rw [Plugin.turn]
  cases hcall : p.callOf t.checking u with
  | none => exact ⟨h.ledger, hchecking none⟩
  | some c =>
    obtain ⟨-, m, hdims⟩ := Ratelimit.callOf_eq hcall
    refine ⟨fun key hkey ↦ ?_, hchecking _⟩
    have hframe : ∀ d ∈ c.dims, d.key ≠ key := by
      intro d hd heq
      rw [hdims] at hd
      exact howns.other hu m d hd (heq ▸ hkey)
    dsimp only
    rw [Ledger.call_frame hframe]
    exact h.ledger key hkey

/-- **Over a ledger, the requests of other tenants might as well not be there.** -/
theorem Alike.decisions (h : Alike tenant mine t t') (howns : ∀ u ∈ turns, Owns p tenant mine u) :
    p.decisions Ledger.call tenant t turns =
      p.decisions Ledger.call tenant t' (turns.filter fun u ↦ u.tenant = tenant) := by
  rw [Plugin.decisions, Plugin.decisions]
  induction turns generalizing t t' with
  | nil => rfl
  | cons u turns ih =>
    obtain ⟨hu, hturns⟩ := List.forall_mem_cons.mp howns
    by_cases htenant : u.tenant = tenant
    · obtain ⟨hanswer, hnext⟩ := h.own hu htenant
      rw [List.filter_cons_of_pos (by simpa using htenant), Run.answers, Run.answers,
        List.zip_cons_cons, List.zip_cons_cons, List.filter_cons_of_pos (by simpa using htenant),
        List.filter_cons_of_pos (by simpa using htenant), hanswer, ih hnext hturns]
    · rw [List.filter_cons_of_neg (by simpa using htenant), Run.answers, List.zip_cons_cons,
        List.filter_cons_of_neg (by simpa using htenant), ih (h.other hu htenant) hturns]

end Isolation

/-! ## The theorem -/

/-- The plugin over a limiter that has not been used. -/
def idle (maxCounters : Nat) (idleTTL : Int) : Running MemoryLimiter :=
  ⟨newMemoryLimiter maxCounters idleTTL, []⟩

/-- The key of a window that a request of the tenant uses. -/
def Plugin.KeyOf (p : Plugin) (tenant : String) (turns : List Turn) (key : String) : Prop :=
  ∃ u ∈ turns, u.tenant = tenant ∧ ∃ m, ∃ d ∈ p.dimensions u.context m, d.key = key

/-- The decisions of a run are those that the ledger gives to the tenant's requests on their own. -/
theorem Proper.decisions {p : Plugin} {tenant : String} {maxCounters : Nat} {idleTTL : Int}
    {turns : List Turn} (h : Proper p (idle maxCounters idleTTL) turns)
    (hgroups : GroupsApart p tenant turns) :
    p.decisions MemoryLimiter.call tenant (idle maxCounters idleTTL) turns =
      p.decisions Ledger.call tenant ⟨fun _ ↦ [], []⟩ (turns.filter fun u ↦ u.tenant = tenant) := by
  have hstart : Follows p turns (idle maxCounters idleTTL) ⟨fun _ ↦ [], []⟩ := by
    refine ⟨h.clock, h.room, rfl, ?_⟩
    cases turns with
    | nil => exact ⟨0, sim_new 0, by simp⟩
    | cons u turns =>
      refine ⟨u.now, sim_new u.now, List.forall_mem_cons.mpr ⟨le_refl _, ?_⟩⟩
      exact (List.pairwise_cons.mp h.clock).1
  have hanswers : Run.answers (p.turn MemoryLimiter.call) (idle maxCounters idleTTL) turns =
      Run.answers (p.turn Ledger.call) ⟨fun _ ↦ [], []⟩ turns :=
    Run.answers_eq (Follows p) (fun _ _ _ _ h ↦ h.turn) hstart
  have howns : ∀ u ∈ turns, Owns p tenant (p.KeyOf tenant turns) u := by
    intro u hu
    refine ⟨fun htenant m d hd ↦ ⟨u, hu, htenant, m, d, hd, rfl⟩, ?_⟩
    rintro htenant m d hd ⟨u', hu', htenant', m', d', hd', hkey⟩
    exact h.key_ne hgroups hu' hu htenant' htenant hd' hd hkey
  rw [Plugin.decisions, hanswers]
  exact Alike.decisions ⟨fun _ _ ↦ rfl, fun _ _ ↦ Iff.rfl⟩ howns

/-- **Isolation of tenants.**  Two runs of the plugin that agree on the requests of a tenant, and in
which no other tenant shares a group with it, give its requests the same decisions, down to the time
to wait. -/
theorem tenant_isolation (limits : Limits) (tenant : String) (maxCounters : Nat) (idleTTL : Int)
    (turns turns' : List Turn)
    (hsame : turns.filter (fun u ↦ u.tenant = tenant) = turns'.filter fun u ↦ u.tenant = tenant)
    (hproper : Proper (newPlugin limits) (idle maxCounters idleTTL) turns)
    (hproper' : Proper (newPlugin limits) (idle maxCounters idleTTL) turns')
    (hgroups : GroupsApart (newPlugin limits) tenant turns)
    (hgroups' : GroupsApart (newPlugin limits) tenant turns') :
    (newPlugin limits).decisions MemoryLimiter.call tenant (idle maxCounters idleTTL) turns =
      (newPlugin limits).decisions MemoryLimiter.call tenant (idle maxCounters idleTTL) turns' := by
  rw [hproper.decisions hgroups, hproper'.decisions hgroups', hsame]

section Samples

/-- A limit of one request a minute for each group. -/
def oneForGroups : Limits := ⟨0, 0, 1, 0, 0, 0, 0⟩

/-- A request of the tenant `acme`, and one of another tenant. -/
def acme : Context := ⟨0, "acme", "core", "k1"⟩

def globex (group : String) : Context := ⟨1, "globex", group, "k2"⟩

theorem proper_acme : Proper (newPlugin oneForGroups) (idle 10 600) [.rpm acme 5] :=
  ⟨by decide, by decide, by decide⟩

theorem proper_globex (group : String) (h : group = "core" ∨ group = "ops") :
    Proper (newPlugin oneForGroups) (idle 10 600) [.rpm (globex group) 0, .rpm acme 5] := by
  rcases h with rfl | rfl
  · exact ⟨by decide, by decide, by decide⟩
  · exact ⟨by decide, by decide, by decide⟩

theorem tenant_isolation_sample :
    (newPlugin oneForGroups).decisions MemoryLimiter.call "acme" (idle 10 600) [.rpm acme 5] =
      (newPlugin oneForGroups).decisions MemoryLimiter.call "acme" (idle 10 600)
        [.rpm (globex "ops") 0, .rpm acme 5] :=
  tenant_isolation oneForGroups "acme" 10 600 [.rpm acme 5] [.rpm (globex "ops") 0, .rpm acme 5]
    (by decide) proper_acme (proper_globex "ops" (.inr rfl)) (.inr (by decide)) (.inr (by decide))

/-- A tenant that has a group of the same name uses up the requests of the other. -/
theorem tenants_share_group :
    ¬∀ (limits : Limits) (tenant : String) (maxCounters : Nat) (idleTTL : Int)
      (turns turns' : List Turn),
      turns.filter (fun u ↦ u.tenant = tenant) = turns'.filter (fun u ↦ u.tenant = tenant) →
      Proper (newPlugin limits) (idle maxCounters idleTTL) turns →
      Proper (newPlugin limits) (idle maxCounters idleTTL) turns' →
      (newPlugin limits).decisions MemoryLimiter.call tenant (idle maxCounters idleTTL) turns =
        (newPlugin limits).decisions MemoryLimiter.call tenant
        (idle maxCounters idleTTL) turns' := by
  intro hall
  have h := hall oneForGroups "acme" 10 600 [.rpm acme 5] [.rpm (globex "core") 0, .rpm acme 5]
    (by decide) proper_acme (proper_globex "core" (.inl rfl))
  have halone : (newPlugin oneForGroups).decisions MemoryLimiter.call "acme" (idle 10 600)
      [.rpm acme 5] = [(.rpm acme 5, some ⟨true, 0, ""⟩)] := by decide
  have hshared : (newPlugin oneForGroups).decisions MemoryLimiter.call "acme" (idle 10 600)
      [.rpm (globex "core") 0, .rpm acme 5] =
        [(.rpm acme 5, some ⟨false, 59999999995, "group:core"⟩)] := by decide
  rw [halone, hshared] at h
  cases h

end Samples

end Ratelimit

end Voxeltoad
