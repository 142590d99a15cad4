import Voxeltoad.Ratelimit.Limiter

/-!
# Calls of the limiter

A call of the limiter looks at its dimensions in turn, may charge them, and may evict.  `stops` says
how far an `Allow` gets, and `Charging` when a call charges at all.  `Updates` and `Evicts` say what
the two parts of a call do to a property of the limiter, one change of a window at a time;
`step_lasts` puts them together.
-/

set_option autoImplicit false

namespace Voxeltoad

namespace Ratelimit

/-- A call of the limiter, with the instant it reads off the clock. -/
inductive Call where
  | allow (now : Int) (dims : List Dimension) (n : Int)
  | debit (now : Int) (dims : List Dimension) (n : Int)
  deriving DecidableEq, Repr

namespace Call

def now : Call → Int
  | .allow now _ _ => now
  | .debit now _ _ => now

def dims : Call → List Dimension
  | .allow _ dims _ => dims
  | .debit _ dims _ => dims

def cost : Call → Int
  | .allow _ _ n => n
  | .debit _ _ n => n

end Call

namespace MemoryLimiter

/-- A call, with `evict` for the eviction at its end. -/
def callWith (evict : MemoryLimiter → Int → MemoryLimiter) (l : MemoryLimiter) :
    Call → Option Decision × MemoryLimiter
  | .allow now dims n => ((some (l.allowWith evict now dims n).1), (l.allowWith evict now dims n).2)
  | .debit now dims n => (none, l.debitWith evict now dims n)

/-- A call of the limiter. -/
def call (l : MemoryLimiter) : Call → Option Decision × MemoryLimiter
  | .allow now dims n => (some (l.allow now dims n).1, (l.allow now dims n).2)
  | .debit now dims n => (none, l.debit now dims n)

theorem call_eq : call = callWith evictIfNeeded := by
  funext l c
  cases c <;> rfl

/-- Only a call that goes through evicts, and it has been answered by then. -/
theorem callWith_eq (l : MemoryLimiter) (evict : MemoryLimiter → Int → MemoryLimiter) (c : Call) :
    (l.callWith evict c).1 = (l.callWith (fun l _ ↦ l) c).1 ∧
      ((l.callWith evict c).2 = (l.callWith (fun l _ ↦ l) c).2 ∨
        (l.callWith evict c).2 = evict (l.callWith (fun l _ ↦ l) c).2 c.now) := by
  cases c with
  | allow now dims n =>
    simp only [callWith]
    rw [allowWith_eq]
    refine ⟨rfl, ?_⟩
    dsimp only
    split
    · exact .inr rfl
    · exact .inl rfl
  | debit now dims n =>
    simp only [callWith]
    rw [debitWith_eq]
    refine ⟨trivial, ?_⟩
    split
    · exact .inl rfl
    · exact .inr rfl

/-- The limiter after a call. -/
def step (l : MemoryLimiter) (c : Call) : MemoryLimiter := (l.call c).2

/-! ## How far `Allow` gets -/

/-- The window of a dimension, brought up to date. -/
def pruned (l : MemoryLimiter) (d : Dimension) (now : Int) : Window :=
  (l.resolved d now).prune now d.window

/-- Resolve the windows of dimensions. -/
def resolveAll (now : Int) (dims : List Dimension) (l : MemoryLimiter) : MemoryLimiter :=
  dims.foldl (fun l d ↦ l.resolve d now) l

/-- Where `Allow` stops: the dimensions that had room, and the first one that has none. -/
def stops (now n : Int) : List Dimension → MemoryLimiter → Option (List Dimension × Dimension)
  | [], _ => none
  | d :: ds, l =>
    if int64 ((l.pruned d now).sum + n) > d.limit then some ([], d)
    else (stops now n ds (l.resolve d now)).map fun stop ↦ (d :: stop.1, stop.2)

/-- Does a call charge its dimensions? -/
def Charging (l : MemoryLimiter) : Call → Prop
  | .allow now dims n => stops now n dims l = none ∧ 0 < n
  | .debit _ _ n => n ≠ 0

variable {l : MemoryLimiter} {now n : Int} {ds : List Dimension}

@[simp] theorem pruned_key (l : MemoryLimiter) (d : Dimension) (now : Int) :
    (l.pruned d now).key = d.key :=
  l.resolved_key d now

theorem resolve_put (l : MemoryLimiter) (d : Dimension) (now : Int) :
    Put l (l.pruned d now) (l.resolve d now) :=
  update_put (f := fun w ↦ { w with dur := d.window }.prune now d.window) d.key now fun _ ↦ rfl

theorem resolve_find (l : MemoryLimiter) (d : Dimension) (now : Int) :
    (l.resolve d now).find d.key = some (l.pruned d now) := by
  rw [(l.resolve_put d now).find, if_pos (l.pruned_key d now)]

theorem allowLoop_cons (l : MemoryLimiter) (d : Dimension) (ds : List Dimension) (now n : Int) :
    l.allowLoop now n (d :: ds) =
      if int64 ((l.pruned d now).sum + n) > d.limit then
        (l.resolve d now, some ⟨false,
          retryAfter (l.pruned d now).events (l.pruned d now).sum now d.window n d.limit, d.scope⟩)
      else (l.resolve d now).allowLoop now n ds := by
  simp only [allowLoop, l.resolve_find d now]

/-- `Allow` goes through when no dimension stops it. -/
theorem allowLoop_of_none (h : stops now n ds l = none) :
    l.allowLoop now n ds = (resolveAll now ds l, none) := by
  induction ds generalizing l with
  | nil => rfl
  | cons d ds ih =>
    rw [stops] at h
    rw [allowLoop_cons]
    split at h
    · cases h
    · rename_i hroom
      rw [if_neg hroom, ih (Option.map_eq_none_iff.mp h)]
      rfl

/-- **Where `Allow` stops** is where it has got to, and what it answers from. -/
theorem allowLoop_of_some {pre : List Dimension} {d : Dimension}
    (h : stops now n ds l = some (pre, d)) :
    l.allowLoop now n ds = (resolveAll now (pre ++ [d]) l, some ⟨false,
      retryAfter ((resolveAll now pre l).pruned d now).events
        ((resolveAll now pre l).pruned d now).sum now d.window n d.limit, d.scope⟩) := by
  induction ds generalizing l pre with
  | nil => cases h
  | cons d' ds ih =>
    rw [stops] at h
    rw [allowLoop_cons]
    split at h
    · rename_i hfull
      obtain ⟨rfl, rfl⟩ := Prod.mk.inj (Option.some.inj h)
      rw [if_pos hfull]
      rfl
    · rename_i hroom
      obtain ⟨⟨pre', d''⟩, hstop, heq⟩ := Option.map_eq_some_iff.mp h
      obtain ⟨rfl, rfl⟩ := Prod.mk.inj heq
      rw [if_neg hroom, ih hstop]
      rfl

/-- What it has looked at by then, it was asked to look at; and it stops for want of room. -/
theorem stops_spec {pre : List Dimension} {d : Dimension} (h : stops now n ds l = some (pre, d)) :
    pre ++ [d] ⊆ ds ∧ d.limit < int64 (((resolveAll now pre l).pruned d now).sum + n) := by
  induction ds generalizing l pre with
  | nil => cases h
  | cons d' ds ih =>
    rw [stops] at h
    split at h
    · rename_i hfull
      obtain ⟨rfl, rfl⟩ := Prod.mk.inj (Option.some.inj h)
      exact ⟨by simp, hfull⟩
    · obtain ⟨⟨pre', d''⟩, hstop, heq⟩ := Option.map_eq_some_iff.mp h
      obtain ⟨rfl, rfl⟩ := Prod.mk.inj heq
      obtain ⟨hsub, hfull⟩ := ih hstop
      exact ⟨List.cons_subset_cons d' hsub, hfull⟩

end MemoryLimiter

/-! ## What a call is made of -/

section Parts

variable {l l₀ : MemoryLimiter} {c : Call} {now : Int} {P : MemoryLimiter → Prop}

/-- A property that outlasts what a call of `l₀` does to the windows of its dimensions.  Each is
brought up to date, or charged if the call charges. -/
structure Updates (l₀ : MemoryLimiter) (c : Call) (P : MemoryLimiter → Prop) : Prop where
  prune : ∀ {l l' : MemoryLimiter} {d : Dimension}, P l → d ∈ c.dims →
    Put l (l.pruned d c.now) l' → P l'
  charge : l₀.Charging c → ∀ {l l' : MemoryLimiter} {d : Dimension} {w : Window}, P l → d ∈ c.dims →
    w.key = d.key → w.events = (l.current d.key).events → w.sum = (l.current d.key).sum →
    Put l (w.charge c.now c.cost) l' → P l'

/-- A property that outlasts an eviction: windows are brought up to date, or go. -/
structure Evicts (now : Int) (P : MemoryLimiter → Prop) : Prop where
  prune : ∀ {l l' : MemoryLimiter} {w : Window}, P l → l.find w.key = some w →
    Put l (w.prune now w.dur) l' → P l'
  remove : ∀ {l : MemoryLimiter} (key : String), P l → P (l.removeElem key)

namespace Updates

variable {ds : List Dimension}

theorem resolveAll (h : Updates l₀ c P) (hl : P l) (hds : ds ⊆ c.dims) :
    P (MemoryLimiter.resolveAll c.now ds l) := by
  induction ds generalizing l with
  | nil => exact hl
  | cons d ds ih =>
    obtain ⟨hd, hds⟩ := List.cons_subset.mp hds
    exact ih (h.prune hl hd (l.resolve_put d c.now)) hds

theorem chargeAll (h : Updates l₀ c P) (hcharging : l₀.Charging c) (hl : P l) (hds : ds ⊆ c.dims) :
    P (l.chargeAll c.now c.cost ds) := by
  induction ds generalizing l with
  | nil => exact hl
  | cons d ds ih =>
    obtain ⟨hd, hds⟩ := List.cons_subset.mp hds
    have hmodify : P (l.modify d.key fun w ↦ w.charge c.now c.cost) := by
      cases hfind : l.find d.key with
      | none =>
        rw [MemoryLimiter.modify, Table.modify_of_absent (Table.find_eq_none_iff.mp hfind)]
        exact hl
      | some w =>
        have hcurrent :
          l.current d.key = w := by rw [MemoryLimiter.current, hfind, Option.getD_some]
        have hput :=
          MemoryLimiter.modify_put (f := fun w ↦ w.charge c.now c.cost) (fun _ ↦ rfl) hfind
        exact h.charge hcharging hl hd (MemoryLimiter.find_key hfind) (by rw [hcurrent])
          (by rw [hcurrent]) hput
    exact ih hmodify hds

theorem debitLoop (h : Updates l₀ c P) (hcharging : l₀.Charging c) (hl : P l) (hds : ds ⊆ c.dims) :
    P (l.debitLoop c.now c.cost ds) := by
  induction ds generalizing l with
  | nil => exact hl
  | cons d ds ih =>
    obtain ⟨hd, hds⟩ := List.cons_subset.mp hds
    have hput : Put l ((l.resolved d c.now).charge c.now c.cost) (l.record c.cost c.now d) :=
      MemoryLimiter.update_put (f := fun w ↦ { w with dur := d.window }.charge c.now c.cost) d.key
        c.now fun _ ↦ rfl
    exact ih (h.charge hcharging hl hd (l.resolved_key d c.now) rfl rfl hput) hds

/-- A call up to the eviction. -/
theorem callWith (h : Updates l₀ c P) (hl : P l₀) : P (l₀.callWith (fun l _ ↦ l) c).2 := by
  cases c with
  | allow now dims n =>
    rw [MemoryLimiter.callWith, MemoryLimiter.allowWith]
    cases hstop : MemoryLimiter.stops now n dims l₀ with
    | none =>
      have hloop := h.resolveAll hl (List.Subset.refl dims)
      rw [MemoryLimiter.allowLoop_of_none hstop]
      dsimp only
      split
      · rename_i hn
        exact h.chargeAll ⟨hstop, hn⟩ hloop (List.Subset.refl dims)
      · exact hloop
    | some stop =>
      rw [MemoryLimiter.allowLoop_of_some hstop]
      exact h.resolveAll hl (MemoryLimiter.stops_spec hstop).1
  | debit now dims n =>
    rw [MemoryLimiter.callWith, MemoryLimiter.debitWith]
    split
    · exact hl
    · rename_i hn
      exact h.debitLoop hn hl (List.Subset.refl dims)

end Updates

namespace Evicts

theorem sweepLoop (h : Evicts now P) (hl : P l) (keys : List String) :
    P (l.sweepLoop now keys) := by
  induction keys generalizing l with
  | nil => exact hl
  | cons key keys ih =>
    rw [MemoryLimiter.sweepLoop]
    split
    · exact hl
    · rename_i w hfind
      have hprune : P (l.modify key fun w ↦ w.prune now w.dur) := by
        have hput := MemoryLimiter.modify_put (f := fun w ↦ w.prune now w.dur) (fun _ ↦ rfl) hfind
        exact h.prune hl (by rw [MemoryLimiter.find_key hfind, hfind]) hput
      split
      · exact hl
      · dsimp only
        split
        · exact hprune
        · exact ih (h.remove key hprune)

theorem capacityLoop (h : Evicts now P) (hl : P l) (keys : List String) :
    P (l.capacityLoop keys) := by
  induction keys generalizing l with
  | nil => exact hl
  | cons key keys ih =>
    rw [MemoryLimiter.capacityLoop]
    split
    · exact ih (h.remove key hl)
    · exact hl

theorem evictIfNeeded (h : Evicts now P) (hl : P l) : P (l.evictIfNeeded now) :=
  h.capacityLoop (h.sweepLoop hl _) _

end Evicts

/-- **A whole call**: what its two parts keep, it keeps. -/
theorem step_lasts {Q : MemoryLimiter → Prop} (hupdates : Updates l c P) (hevicts : Evicts c.now Q)
    (hPQ : ∀ {l}, P l → Q l) (hl : P l) : Q (l.step c) := by
  have hcall : Q (l.callWith (fun l _ ↦ l) c).2 := hPQ (hupdates.callWith hl)
  rw [MemoryLimiter.step, MemoryLimiter.call_eq]
  rcases (l.callWith_eq MemoryLimiter.evictIfNeeded c).2 with heq | heq
  · exact heq ▸ hcall
  · exact heq ▸ hevicts.evictIfNeeded hcall

/-- A property that outlasts every change of a window, of one of the `keys` or of a key that has one
already, and every removal. -/
structure Closed (keys : List String) (P : MemoryLimiter → Prop) : Prop where
  put : ∀ {l l' : MemoryLimiter} {w : Window}, P l → Put l w l' →
    w.key ∈ keys ∨ (l.find w.key).isSome → P l'
  remove : ∀ {l : MemoryLimiter} (key : String), P l → P (l.removeElem key)

namespace Closed

variable {keys : List String}

theorem updates (h : Closed keys P) (hc : ∀ d ∈ c.dims, d.key ∈ keys) : Updates l₀ c P where
  prune hl hd hput := h.put hl hput (.inl (MemoryLimiter.pruned_key .. ▸ hc _ hd))
  charge _ _ _ _ _ hl hd hkey _ _ hput := h.put hl hput (.inl (hkey ▸ hc _ hd))

theorem evicts (h : Closed keys P) (now : Int) : Evicts now P where
  prune hl hfind hput := h.put hl hput (.inr (Option.isSome_iff_exists.mpr ⟨_, hfind⟩))
  remove := h.remove

end Closed

end Parts

end Ratelimit

end Voxeltoad
