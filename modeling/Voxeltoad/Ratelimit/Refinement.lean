import Voxeltoad.Lib.Run
import Voxeltoad.Ratelimit.Calls

/-!
# The limiter refines the plain sliding window

The plain sliding window keeps every charge for ever and adds up, at each `Allow`, what was charged
to a key in the half-open window that ends now (`slidingWindow`).  The limiter prunes lazily, caches
sums, sweeps and returns early; over a run of calls it answers the same.

It does so as long as no sum leaves the range of Go's `int` (`NoOverflow`).  Nothing in the limiter
checks that: a window whose sum has wrapped is below every limit.
-/

set_option autoImplicit false

namespace Voxeltoad

namespace Ratelimit

/-- What a limiter without the idle sweep evicts. -/
def MemoryLimiter.evictUnswept (l : MemoryLimiter) (_ : Int) : MemoryLimiter := l.capacity

/-! ## The plain sliding window -/

/-- What was charged to a key in `(now - dur, now]`. -/
def windowSum (charges : Ledger) (key : String) (now dur : Int) : Int :=
  total ((charges key).filter fun ev ↦ now - dur < ev.time ∧ ev.time ≤ now)

/-- **The plain sliding window.** -/
def slidingWindow (charges : Ledger) : Call → Option Bool × Ledger
  | .allow now dims n =>
    if ∀ d ∈ dims, windowSum charges d.key now d.window + n ≤ d.limit then
      (some true, charges.chargeAll now n dims)
    else (some false, charges)
  | .debit now dims n => (none, charges.chargeAll now n dims)

/-! ## Overflow -/

/-- The dimensions are looked at in turn, up to the first one without room.  None of the sums that
are formed is out of range. -/
def NoOverflow.Allow (l : MemoryLimiter) (now n : Int) : List Dimension → Prop
  | [] => True
  | d :: ds =>
    let sum := total ((l.events d.key).filter fun ev ↦ now - d.window < ev.time)
    sum + n < 2 ^ 63 ∧ (sum + n ≤ d.limit → NoOverflow.Allow l now n ds)

/-- **No sum leaves the range of `int`**, in a call of the limiter `l`.  `Debit` adds to what is
stored: it does not prune. -/
def NoOverflow (l : MemoryLimiter) : Call → Prop
  | .allow now dims n => NoOverflow.Allow l now n dims
  | .debit _ dims n => ∀ d ∈ dims, total (l.events d.key) + n < 2 ^ 63

instance NoOverflow.decidableAllow (l : MemoryLimiter) (now n : Int) :
    ∀ ds, Decidable (NoOverflow.Allow l now n ds)
  | [] => .isTrue trivial
  | _ :: ds =>
    have := NoOverflow.decidableAllow l now n ds
    inferInstanceAs (Decidable (_ ∧ (_ → _)))

instance (l : MemoryLimiter) : ∀ c, Decidable (NoOverflow l c)
  | .allow now dims n => inferInstanceAs (Decidable (NoOverflow.Allow l now n dims))
  | .debit _ dims n => inferInstanceAs (Decidable (∀ d ∈ dims, total (l.events d.key) + n < 2 ^ 63))

/-! ## Consistency -/

/-- **The state of a limiter is consistent**: every counter's sum is the sum of its events, and the
counter map and the LRU list hold the same keys, once each. -/
structure Consistent (l : MemoryLimiter) : Prop where
  sum : ∀ w ∈ l.counters, w.sum = total w.events
  counters : (l.counters.map Window.key).Nodup
  lru : l.lru.Nodup
  same : ∀ key, key ∈ l.lru ↔ key ∈ l.counters.map Window.key

/-! ## What a call does to the events that are stored -/

/-- Every key has lost some of its oldest events. -/
def Shrinks (l l' : MemoryLimiter) : Prop := ∀ key, l'.events key <:+ l.events key

theorem Shrinks.refl (l : MemoryLimiter) : Shrinks l l := fun _ ↦ List.suffix_refl _

theorem Shrinks.trans {l l' l'' : MemoryLimiter} (h : Shrinks l l') (h' : Shrinks l' l'') :
    Shrinks l l'' :=
  fun key ↦ (h' key).trans (h key)

/-- An event has been added for each of the keys. -/
def Grows (keys : List String) (ev : Event) (l l' : MemoryLimiter) : Prop :=
  ∀ key, l'.events key = if key ∈ keys then l.events key ++ [ev] else l.events key

theorem pruneLoop_fst (cutoff : Int) (evs : List Event) (sum : Int) :
    (pruneLoop cutoff evs sum).1 = evs.dropWhile fun ev ↦ ev.time ≤ cutoff := by
  induction evs generalizing sum with
  | nil => rfl
  | cons ev evs ih =>
    rw [pruneLoop, List.dropWhile_cons]
    split
    · rename_i hle
      rw [ih, if_pos (by simpa using hle)]
    · rename_i hlive
      rw [if_neg (by simpa using hlive)]

theorem pruneLoop_suffix (cutoff : Int) (evs : List Event) (sum : Int) :
    (pruneLoop cutoff evs sum).1 <:+ evs := by
  rw [pruneLoop_fst]
  exact List.dropWhile_suffix _

theorem Put.shrinks {l l' : MemoryLimiter} {w : Window} (h : Put l w l')
    (hw : w.events <:+ l.events w.key) : Shrinks l l' := by
  intro key
  rw [h.events]
  split
  · rename_i heq
    rw [← heq]
    exact hw
  · exact List.suffix_refl _

namespace MemoryLimiter

variable {l : MemoryLimiter} {now n : Int}

theorem resolve_shrinks (l : MemoryLimiter) (d : Dimension) (now : Int) :
    Shrinks l (l.resolve d now) := by
  refine (l.resolve_put d now).shrinks ?_
  rw [l.pruned_key d now]
  exact pruneLoop_suffix ..

theorem resolveAll_shrinks (l : MemoryLimiter) (now : Int) (ds : List Dimension) :
    Shrinks l (resolveAll now ds l) := by
  induction ds generalizing l with
  | nil => exact Shrinks.refl l
  | cons d ds ih => exact (l.resolve_shrinks d now).trans (ih _)

theorem allowLoop_shrinks (l : MemoryLimiter) (now n : Int) (ds : List Dimension) :
    Shrinks l (l.allowLoop now n ds).1 := by
  cases hstop : stops now n ds l with
  | none =>
    rw [allowLoop_of_none hstop]
    exact l.resolveAll_shrinks now ds
  | some stop =>
    rw [allowLoop_of_some hstop]
    exact l.resolveAll_shrinks now _

theorem removeElem_current (l : MemoryLimiter) (key j : String) :
    (l.removeElem key).current j = if key = j then ⟨j, [], 0, 0, 0⟩ else l.current j := by
  rw [current, current, removeElem_find]
  split <;> rfl

theorem removeElem_shrinks (l : MemoryLimiter) (key : String) : Shrinks l (l.removeElem key) := by
  intro j
  rw [events, removeElem_current]
  split
  · exact List.nil_suffix
  · exact List.suffix_refl _

theorem evicts_shrinks (l₀ : MemoryLimiter) (now : Int) : Evicts now (Shrinks l₀) where
  prune h hfind hput := by
    refine h.trans (hput.shrinks ?_)
    exact events_of_find hfind ▸ pruneLoop_suffix ..
  remove key h := h.trans (removeElem_shrinks _ key)

theorem evictIfNeeded_shrinks (l : MemoryLimiter) (now : Int) : Shrinks l (l.evictIfNeeded now) :=
  (l.evicts_shrinks now).evictIfNeeded (Shrinks.refl l)

/-- A window is charged. -/
theorem charge_grows {l' : MemoryLimiter} {w : Window} (hput : Put l (w.charge now n) l')
    (hw : w.events = l.events w.key) : Grows [w.key] ⟨now, n⟩ l l' := by
  intro key
  rw [hput.events]
  by_cases heq : w.key = key
  · subst heq
    simp [Window.charge, hw]
  · simp [Window.charge, heq, Ne.symm heq]

/-- Steps that each add an event for one key add it for all of them. -/
theorem foldl_grows {f : MemoryLimiter → Dimension → MemoryLimiter} {P : MemoryLimiter → Prop}
    {ev : Event} {ds : List Dimension}
    (hf : ∀ l, P l → ∀ d ∈ ds, P (f l d) ∧ Grows [d.key] ev l (f l d))
    (hds : (ds.map Dimension.key).Nodup) (hl : P l) :
    Grows (ds.map Dimension.key) ev l (ds.foldl f l) := by
  induction ds generalizing l with
  | nil => exact fun key ↦ rfl
  | cons d ds ih =>
    obtain ⟨hd, hds⟩ := List.nodup_cons.mp hds
    obtain ⟨hP, hgrows⟩ := hf l hl d (List.mem_cons_self ..)
    intro key
    rw [List.foldl_cons, ih (fun l hl d hd ↦ hf l hl d (List.mem_cons_of_mem _ hd)) hds hP,
      hgrows key]
    by_cases heq : key = d.key
    · rw [heq, if_neg hd]
      simp
    · simp [heq]

theorem chargeAll_grows {ds : List Dimension} (hds : (ds.map Dimension.key).Nodup)
    (hfind : ∀ d ∈ ds, (l.find d.key).isSome) (now n : Int) :
    Grows (ds.map Dimension.key) ⟨now, n⟩ l (l.chargeAll now n ds) := by
  refine foldl_grows (P := fun l ↦ ∀ d ∈ ds, (l.find d.key).isSome) ?_ hds hfind
  intro l hl d hd
  obtain ⟨w, hw⟩ := Option.isSome_iff_exists.mp (hl d hd)
  have hput := modify_put (f := fun w ↦ w.charge now n) (fun _ ↦ rfl) hw
  refine ⟨fun d' hd' ↦ hput.find_isSome (.inr (hl d' hd')), ?_⟩
  have hkey := find_key hw
  rw [← hkey]
  exact charge_grows (hkey ▸ hput) (by rw [hkey, events_of_find hw])

theorem debitLoop_grows {ds : List Dimension} (hds : (ds.map Dimension.key).Nodup) (now n : Int) :
    Grows (ds.map Dimension.key) ⟨now, n⟩ l (l.debitLoop now n ds) := by
  refine foldl_grows (P := fun _ ↦ True) ?_ hds trivial
  intro l _ d _
  have hkey : (l.resolved d now).key = d.key := l.resolved_key d now
  have hput : Put l ((l.resolved d now).charge now n) (l.record n now d) :=
    update_put (f := fun w ↦ { w with dur := d.window }.charge now n) d.key now fun _ ↦ rfl
  refine ⟨trivial, ?_⟩
  rw [← hkey]
  exact charge_grows hput (by rw [hkey]; rfl)

end MemoryLimiter

/-! ## A bound on the keys -/

/-- There is room for a counter for each of the `keys`, and there are no others. -/
structure Bounded (keys : List String) (l : MemoryLimiter) : Prop where
  room : keys.length ≤ l.maxCounters
  within : ∀ key, (l.find key).isSome → key ∈ keys

theorem closed_bounded (keys : List String) : Closed keys (Bounded keys) := by
  refine ⟨?_, ?_⟩
  · rintro l l' w ⟨hroom, hwithin⟩ hput hkey
    refine ⟨hput.maxCounters ▸ hroom, fun key hfind ↦ ?_⟩
    rw [hput.find] at hfind
    split at hfind
    · rename_i heq
      rw [← heq]
      exact hkey.elim id (hwithin w.key)
    · exact hwithin key hfind
  · rintro l key ⟨hroom, hwithin⟩
    refine ⟨hroom, fun j hfind ↦ ?_⟩
    rw [MemoryLimiter.removeElem_find] at hfind
    split at hfind
    · cases hfind
    · exact hwithin j hfind

/-- **The capacity bound is not reached.** -/
theorem Bounded.length_le {keys : List String} {l : MemoryLimiter} (h : Bounded keys l)
    (hlinked : Linked l) : l.counters.length ≤ l.maxCounters := by
  have hsub : l.counters.map Window.key ⊆ keys := by
    intro key hkey
    obtain ⟨w, hw, rfl⟩ := List.mem_map.mp hkey
    exact h.within w.key (Table.find_isSome_iff.mpr ⟨w, hw, rfl⟩)
  calc l.counters.length = (l.counters.map Window.key).length := (List.length_map _).symm
    _ ≤ keys.length := (List.Nodup.subperm hlinked.1 hsub).length_le
    _ ≤ l.maxCounters := h.room

/-! ## One call of the limiter and one of the ledger -/

/-- A call on the ledger, as the limiter computes it. -/
def Ledger.call (ledger : Ledger) : Call → Option Decision × Ledger
  | .allow now dims n => (some (ledger.allow now dims n).1, (ledger.allow now dims n).2)
  | .debit now dims n => (none, ledger.debit now dims n)

section Calls

variable {windowOf : String → Int} {ledger : Ledger} {now : Int} {l : MemoryLimiter}
  {keys : List String} {c : Call}

/-- **The limiter does what the ledger does**, up to the eviction. -/
theorem Sim.callWith (h : Sim windowOf ledger now l) (hnow : now ≤ c.now)
    (hwindow : ∀ d ∈ c.dims, d.window = windowOf d.key) :
    (l.callWith (fun l _ ↦ l) c).1 = (ledger.call c).1 ∧
      Sim windowOf (ledger.call c).2 c.now (l.callWith (fun l _ ↦ l) c).2 := by
  have hmono := h.mono hnow
  cases c with
  | allow now dims n =>
    obtain ⟨hdecision, hsim⟩ := hmono.allowWith hwindow n
    exact ⟨congrArg some hdecision, hsim⟩
  | debit now dims n => exact ⟨rfl, hmono.debitWith hwindow n⟩

/-- With a bound on the keys, both evictions drop nothing that is live. -/
theorem Sim.evict_bounded (h : Sim windowOf ledger now l) (hbounded : Bounded keys l) :
    Sim windowOf ledger now (l.evictIfNeeded now) ∧ Bounded keys (l.evictIfNeeded now) ∧
      Sim windowOf ledger now (l.evictUnswept now) ∧ Bounded keys (l.evictUnswept now) := by
  have hsweep : Bounded keys (l.sweep now) :=
    ((closed_bounded keys).evicts now).sweepLoop hbounded _
  have hroom := hsweep.length_le (h.sweepLoop l.lru.reverse).linked
  refine ⟨h.evictIfNeeded hroom, ?_, ?_, ?_⟩
  · rw [MemoryLimiter.evictIfNeeded, MemoryLimiter.capacity_eq hroom]
    exact hsweep
  · rw [MemoryLimiter.evictUnswept, MemoryLimiter.capacity_eq (hbounded.length_le h.linked)]
    exact h
  · rw [MemoryLimiter.evictUnswept, MemoryLimiter.capacity_eq (hbounded.length_le h.linked)]
    exact hbounded

end Calls

/-! ## Sums in range -/

theorem total_nonneg {evs : List Event} (h : ∀ ev ∈ evs, 0 ≤ ev.cost) : 0 ≤ total evs := by
  refine List.sum_nonneg fun x hx ↦ ?_
  obtain ⟨ev, hev, rfl⟩ := List.mem_map.mp hx
  exact h ev hev

theorem total_sublist_le {evs evs' : List Event} (h : evs'.Sublist evs)
    (hcosts : ∀ ev ∈ evs, 0 ≤ ev.cost) : total evs' ≤ total evs := by
  refine (h.map Event.cost).sum_le_sum fun x hx ↦ ?_
  obtain ⟨ev, hev, rfl⟩ := List.mem_map.mp hx
  exact hcosts ev hev

section Range

variable {windowOf : String → Int} {ledger : Ledger} {now n : Int} {l : MemoryLimiter}
  {ds : List Dimension}

theorem Sim.mem_ledger (h : Sim windowOf ledger now l) {key : String} {ev : Event}
    (hev : ev ∈ l.events key) : ev ∈ ledger key := by
  obtain ⟨dropped, heq, -⟩ := h.stored key
  rw [heq]
  exact List.mem_append_right _ hev

/-- What is live is stored. -/
theorem Sim.live_eq_filter (h : Sim windowOf ledger now l) (key : String) :
    ledger.live key now (windowOf key) =
      (l.events key).filter fun ev ↦ now - windowOf key < ev.time := by
  rw [h.live_eq, dropWhile_eq_filter (h.events_sorted key)]

/-- A window that has been brought up to date stores what is live. -/
theorem Sim.events_eq_live (h : Sim windowOf ledger now l) {key : String}
    (hsuffix : l.events key <:+ ledger.live key now (windowOf key)) :
    l.events key = ledger.live key now (windowOf key) := by
  refine hsuffix.eq_of_length_le ?_
  rw [h.live_eq_filter]
  exact List.length_filter_le ..

/-- All that was ever charged is in the past. -/
theorem Sim.windowSum_eq (h : Sim windowOf ledger now l) (key : String) (dur : Int) :
    windowSum ledger key now dur = total (ledger.live key now dur) := by
  rw [windowSum, Ledger.live]
  congr 1
  refine List.filter_congr fun ev hev ↦ ?_
  have := h.past key ev hev
  simp [this]

/-- After an `Allow` that goes through, its windows are up to date. -/
theorem Sim.allowLoop_events (h : Sim windowOf ledger now l)
    (hds : ∀ d ∈ ds, d.window = windowOf d.key) (hnone : (l.allowLoop now n ds).2 = none) :
    ∀ d ∈ ds, (l.allowLoop now n ds).1.events d.key = ledger.live d.key now d.window := by
  induction ds generalizing l with
  | nil => simp
  | cons d ds ih =>
    obtain ⟨hd, hds'⟩ := List.forall_mem_cons.mp hds
    obtain ⟨hsim, w, hfind, hevents, -⟩ := h.resolve hd
    have hloop := (h.allowLoop hds n).1
    simp only [MemoryLimiter.allowLoop, hfind] at hnone hloop ⊢
    split at hnone
    · cases hnone
    · rename_i hfits
      rw [if_neg hfits] at hloop ⊢
      refine List.forall_mem_cons.mpr ⟨?_, ih hsim hds' hnone⟩
      have hresolved : (l.resolve d now).events d.key = ledger.live d.key now (windowOf d.key) := by
        rw [MemoryLimiter.events_of_find hfind, hevents, hd]
      rw [hd]
      refine hloop.events_eq_live ?_
      rw [← hresolved]
      exact MemoryLimiter.allowLoop_shrinks _ now n ds d.key

/-- **What the ledger decides**, when no sum is out of range. -/
theorem Sim.judge_iff (h : Sim windowOf ledger now l)
    (hcosts : ∀ key, ∀ ev ∈ ledger key, 0 ≤ ev.cost) (hds : ∀ d ∈ ds, d.window = windowOf d.key)
    (hn : 0 ≤ n) (hfits : NoOverflow.Allow l now n ds) : (ledger.judge now n ds = none ↔
        ∀ d ∈ ds, windowSum ledger d.key now d.window + n ≤ d.limit) ∧
      (ledger.judge now n ds = none →
        ∀ d ∈ ds, total (ledger.live d.key now d.window) + n < 2 ^ 63) := by
  induction ds with
  | nil => simp [Ledger.judge]
  | cons d ds ih =>
    obtain ⟨hd, hds⟩ := List.forall_mem_cons.mp hds
    obtain ⟨hrange, hrest⟩ := hfits
    rw [hd, ← h.live_eq_filter, ← hd] at hrange hrest
    have hpos : 0 ≤ total (ledger.live d.key now d.window) :=
      total_nonneg fun ev hev ↦ hcosts d.key ev (List.mem_filter.mp hev).1
    have hsum : int64 (int64 (total (ledger.live d.key now d.window)) + n) =
        total (ledger.live d.key now d.window) + n := by
      rw [int64_add, int64_of_range (by omega) hrange]
    rw [Ledger.judge, List.forall_mem_cons, List.forall_mem_cons, h.windowSum_eq, hsum]
    split
    · rename_i hgt
      refine ⟨⟨fun hnone ↦ (by cases hnone), fun hall ↦ absurd hall.1 (by omega)⟩, ?_⟩
      intro hnone
      cases hnone
    · rename_i hle
      obtain ⟨hiff, hall⟩ := ih hds (hrest (by omega))
      refine ⟨⟨fun hnone ↦ ⟨by omega, hiff.mp hnone⟩, fun hfits ↦ hiff.mpr hfits.2⟩, ?_⟩
      exact fun hnone ↦ ⟨hrange, hall hnone⟩

end Range

/-! ## Runs of calls -/

/-- **What the callers promise**: the clock does not go back, the window of a key does not change,
costs are not negative, and the keys of one call are distinct.  All keys are among `keys`. -/
structure Regular (windowOf : String → Int) (keys : List String) (calls : List Call) : Prop where
  clock : calls.Pairwise fun c c' ↦ c.now ≤ c'.now
  window : ∀ c ∈ calls, ∀ d ∈ c.dims, d.window = windowOf d.key
  costs : ∀ c ∈ calls, 0 ≤ c.cost
  distinct : ∀ c ∈ calls, (c.dims.map Dimension.key).Nodup
  within : ∀ c ∈ calls, ∀ d ∈ c.dims, d.key ∈ keys

theorem Regular.tail {windowOf : String → Int} {keys : List String} {c : Call} {calls : List Call}
    (h : Regular windowOf keys (c :: calls)) : Regular windowOf keys calls where
  clock := (List.pairwise_cons.mp h.clock).2
  window := (List.forall_mem_cons.mp h.window).2
  costs := (List.forall_mem_cons.mp h.costs).2
  distinct := (List.forall_mem_cons.mp h.distinct).2
  within := (List.forall_mem_cons.mp h.within).2

/-- The limiter stands for the ledger, with the calls `rest` to come. -/
structure Related (windowOf : String → Int) (keys : List String) (rest : List Call)
    (l : MemoryLimiter) (ledger : Ledger) : Prop where
  regular : Regular windowOf keys rest
  sim : ∃ now, Sim windowOf ledger now l ∧ ∀ c ∈ rest, now ≤ c.now
  bounded : Bounded keys l

/-- The range of the sums that are stored, and of the costs that were charged. -/
structure InRange (l : MemoryLimiter) (ledger : Ledger) : Prop where
  costs : ∀ key, ∀ ev ∈ ledger key, 0 ≤ ev.cost
  stored : ∀ key, total (l.events key) < 2 ^ 63

section Runs

variable {windowOf : String → Int} {keys : List String} {rest : List Call} {c : Call}
  {l : MemoryLimiter} {ledger : Ledger}

/-- A limiter that has not been used stands for the empty ledger. -/
theorem sim_new {maxCounters : Nat} {idleTTL : Int} (now : Int) :
    Sim windowOf (fun _ ↦ []) now (newMemoryLimiter maxCounters idleTTL) := by
  refine ⟨⟨List.nodup_nil, List.Perm.refl _⟩, ?_, ?_, ?_, ?_, ?_⟩
  · intro key w hfind
    cases hfind
  · intro key w hfind
    cases hfind
  · exact fun key ↦ ⟨[], rfl, by simp⟩
  · exact fun key ↦ List.Pairwise.nil
  · simp

theorem related_new {maxCounters : Nat} {idleTTL : Int} (h : Regular windowOf keys rest)
    (hkeys : keys.length ≤ maxCounters) :
    Related windowOf keys rest (newMemoryLimiter maxCounters idleTTL) fun _ ↦ [] := by
  refine ⟨h, ?_, hkeys, fun key hfind ↦ by cases hfind⟩
  cases rest with
  | nil => exact ⟨0, sim_new 0, by simp⟩
  | cons c rest =>
    refine ⟨c.now, sim_new c.now, List.forall_mem_cons.mpr ⟨le_refl _, ?_⟩⟩
    exact (List.pairwise_cons.mp h.clock).1

/-- **One call**, of the limiter or of the limiter without the idle sweep. -/
theorem Related.callWith (h : Related windowOf keys (c :: rest) l ledger)
    {evict : MemoryLimiter → Int → MemoryLimiter}
    (hevict : evict = MemoryLimiter.evictIfNeeded ∨ evict = MemoryLimiter.evictUnswept) :
    (l.callWith evict c).1 = (ledger.call c).1 ∧
      Related windowOf keys rest (l.callWith evict c).2 (ledger.call c).2 := by
  obtain ⟨hregular, ⟨now, hsim, hnow⟩, hbounded⟩ := h
  have hc : c ∈ c :: rest := List.mem_cons_self ..
  have hcall : Bounded keys (l.callWith (fun l _ ↦ l) c).2 :=
    ((closed_bounded keys).updates (hregular.within c hc)).callWith hbounded
  obtain ⟨hanswer, hsim⟩ := hsim.callWith (hnow c hc) (hregular.window c hc)
  obtain ⟨hanswer', hcases⟩ := l.callWith_eq evict c
  have hkept : Sim windowOf (ledger.call c).2 c.now (l.callWith evict c).2 ∧
      Bounded keys (l.callWith evict c).2 := by
    obtain ⟨hswept, hswept', hunswept, hunswept'⟩ := hsim.evict_bounded hcall
    rcases hcases with heq | heq
    · rw [heq]
      exact ⟨hsim, hcall⟩
    · rw [heq]
      rcases hevict with rfl | rfl
      · exact ⟨hswept, hswept'⟩
      · exact ⟨hunswept, hunswept'⟩
  refine ⟨hanswer'.trans hanswer, hregular.tail, ?_, hkept.2⟩
  exact ⟨c.now, hkept.1, (List.pairwise_cons.mp hregular.clock).1⟩

/-- A limiter with its sums in range is consistent. -/
theorem Related.consistent (h : Related windowOf keys rest l ledger) (hrange : InRange l ledger) :
    Consistent l := by
  obtain ⟨now, hsim, -⟩ := h.sim
  obtain ⟨hkeyed, hlru⟩ := hsim.linked
  refine ⟨fun w hw ↦ ?_, hkeyed, hlru.nodup_iff.mpr hkeyed, fun key ↦ hlru.mem_iff⟩
  have hfind : l.find w.key = some w := hkeyed.find_of_mem hw
  have hstored := hrange.stored w.key
  rw [MemoryLimiter.events_of_find hfind] at hstored
  rw [hsim.sum w.key w hfind]
  refine int64_of_range
    (total_nonneg fun ev hev ↦ hrange.costs w.key ev (hsim.mem_ledger ?_)) hstored
  rw [MemoryLimiter.events_of_find hfind]
  exact hev

/-- What is charged costs what the call costs. -/
theorem Ledger.mem_chargeAll {ledger : Ledger} {now n : Int} {ds : List Dimension} {key : String}
    {ev : Event} (h : ev ∈ ledger.chargeAll now n ds key) : ev ∈ ledger key ∨ ev = ⟨now, n⟩ := by
  rw [chargeAll] at h
  induction ds generalizing ledger with
  | nil => exact .inl h
  | cons d ds ih =>
    rcases ih h with hmem | heq
    · simp only [charge] at hmem
      split at hmem
      · rcases List.mem_append.mp hmem with hmem | hmem
        · exact .inl hmem
        · exact .inr (List.mem_singleton.mp hmem)
      · exact .inl hmem
    · exact .inr heq

theorem Ledger.call_costs (hcosts : ∀ key, ∀ ev ∈ ledger key, 0 ≤ ev.cost) (hc : 0 ≤ c.cost) :
    ∀ key, ∀ ev ∈ (ledger.call c).2 key, 0 ≤ ev.cost := by
  have hcharged : ∀ now dims key, ∀ ev ∈ ledger.chargeAll now c.cost dims key, 0 ≤ ev.cost := by
    intro now dims key ev hev
    rcases Ledger.mem_chargeAll hev with hev | rfl
    · exact hcosts key ev hev
    · exact hc
  cases c with
  | allow now dims n =>
    intro key ev hev
    rw [call, allow] at hev
    split at hev
    · exact hcosts key ev hev
    · dsimp only at hev
      split at hev
      · exact hcharged now dims key ev hev
      · exact hcosts key ev hev
  | debit now dims n =>
    intro key ev hev
    rw [call, debit] at hev
    dsimp only at hev
    split at hev
    · exact hcosts key ev hev
    · exact hcharged now dims key ev hev

/-- `Allow` keeps the sums that are stored in range. -/
theorem InRange.allowWith {now n : Int} {ds : List Dimension} (hrange : InRange l ledger)
    (hsim : Sim windowOf ledger now l) (hds : ∀ d ∈ ds, d.window = windowOf d.key)
    (hdistinct : (ds.map Dimension.key).Nodup) (hn : 0 ≤ n) (hfits : NoOverflow.Allow l now n ds)
    (key : String) : total ((l.allowWith (fun l _ ↦ l) now ds n).2.events key) < 2 ^ 63 := by
  have hkept : total ((l.allowLoop now n ds).1.events key) < 2 ^ 63 := by
    refine lt_of_le_of_lt (total_sublist_le (l.allowLoop_shrinks now n ds key).sublist ?_)
      (hrange.stored key)
    exact fun ev hev ↦ hrange.costs key ev (hsim.mem_ledger hev)
  obtain ⟨-, hjudge, hpresent⟩ := hsim.allowLoop hds n
  have hlive := hsim.allowLoop_events (n := n) hds
  have hcharge := (hsim.judge_iff hrange.costs hds hn hfits).2
  rw [← hjudge] at hcharge
  rw [MemoryLimiter.allowWith]
  generalize l.allowLoop now n ds = outcome at hkept hpresent hlive hcharge
  obtain ⟨l', _ | rejection⟩ := outcome
  · dsimp only
    split
    · rw [MemoryLimiter.chargeAll_grows hdistinct
        (fun d hd ↦ hpresent rfl d.key (.inr ⟨d, hd, rfl⟩)) now n key]
      split
      · rename_i hkey
        obtain ⟨d, hd, rfl⟩ := List.mem_map.mp hkey
        rw [total_append, hlive rfl d hd]
        simpa [total] using hcharge rfl d hd
      · exact hkept
    · exact hkept
  · exact hkept

/-- `Debit` does too. -/
theorem InRange.debitWith {now n : Int} {ds : List Dimension} (hrange : InRange l ledger)
    (hdistinct : (ds.map Dimension.key).Nodup)
    (hfits : ∀ d ∈ ds, total (l.events d.key) + n < 2 ^ 63) (key : String) :
    total ((l.debitWith (fun l _ ↦ l) now ds n).events key) < 2 ^ 63 := by
  rw [MemoryLimiter.debitWith]
  split
  · exact hrange.stored key
  · rw [MemoryLimiter.debitLoop_grows hdistinct now n key]
    split
    · rename_i hkey
      obtain ⟨d, hd, rfl⟩ := List.mem_map.mp hkey
      rw [total_append]
      simpa [total] using hfits d hd
    · exact hrange.stored key

/-- **The sums that are stored stay in range.** -/
theorem Related.inRange (h : Related windowOf keys (c :: rest) l ledger) (hrange : InRange l ledger)
    (hfits : NoOverflow l c) : InRange (l.step c) (ledger.call c).2 := by
  obtain ⟨hregular, ⟨now, hsim, hnow⟩, -⟩ := h
  have hc : c ∈ c :: rest := List.mem_cons_self ..
  have hcosts := Ledger.call_costs hrange.costs (hregular.costs c hc)
  have hdone : ∀ key, total ((l.callWith (fun l _ ↦ l) c).2.events key) < 2 ^ 63 := by
    cases c with
    | allow now' dims n =>
      exact hrange.allowWith (hsim.mono (hnow _ hc)) (hregular.window _ hc)
        (hregular.distinct _ hc) (hregular.costs _ hc) hfits
    | debit now' dims n => exact hrange.debitWith (hregular.distinct _ hc) hfits
  -- Eviction only loses events.
  have hshrinks : Shrinks (l.callWith (fun l _ ↦ l) c).2 (l.step c) := by
    rw [MemoryLimiter.step, MemoryLimiter.call_eq]
    rcases (l.callWith_eq MemoryLimiter.evictIfNeeded c).2 with heq | heq
    · rw [heq]
      exact Shrinks.refl _
    · rw [heq]
      exact MemoryLimiter.evictIfNeeded_shrinks _ c.now
  obtain ⟨-, hsim'⟩ := hsim.callWith (hnow c hc) (hregular.window c hc)
  refine ⟨hcosts, fun key ↦ lt_of_le_of_lt (total_sublist_le (hshrinks key).sublist ?_) (hdone key)⟩
  exact fun ev hev ↦ hcosts key ev (hsim'.mem_ledger hev)

end Runs

/-! ## The plain sliding window -/

/-- Two ledgers with the same sums over any period.  They may differ in charges of nothing. -/
def SameSums (charges ledger : Ledger) : Prop :=
  ∀ key (p : Int → Bool), total ((charges key).filter fun ev ↦ p ev.time) =
    total ((ledger key).filter fun ev ↦ p ev.time)

namespace SameSums

variable {charges ledger : Ledger}

theorem windowSum_eq (h : SameSums charges ledger) (key : String) (now dur : Int) :
    windowSum charges key now dur = windowSum ledger key now dur :=
  h key fun t ↦ now - dur < t ∧ t ≤ now

theorem charge (h : SameSums charges ledger) (key : String) (ev : Event) :
    SameSums (charges.charge key ev) (ledger.charge key ev) := by
  intro key' p
  rw [Ledger.charge, Ledger.charge]
  split
  · rw [List.filter_append, List.filter_append, total_append, total_append, h key' p]
  · exact h key' p

theorem charge_zero (h : SameSums charges ledger) (key : String) (now : Int) :
    SameSums (charges.charge key ⟨now, 0⟩) ledger := by
  intro key' p
  rw [Ledger.charge]
  split
  · rw [List.filter_append, total_append, h key' p, List.filter_singleton]
    cases p now <;> simp [total]
  · exact h key' p

theorem chargeAll (h : SameSums charges ledger) (now n : Int) (ds : List Dimension) :
    SameSums (charges.chargeAll now n ds) (ledger.chargeAll now n ds) := by
  induction ds generalizing charges ledger with
  | nil => exact h
  | cons d ds ih => exact ih (h.charge d.key ⟨now, n⟩)

theorem chargeAll_zero (h : SameSums charges ledger) (now : Int) (ds : List Dimension) :
    SameSums (charges.chargeAll now 0 ds) ledger := by
  induction ds generalizing charges with
  | nil => exact h
  | cons d ds ih => exact ih (h.charge_zero d.key now)

end SameSums

theorem Ledger.judge_ok {ledger : Ledger} {now n : Int} {ds : List Dimension} {rejection : Decision}
    (h : ledger.judge now n ds = some rejection) : rejection.ok = false := by
  induction ds with
  | nil => cases h
  | cons d ds ih =>
    rw [judge] at h
    split at h
    · cases h
      rfl
    · exact ih h

section Plain

variable {windowOf : String → Int} {keys : List String} {rest : List Call} {c : Call}
  {l : MemoryLimiter} {ledger charges : Ledger}

/-- **One call of the ledger and of the plain sliding window.** -/
theorem Related.slidingWindow (h : Related windowOf keys (c :: rest) l ledger)
    (hrange : InRange l ledger) (hfits : NoOverflow l c) (hsums : SameSums charges ledger) :
    (ledger.call c).1.map Decision.ok = (slidingWindow charges c).1 ∧
      SameSums (slidingWindow charges c).2 (ledger.call c).2 := by
  obtain ⟨hregular, ⟨now, hsim, hnow⟩, -⟩ := h
  have hc : c ∈ c :: rest := List.mem_cons_self ..
  have hmono := hsim.mono (hnow c hc)
  cases c with
  | allow now' dims n =>
    have hn : 0 ≤ n := hregular.costs _ hc
    have hiff : ledger.judge now' n dims = none ↔
        ∀ d ∈ dims, windowSum charges d.key now' d.window + n ≤ d.limit := by
      simp only [hsums.windowSum_eq]
      exact (hmono.judge_iff hrange.costs (hregular.window _ hc) hn hfits).1
    rw [Ledger.call, Ledger.allow, Voxeltoad.Ratelimit.slidingWindow]
    cases hjudge : ledger.judge now' n dims with
    | none =>
      rw [if_pos (hiff.mp hjudge)]
      refine ⟨rfl, ?_⟩
      dsimp only
      split
      · exact hsums.chargeAll now' n dims
      · obtain rfl : n = 0 := by omega
        exact hsums.chargeAll_zero now' dims
    | some rejection =>
      have hfull : ¬∀ d ∈ dims, windowSum charges d.key now' d.window + n ≤ d.limit := by
        intro hall
        cases hjudge.symm.trans (hiff.mpr hall)
      rw [if_neg hfull]
      refine ⟨?_, hsums⟩
      simp [Ledger.judge_ok hjudge]
  | debit now' dims n =>
    refine ⟨rfl, ?_⟩
    rw [Ledger.call, Ledger.debit, Voxeltoad.Ratelimit.slidingWindow]
    dsimp only
    split
    · rename_i hn
      rw [hn]
      exact hsums.chargeAll_zero now' dims
    · exact hsums.chargeAll now' n dims

/-- A rejected `Allow` charges nothing. -/
theorem MemoryLimiter.call_rejected {d : Decision} (h : (l.call c).1 = some d) (hd : d.ok = false) :
    Shrinks l (l.step c) := by
  cases c with
  | allow now dims n =>
    have hshrinks := l.allowLoop_shrinks now n dims
    rw [step, call]
    rw [call] at h
    obtain rfl := Option.some.inj h
    rw [allow, allowWith] at hd ⊢
    generalize l.allowLoop now n dims = outcome at hshrinks hd
    obtain ⟨l', _ | rejection⟩ := outcome
    · cases hd
    · exact hshrinks
  | debit now dims n => cases h

end Plain

/-! ## The refinement -/

section Refinement

variable {windowOf : String → Int} {keys : List String} {calls rest : List Call} {l : MemoryLimiter}
  {ledger : Ledger}

/-- The limiter, with or without the idle sweep, answers what the ledger answers. -/
theorem Related.answers (h : Related windowOf keys calls l ledger)
    {evict : MemoryLimiter → Int → MemoryLimiter}
    (hevict : evict = MemoryLimiter.evictIfNeeded ∨ evict = MemoryLimiter.evictUnswept) :
    Run.answers (MemoryLimiter.callWith evict) l calls = Run.answers Ledger.call ledger calls :=
  Run.answers_eq (Related windowOf keys) (fun _ _ _ _ h ↦ h.callWith hevict) h

/-- What a run keeps up in which no sum leaves the range of `int`. -/
structure Refining (windowOf : String → Int) (keys : List String) (rest : List Call)
    (l : MemoryLimiter) (ledger : Ledger) : Prop where
  related : Related windowOf keys rest l ledger
  inRange : InRange l ledger
  fits : Run.Along MemoryLimiter.step NoOverflow l rest

theorem Refining.step {c : Call} (h : Refining windowOf keys (c :: rest) l ledger) :
    (l.call c).1 = (ledger.call c).1 ∧
    Refining windowOf keys rest (l.step c) (ledger.call c).2 := by
  obtain ⟨hanswer, hrelated⟩ := h.related.callWith (.inl rfl)
  rw [← MemoryLimiter.call_eq] at hanswer hrelated
  exact ⟨hanswer, hrelated, h.related.inRange h.inRange h.fits.1, h.fits.2⟩

/-- The limiter answers OK when the sliding window does. -/
theorem Refining.answers {charges : Ledger} (h : Refining windowOf keys calls l ledger)
    (hsums : SameSums charges ledger) :
    (Run.answers MemoryLimiter.call l calls).map (Option.map Decision.ok) =
      Run.answers slidingWindow charges calls := by
  rw [Run.answers_map]
  refine Run.answers_eq (fun rest l charges ↦
    ∃ ledger, Refining windowOf keys rest l ledger ∧ SameSums charges ledger) ?_ ⟨ledger, h, hsums⟩
  rintro c rest l charges ⟨ledger, h, hsums⟩
  obtain ⟨hanswer, hnext⟩ := h.step
  obtain ⟨hok, hsums'⟩ := h.related.slidingWindow h.inRange h.fits.1 hsums
  refine ⟨?_, (ledger.call c).2, hnext, hsums'⟩
  dsimp only
  rw [hanswer, hok]

/-- Every state of the run is consistent. -/
theorem Refining.consistent (h : Refining windowOf keys calls l ledger) :
    ∀ p ∈ Run.visited MemoryLimiter.step l calls, Consistent p := by
  intro p hp
  have hstep : ∀ c rest l, (∃ ledger, Refining windowOf keys (c :: rest) l ledger) →
      ∃ ledger, Refining windowOf keys rest (l.step c) ledger := by
    rintro c rest l ⟨ledger, h⟩
    exact ⟨_, h.step.2⟩
  obtain ⟨rest, ledger, h⟩ := Run.visited_rest
    (R := fun rest l ↦ ∃ ledger, Refining windowOf keys rest l ledger) hstep ⟨ledger, h⟩ p hp
  exact h.related.consistent h.inRange

end Refinement

/-- **The limiter refines the plain sliding window**, in every run in which no sum leaves the range
of `int`.  It answers OK exactly when the sliding window does; the idle sweep changes no answer; and
every state it goes through is consistent, and loses only old events when it rejects. -/
theorem limiter_refines_window (windowOf : String → Int) (keys : List String) (maxCounters : Nat)
    (idleTTL : Int) (calls : List Call) (hregular : Regular windowOf keys calls)
    (hkeys : keys.length ≤ maxCounters)
    (hfits : Run.Along MemoryLimiter.step NoOverflow (newMemoryLimiter maxCounters idleTTL) calls) :
    (Run.answers MemoryLimiter.call (newMemoryLimiter maxCounters idleTTL) calls).map
        (Option.map Decision.ok) = Run.answers slidingWindow (fun _ ↦ []) calls ∧
      Run.answers MemoryLimiter.call (newMemoryLimiter maxCounters idleTTL) calls =
        Run.answers (MemoryLimiter.callWith MemoryLimiter.evictUnswept)
          (newMemoryLimiter maxCounters idleTTL) calls ∧
      ∀ l ∈ Run.visited MemoryLimiter.step (newMemoryLimiter maxCounters idleTTL) calls,
        Consistent l ∧
          ∀ c d, (l.call c).1 = some d → d.ok = false → Shrinks l (l.step c) := by
  have hstart : Refining windowOf keys calls (newMemoryLimiter maxCounters idleTTL) fun _ ↦ [] :=
    ⟨related_new hregular hkeys, ⟨by simp, fun _ ↦ (by decide : (0 : Int) < 2 ^ 63)⟩, hfits⟩
  refine ⟨hstart.answers fun _ _ ↦ rfl, ?_, ?_⟩
  · rw [hstart.related.answers (.inr rfl), MemoryLimiter.call_eq, hstart.related.answers (.inl rfl)]
  · exact fun l hl ↦ ⟨hstart.consistent l hl, fun c d ↦ MemoryLimiter.call_rejected⟩

/-- Requests and tokens of one key: the second request comes too soon, the third finds the tokens
used up, and the last one comes after the window has moved on. -/
def limited : List Call :=
  let rpm : Dimension := ⟨"key:k", .rpm, 1, 60⟩
  let tpm : Dimension := ⟨"key:k", .tpm, 100, 60⟩
  [.allow 0 [rpm] 1, .allow 30 [rpm] 1, .debit 40 [tpm] 250, .allow 70 [rpm, tpm] 0,
    .allow 1000 [rpm, tpm] 1]

theorem limiter_refines_window_sample :
    (Run.answers MemoryLimiter.call (newMemoryLimiter 2 600) limited).map (Option.map Decision.ok) =
        [some true, some false, none, some false, some true] ∧
      (Run.answers MemoryLimiter.call (newMemoryLimiter 2 600) limited).map
      (Option.map Decision.ok) =
        Run.answers slidingWindow (fun _ ↦ []) limited := by
  have hregular : Regular (fun _ ↦ 60) ["rpm\x00key:k", "tpm\x00key:k"] limited :=
    ⟨by decide, by decide, by decide, by decide, by decide⟩
  refine ⟨by decide, ?_⟩
  exact (limiter_refines_window (fun _ ↦ 60) _ 2 600 limited hregular (by decide)
    (by decide)).1

/-- Two calls that bring the sum of the window of a key to `2 ^ 63`, and a check of it. -/
def overflowing : List Call :=
  let dims : List Dimension := [⟨"key:k", .tpm, 100, 60⟩]
  [.debit 0 dims (2 ^ 63 - 1), .debit 1 dims 1, .allow 2 dims 0]

theorem regular_overflowing : Regular (fun _ ↦ 60) ["tpm\x00key:k"] overflowing :=
  ⟨by decide, by decide, by decide, by decide, by decide⟩

/-- The sum wraps, and the window that is far over its limit has room. -/
theorem limiter_overflow :
    ¬∀ (windowOf : String → Int) (keys : List String) (maxCounters : Nat) (idleTTL : Int)
      (calls : List Call), Regular windowOf keys calls → keys.length ≤ maxCounters →
      (Run.answers MemoryLimiter.call (newMemoryLimiter maxCounters idleTTL) calls).map
        (Option.map Decision.ok) = Run.answers slidingWindow (fun _ ↦ []) calls := by
  intro hall
  have h := hall (fun _ ↦ 60) ["tpm\x00key:k"] 10 600 overflowing regular_overflowing (by decide)
  have hlimiter : (Run.answers MemoryLimiter.call (newMemoryLimiter 10 600) overflowing).map
      (Option.map Decision.ok) = [none, none, some true] := by decide
  have hplain : Run.answers slidingWindow (fun _ ↦ []) overflowing = [none, none, some false] := by
    decide
  rw [hlimiter, hplain] at h
  cases h

end Ratelimit

end Voxeltoad
