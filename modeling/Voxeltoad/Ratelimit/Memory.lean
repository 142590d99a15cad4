import Mathlib.Data.List.Dedup
import Voxeltoad.Ratelimit.Refinement

/-!
# How many counters a limiter holds

A counter is made when a dimension is first looked at, and the bound on their number is enforced at
the end of a call (`evictIfNeeded`).  An `Allow` that rejects returns before its end, and what it
has made by then stays.  `stops` says how far such a call gets, and `fresh` what it makes.

`counters_bounded_iff` is the main result: the bound holds after every call of a run exactly when
every call that is rejected finds room for the counters it makes (`Room`).
-/

set_option autoImplicit false

namespace Voxeltoad

namespace Ratelimit

namespace MemoryLimiter

/-- The keys among those of `dims` that have no counter, once each. -/
def fresh (l : MemoryLimiter) (dims : List Dimension) : List String :=
  (dims.map Dimension.key).dedup.filter fun key ↦ (l.find key).isNone

variable {l : MemoryLimiter} {now n : Int} {ds : List Dimension}

/-! ## What it makes on the way -/

theorem resolveAll_linked (h : Linked l) (now : Int) (ds : List Dimension) :
    Linked (resolveAll now ds l) := by
  induction ds generalizing l with
  | nil => exact h
  | cons d ds ih => exact ih ((l.resolve_put d now).linked h)

theorem resolveAll_find_isSome (l : MemoryLimiter) (now : Int) (ds : List Dimension)
    (key : String) :
    ((resolveAll now ds l).find key).isSome ↔ (l.find key).isSome ∨ key ∈ ds.map Dimension.key := by
  induction ds generalizing l with
  | nil => simp [resolveAll]
  | cons d ds ih =>
    have hfind : ((l.resolve d now).find key).isSome ↔ key = d.key ∨ (l.find key).isSome := by
      rw [(l.resolve_put d now).find, pruned_key]
      by_cases heq : key = d.key
      · simp [heq]
      · simp [heq, Ne.symm heq]
    rw [resolveAll, List.foldl_cons]
    refine (ih (l.resolve d now)).trans ?_
    rw [hfind, List.map_cons, List.mem_cons]
    tauto

theorem counters_keys (l : MemoryLimiter) (key : String) :
    key ∈ l.counters.map Window.key ↔ (l.find key).isSome := by
  rw [find, Table.find_isSome_iff, List.mem_map]

/-- **What is made is what was missing.** -/
theorem resolveAll_length (h : Linked l) (now : Int) (ds : List Dimension) :
    (resolveAll now ds l).counters.length = l.counters.length + (l.fresh ds).length := by
  have hperm : ((resolveAll now ds l).counters.map Window.key).Perm
      (l.counters.map Window.key ++ l.fresh ds) := by
    refine (List.perm_ext_iff_of_nodup (resolveAll_linked h now ds).1 ?_).mpr fun key ↦ ?_
    · refine List.Nodup.append h.1 ((List.nodup_dedup _).filter _) fun key hold hnew ↦ ?_
      have hsome := (l.counters_keys key).mp hold
      have hnone := (List.mem_filter.mp hnew).2
      rw [Option.isNone_iff_eq_none.mp hnone] at hsome
      cases hsome
    · rw [counters_keys, resolveAll_find_isSome, List.mem_append, counters_keys, fresh,
        List.mem_filter, List.mem_dedup]
      cases l.find key <;> simp
  have hlength := hperm.length_eq
  rw [List.length_append, List.length_map, List.length_map] at hlength
  exact hlength

/-! ## Eviction -/

/-- **The capacity bound is kept**, whatever is evicted first. -/
theorem capacityLoop_length {keys : List String} (h : Linked l) (hkeys : keys.Perm l.lru) :
    (l.capacityLoop keys).counters.length ≤ l.maxCounters := by
  induction keys generalizing l with
  | nil =>
    have hlru := h.2.length_eq
    rw [← hkeys.length_eq, List.length_map, List.length_nil] at hlru
    rw [capacityLoop, ← hlru]
    exact Nat.zero_le _
  | cons key keys ih =>
    rw [capacityLoop]
    split
    · refine ih (removeElem_linked h key) ?_
      have herase := hkeys.erase key
      rwa [List.erase_cons_head] at herase
    · rename_i hle
      exact not_lt.mp hle

end MemoryLimiter

/-! ## The bound over a run -/

/-- A limiter with a bound on the number of its counters, which it may exceed. -/
structure Capped (maxCounters : Nat) (l : MemoryLimiter) : Prop where
  linked : Linked l
  maxCounters : l.maxCounters = maxCounters

theorem closed_capped (keys : List String) (maxCounters : Nat) :
    Closed keys (Capped maxCounters) where
  put h hput _ := ⟨hput.linked h.linked, hput.maxCounters.trans h.maxCounters⟩
  remove key h := ⟨MemoryLimiter.removeElem_linked h.linked key, h.maxCounters⟩

section Step

variable {maxCounters : Nat} {l : MemoryLimiter}

/-- A call up to the eviction. -/
theorem Capped.callWith (h : Capped maxCounters l) (c : Call) :
    Capped maxCounters (l.callWith (fun l _ ↦ l) c).2 :=
  ((closed_capped (c.dims.map Dimension.key) maxCounters).updates
    fun _ hd ↦ List.mem_map_of_mem hd).callWith h

theorem Capped.step (h : Capped maxCounters l) (c : Call) : Capped maxCounters (l.step c) :=
  step_lasts ((closed_capped _ maxCounters).updates fun _ hd ↦ List.mem_map_of_mem hd)
    ((closed_capped [] maxCounters).evicts c.now) id h

/-- **A call that gets to its end keeps the bound.** -/
theorem Capped.evictIfNeeded (h : Capped maxCounters l) (now : Int) :
    (l.evictIfNeeded now).counters.length ≤ maxCounters := by
  have hsweep : Capped maxCounters (l.sweep now) :=
    ((closed_capped [] maxCounters).evicts now).sweepLoop h _
  rw [← hsweep.maxCounters]
  exact MemoryLimiter.capacityLoop_length hsweep.linked (List.reverse_perm _)

/-- A call that is rejected finds room for the counters it makes. -/
def Room (l : MemoryLimiter) : Call → Prop
  | .allow now dims n =>
    ∀ stop ∈ MemoryLimiter.stops now n dims l,
      l.counters.length + (l.fresh (stop.1 ++ [stop.2])).length ≤ l.maxCounters
  | .debit _ _ _ => True

/-- **One call** keeps the bound exactly when it finds room. -/
theorem Capped.step_iff (h : Capped maxCounters l)
    (hl : l.counters.length ≤ maxCounters) (c : Call) :
    (l.step c).counters.length ≤ maxCounters ↔ Room l c := by
  have hcall := h.callWith c
  cases c with
  | allow now dims n =>
    rw [MemoryLimiter.callWith, MemoryLimiter.allowWith] at hcall
    rw [MemoryLimiter.step, MemoryLimiter.call, MemoryLimiter.allow, MemoryLimiter.allowWith, Room]
    cases hstop : MemoryLimiter.stops now n dims l with
    | none =>
      rw [MemoryLimiter.allowLoop_of_none hstop] at hcall ⊢
      exact iff_of_true (hcall.evictIfNeeded now) (by simp)
    | some stop =>
      rw [MemoryLimiter.allowLoop_of_some hstop]
      dsimp only
      rw [MemoryLimiter.resolveAll_length h.linked, h.maxCounters]
      simp
  | debit now dims n =>
    refine iff_of_true ?_ trivial
    rw [MemoryLimiter.callWith, MemoryLimiter.debitWith] at hcall
    rw [MemoryLimiter.step, MemoryLimiter.call, MemoryLimiter.debit, MemoryLimiter.debitWith]
    split
    · exact hl
    · rename_i hn
      rw [if_neg hn] at hcall
      exact hcall.evictIfNeeded now

end Step

/-- **The bound on the counters** holds after every call of a run exactly when every call that is
rejected finds room for the counters it makes on the way. -/
theorem counters_bounded_iff (maxCounters : Nat) (idleTTL : Int) (calls : List Call) :
    (∀ l ∈ Run.visited MemoryLimiter.step (newMemoryLimiter maxCounters idleTTL) calls,
      l.counters.length ≤ maxCounters) ↔
      Run.Along MemoryLimiter.step Room (newMemoryLimiter maxCounters idleTTL) calls :=
  Run.visited_iff_along (J := Capped maxCounters) (fun _ c h ↦ h.step c)
    (fun _ c h hl ↦ h.step_iff hl c) ⟨⟨List.nodup_nil, List.Perm.refl _⟩, rfl⟩ (Nat.zero_le _)

/-- A request of a key uses up its limit.  The next one comes through another tenant, whose counter
is made before the key is found to have no room. -/
def rotating : List Call :=
  let key : Dimension := ⟨"key:k", .rpm, 1, 60⟩
  [.allow 0 [key] 1, .allow 1 [⟨"tenant:t", .rpm, 5, 60⟩, key] 1]

/-- A rejected call leaves a counter more than there may be. -/
theorem counters_unbounded :
    ¬∀ (maxCounters : Nat) (idleTTL : Int) (calls : List Call),
      ∀ l ∈ Run.visited MemoryLimiter.step (newMemoryLimiter maxCounters idleTTL) calls,
        l.counters.length ≤ maxCounters := by
  intro hall
  have h := hall 1 600 rotating _ (Run.run_mem_visited _ _)
  have hlength :
      (Run.run MemoryLimiter.step (newMemoryLimiter 1 600) rotating).counters.length = 2 := by
    decide
  omega

end Ratelimit

end Voxeltoad
