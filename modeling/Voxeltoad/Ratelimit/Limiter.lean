import Mathlib.Data.List.TakeWhile
import Voxeltoad.Billing.Cost
import Voxeltoad.Lib.Table

/-!
# The in-memory rate limiter

`MemoryLimiter` of `internal/plugin/ratelimit`: one sliding window per counter, with the events in
it and their cached sum.  Events leave a window lazily, when it is looked at.  Counters that are
idle and empty are swept, and beyond a number of counters the least recently used ones go.

Sums are Go `int`s and wrap (`int64`); instants and durations are integers, of nanoseconds.

What the limiter is *about* is much simpler: a ledger that has all the events ever charged to a key,
and for each check the events that are still in the window (`live`).  `Sim` relates the two, and
`Sim.allowWith` and `Sim.debitWith` say that the limiter does what the ledger does: the same
decision, down to the time to wait, and the same charges.  No arithmetic is assumed there: that sums
do not wrap is only needed to say what a decision *means*.
-/

set_option autoImplicit false

namespace Voxeltoad

namespace Ratelimit

/-! ## Dimensions and windows -/

/-- `Metric`. -/
inductive Metric where
  | rpm
  | tpm
  deriving DecidableEq, Repr

def Metric.name : Metric → String
  | .rpm => "rpm"
  | .tpm => "tpm"

/-- `Dimension`. -/
structure Dimension where
  scope : String
  metric : Metric
  limit : Int
  window : Int
  deriving DecidableEq, Repr

/-- `key`. -/
def Dimension.key (d : Dimension) : String := d.metric.name ++ "\x00" ++ d.scope

/-- `Decision`. -/
structure Decision where
  ok : Bool
  retryAfter : Int
  hitScope : String
  deriving DecidableEq, Repr

/-- `event`: a charge. -/
structure Event where
  time : Int
  cost : Int
  deriving DecidableEq, Repr

/-- `window`.  The value of its element of the LRU list is its key. -/
structure Window where
  key : String
  events : List Event
  sum : Int
  lastAccess : Int
  dur : Int
  deriving DecidableEq, Repr

/-- The loop of `prune`. -/
def pruneLoop (cutoff : Int) : List Event → Int → List Event × Int
  | [], sum => ([], sum)
  | ev :: evs, sum =>
    if ev.time ≤ cutoff then pruneLoop cutoff evs (int64 (sum - ev.cost)) else (ev :: evs, sum)

/-- `prune`. -/
def Window.prune (w : Window) (now dur : Int) : Window :=
  let (events, sum) := pruneLoop (now - dur) w.events w.sum
  { w with events := events, sum := sum }

/-- A charge of `n`. -/
def Window.charge (w : Window) (now n : Int) : Window :=
  { w with events := w.events ++ [⟨now, n⟩], sum := int64 (w.sum + n) }

/-- The time until an event leaves the window. -/
def untilExpiry (ev : Event) (now dur : Int) : Int :=
  if ev.time + dur - now < 0 then 0 else ev.time + dur - now

/-- The loop of `retryAfter`: the first event with which enough is freed. -/
def freeing (needToFree : Int) : List Event → Int → Option Event
  | [], _ => none
  | ev :: evs, freed =>
    if int64 (freed + ev.cost) ≥ needToFree then some ev
    else freeing needToFree evs (int64 (freed + ev.cost))

/-- `retryAfter`, on the events and the sum of a window. -/
def retryAfter (events : List Event) (sum now dur n limit : Int) : Int :=
  match events.getLast? with
  | none => 0
  | some last =>
    let needToFree := int64 (int64 (sum + n) - limit)
    if needToFree ≤ 0 then 0
    else untilExpiry ((freeing needToFree events 0).getD last) now dur

/-! ## The limiter -/

/-- `MemoryLimiter`.  `lru` has the most recently used key first. -/
structure MemoryLimiter where
  counters : List Window
  lru : List String
  maxCounters : Nat
  idleTTL : Int
  deriving DecidableEq, Repr

/-- `NewMemoryLimiter`, with bounds of its own. -/
def newMemoryLimiter (maxCounters : Nat) (idleTTL : Int) : MemoryLimiter :=
  ⟨[], [], maxCounters, idleTTL⟩

namespace MemoryLimiter

variable (l : MemoryLimiter)

/-- The window of a key. -/
def find (key : String) : Option Window := Table.find Window.key key l.counters

/-- Change the window of a key. -/
def modify (key : String) (f : Window → Window) : MemoryLimiter :=
  { l with counters := Table.modify Window.key key f l.counters }

/-- `touch`. -/
def touch (key : String) (now : Int) : MemoryLimiter :=
  match l.find key with
  | none =>
    { l with counters := l.counters ++ [⟨key, [], 0, now, 0⟩], lru := key :: l.lru }
  | some _ =>
    { l.modify key fun w ↦ { w with lastAccess := now } with lru := key :: l.lru.erase key }

/-- `removeElem`. -/
def removeElem (key : String) : MemoryLimiter :=
  { l with counters := l.counters.filter fun w ↦ w.key ≠ key, lru := l.lru.erase key }

/-- The idle sweep, over the keys from the least recently used on. -/
def sweepLoop (now : Int) : List String → MemoryLimiter → MemoryLimiter
  | [], l => l
  | key :: keys, l =>
    match l.find key with
    | none => l
    | some w =>
      if now - w.lastAccess < l.idleTTL then l
      else
        let l' := l.modify key fun w ↦ w.prune now w.dur
        -- Only a window that is empty is dropped.
        if (w.prune now w.dur).events ≠ [] then l' else sweepLoop now keys (l'.removeElem key)

/-- The first half of `evictIfNeeded`. -/
def sweep (now : Int) : MemoryLimiter := l.sweepLoop now l.lru.reverse

/-- The capacity bound, over the keys from the least recently used on. -/
def capacityLoop : List String → MemoryLimiter → MemoryLimiter
  | [], l => l
  | key :: keys, l =>
    if l.counters.length > l.maxCounters then capacityLoop keys (l.removeElem key) else l

/-- The second half of `evictIfNeeded`. -/
def capacity : MemoryLimiter := l.capacityLoop l.lru.reverse

/-- **`evictIfNeeded`.** -/
def evictIfNeeded (now : Int) : MemoryLimiter := (l.sweep now).capacity

/-- The window of a dimension is resolved and brought up to date. -/
def resolve (d : Dimension) (now : Int) : MemoryLimiter :=
  (l.touch d.key now).modify d.key fun w ↦ { w with dur := d.window }.prune now d.window

/-- The loop of `Allow` over the dimensions: the first one without room decides. -/
def allowLoop (now n : Int) : List Dimension → MemoryLimiter → MemoryLimiter × Option Decision
  | [], l => (l, none)
  | d :: ds, l =>
    let l' := l.resolve d now
    match l'.find d.key with
    | none => (l', none)
    | some w =>
      if int64 (w.sum + n) > d.limit then
        (l', some ⟨false, retryAfter w.events w.sum now d.window n d.limit, d.scope⟩)
      else allowLoop now n ds l'

/-- Charge `n` to every dimension. -/
def chargeAll (now n : Int) (dims : List Dimension) : MemoryLimiter :=
  dims.foldl (fun l d ↦ l.modify d.key fun w ↦ w.charge now n) l

/-- `Allow`, with `evict` for the eviction at its end. -/
def allowWith (evict : MemoryLimiter → Int → MemoryLimiter) (now : Int) (dims : List Dimension)
    (n : Int) : Decision × MemoryLimiter :=
  match allowLoop now n dims l with
  | (l', some rejection) => (rejection, l')
  | (l', none) =>
    (⟨true, 0, ""⟩, evict (if n > 0 then l'.chargeAll now n dims else l') now)

/-- The window of a dimension is resolved and charged, but not brought up to date. -/
def record (n now : Int) (d : Dimension) : MemoryLimiter :=
  (l.touch d.key now).modify d.key fun w ↦ { w with dur := d.window }.charge now n

/-- The loop of `Debit`. -/
def debitLoop (now n : Int) (dims : List Dimension) : MemoryLimiter :=
  dims.foldl (fun l d ↦ l.record n now d) l

/-- `Debit`, with `evict` for the eviction at its end. -/
def debitWith (evict : MemoryLimiter → Int → MemoryLimiter) (now : Int) (dims : List Dimension)
    (n : Int) : MemoryLimiter :=
  if n = 0 then l else evict (l.debitLoop now n dims) now

/-- **`Allow`.** -/
def allow (now : Int) (dims : List Dimension) (n : Int) : Decision × MemoryLimiter :=
  l.allowWith evictIfNeeded now dims n

/-- **`Debit`.** -/
def debit (now : Int) (dims : List Dimension) (n : Int) : MemoryLimiter :=
  l.debitWith evictIfNeeded now dims n

end MemoryLimiter

/-! ## The ledger -/

/-- The costs of events. -/
def total (evs : List Event) : Int := (evs.map Event.cost).sum

/-- All that was ever charged, by key. -/
abbrev Ledger := String → List Event

namespace Ledger

variable (ledger : Ledger)

/-- The events of a key that are in the window. -/
def live (key : String) (now dur : Int) : List Event :=
  (ledger key).filter fun ev ↦ now - dur < ev.time

/-- Charge an event to a key. -/
def charge (key : String) (ev : Event) : Ledger :=
  fun k ↦ if k = key then ledger k ++ [ev] else ledger k

/-- Charge `n` to every dimension. -/
def chargeAll (now n : Int) (dims : List Dimension) : Ledger :=
  dims.foldl (fun ledger d ↦ Ledger.charge ledger d.key ⟨now, n⟩) ledger

/-- The first dimension without room for `n`, and what it answers. -/
def judge (now n : Int) : List Dimension → Option Decision
  | [] => none
  | d :: ds =>
    let evs := ledger.live d.key now d.window
    let sum := int64 (total evs)
    if int64 (sum + n) > d.limit then
      some ⟨false, retryAfter evs sum now d.window n d.limit, d.scope⟩
    else judge now n ds

/-- `Allow` on a ledger. -/
def allow (now : Int) (dims : List Dimension) (n : Int) : Decision × Ledger :=
  match ledger.judge now n dims with
  | some rejection => (rejection, ledger)
  | none => (⟨true, 0, ""⟩, if n > 0 then ledger.chargeAll now n dims else ledger)

/-- `Debit` on a ledger. -/
def debit (now : Int) (dims : List Dimension) (n : Int) : Ledger :=
  if n = 0 then ledger else ledger.chargeAll now n dims

end Ledger

/-! ## Pruning -/

theorem total_cons (ev : Event) (evs : List Event) : total (ev :: evs) = ev.cost + total evs := by
  simp [total]

theorem total_append (evs evs' : List Event) : total (evs ++ evs') = total evs + total evs' := by
  simp [total]

/-- The cached sum follows the events. -/
theorem pruneLoop_eq (cutoff : Int) (evs : List Event) :
    pruneLoop cutoff evs (int64 (total evs)) =
      (evs.dropWhile (fun ev ↦ ev.time ≤ cutoff),
        int64 (total (evs.dropWhile fun ev ↦ ev.time ≤ cutoff))) := by
  induction evs with
  | nil => rfl
  | cons ev evs ih =>
    rw [pruneLoop, List.dropWhile_cons]
    split
    · rename_i hle
      have hsum : int64 (int64 (total (ev :: evs)) - ev.cost) = int64 (total evs) := by
        rw [int64_sub, total_cons]
        congr 1
        omega
      rw [hsum, ih, if_pos (by simpa using hle)]
    · rename_i hle
      rw [if_neg (by simpa using hle)]

/-- In a list sorted by time, the events that have left the window come first. -/
theorem dropWhile_eq_filter {evs : List Event} (h : evs.Pairwise fun a b ↦ a.time ≤ b.time)
    (cutoff : Int) :
    evs.dropWhile (fun ev ↦ ev.time ≤ cutoff) = evs.filter fun ev ↦ cutoff < ev.time := by
  induction evs with
  | nil => rfl
  | cons ev evs ih =>
    obtain ⟨hev, hevs⟩ := List.pairwise_cons.mp h
    by_cases hle : ev.time ≤ cutoff
    · rw [List.dropWhile_cons_of_pos (by simpa using hle), ih hevs,
        List.filter_cons_of_neg (by simpa using hle)]
    · have hall : (ev :: evs).filter (fun ev ↦ cutoff < ev.time) = ev :: evs := by
        refine List.filter_eq_self.mpr fun ev' hev' ↦ ?_
        rcases List.mem_cons.mp hev' with rfl | hev'
        · simpa using hle
        · have := hev ev' hev'
          simp only [decide_eq_true_eq]
          omega
      rw [List.dropWhile_cons_of_neg (by simpa using hle), hall]

/-! ## One window at a time -/

/-- The counter map and the LRU list hold the same keys, once each. -/
def Linked (l : MemoryLimiter) : Prop :=
  Table.Keyed Window.key l.counters ∧ l.lru.Perm (l.counters.map Window.key)

/-- The window of a key has become `w`, and nothing else has changed. -/
structure Put (l : MemoryLimiter) (w : Window) (l' : MemoryLimiter) : Prop where
  linked : Linked l → Linked l'
  find : ∀ key, l'.find key = if w.key = key then some w else l.find key
  maxCounters : l'.maxCounters = l.maxCounters
  idleTTL : l'.idleTTL = l.idleTTL

theorem Put.trans {l l' l'' : MemoryLimiter} {w w' : Window} (h : Put l w l') (h' : Put l' w' l'')
    (hkey : w'.key = w.key) : Put l w' l'' := by
  refine ⟨fun hlinked ↦ h'.linked (h.linked hlinked), ?_, h'.maxCounters.trans h.maxCounters,
    h'.idleTTL.trans h.idleTTL⟩
  intro j
  rw [h'.find, h.find, hkey]
  split <;> rfl

/-- A key that has a window keeps one. -/
theorem Put.find_isSome {l l' : MemoryLimiter} {w : Window} (h : Put l w l') {key : String}
    (hkey : w.key = key ∨ (l.find key).isSome) : (l'.find key).isSome := by
  rw [h.find]
  split
  · rfl
  · rename_i hne
    exact hkey.resolve_left hne

namespace MemoryLimiter

variable {l : MemoryLimiter}

theorem mem_lru (h : Linked l) {key : String} : key ∈ l.lru ↔ ∃ w, l.find key = some w := by
  rw [h.2.mem_iff, ← Option.isSome_iff_exists, find, Table.find_isSome_iff, List.mem_map]

theorem find_key {key : String} {w : Window} (h : l.find key = some w) : w.key = key :=
  (Table.mem_of_find h).2

/-- The window that `touch` starts from. -/
def current (l : MemoryLimiter) (key : String) : Window := (l.find key).getD ⟨key, [], 0, 0, 0⟩

theorem current_key (l : MemoryLimiter) (key : String) : (l.current key).key = key := by
  rw [current]
  cases h : l.find key with
  | none => rfl
  | some w => exact find_key h

/-- The window that a dimension is resolved to. -/
def resolved (l : MemoryLimiter) (d : Dimension) (now : Int) : Window :=
  { l.current d.key with lastAccess := now, dur := d.window }

@[simp] theorem resolved_key (l : MemoryLimiter) (d : Dimension) (now : Int) :
    (l.resolved d now).key = d.key :=
  l.current_key d.key

theorem modify_put {key : String} {f : Window → Window} (hf : ∀ w, (f w).key = w.key) {w : Window}
    (h : l.find key = some w) : Put l (f w) (l.modify key f) := by
  refine ⟨?_, ?_, rfl, rfl⟩
  · rintro ⟨hkeyed, hlru⟩
    refine ⟨hkeyed.modify hf, ?_⟩
    rw [modify, Table.map_modify hf]
    exact hlru
  · intro j
    rw [hf, find_key h]
    exact Table.find_modify_of_find hf h j

theorem touch_put (key : String) (now : Int) :
    Put l { l.current key with lastAccess := now } (l.touch key now) := by
  rw [touch, current]
  cases h : l.find key with
  | none =>
    have habsent := Table.find_eq_none_iff.mp h
    refine ⟨?_, ?_, rfl, rfl⟩
    · rintro ⟨hkeyed, hlru⟩
      refine ⟨hkeyed.append habsent, ?_⟩
      rw [List.map_append]
      exact (hlru.cons key).trans (List.perm_append_singleton ..).symm
    · intro j
      simp only [find, Option.getD_none]
      rw [Table.find_append]
      split
      · rename_i heq
        subst heq
        have hnone : Table.find Window.key key l.counters = none := h
        rw [hnone]
        simp [Table.find]
      · rename_i hne
        simp [Table.find, hne]
  | some w =>
    have hput := modify_put (f := fun w ↦ { w with lastAccess := now }) (fun _ ↦ rfl) h
    refine ⟨?_, hput.find, rfl, rfl⟩
    intro hlinked
    obtain ⟨hkeyed, hlru⟩ := hput.linked hlinked
    refine ⟨hkeyed, ?_⟩
    have hmem : key ∈ l.lru := (mem_lru hlinked).mpr ⟨w, h⟩
    exact (List.perm_cons_erase hmem).symm.trans hlru

/-- `touch`, and then a change of the window. -/
theorem update_put (key : String) (now : Int) {f : Window → Window} (hf : ∀ w, (f w).key = w.key) :
    Put l (f { l.current key with lastAccess := now }) ((l.touch key now).modify key f) := by
  have htouch := touch_put (l := l) key now
  have hfind : (l.touch key now).find key = some { l.current key with lastAccess := now } := by
    rw [htouch.find, if_pos (l.current_key key)]
  exact htouch.trans (modify_put hf hfind) (hf _)

theorem removeElem_linked (h : Linked l) (key : String) : Linked (l.removeElem key) := by
  refine ⟨h.1.filter _, ?_⟩
  have hkeys : (l.counters.filter fun w ↦ w.key ≠ key).map Window.key =
      (l.counters.map Window.key).erase key := by
    rw [List.Nodup.erase_eq_filter h.1, List.filter_map]
    congr 1
    refine List.filter_congr fun w _ ↦ ?_
    by_cases hw : w.key = key
    · simp [hw]
    · simp [hw]
  exact hkeys ▸ h.2.erase key

theorem removeElem_find (l : MemoryLimiter) (key j : String) :
    (l.removeElem key).find j = if key = j then none else l.find j := by
  rw [find, removeElem, Table.find, List.find?_filter]
  split
  · rename_i heq
    subst heq
    refine List.find?_eq_none.mpr fun w _ ↦ ?_
    simp
  · rename_i hne
    rw [find, Table.find]
    congr 1
    funext w
    by_cases hw : w.key = j
    · simp [hw, Ne.symm hne]
    · simp [hw]

theorem capacity_eq (h : l.counters.length ≤ l.maxCounters) : l.capacity = l := by
  rw [capacity]
  cases l.lru.reverse with
  | nil => rfl
  | cons key keys => rw [capacityLoop, if_neg (by omega)]

/-- A rejection rejects. -/
theorem allowLoop_ok {now n : Int} {ds : List Dimension} {rejection : Decision}
    (h : (l.allowLoop now n ds).2 = some rejection) : rejection.ok = false := by
  induction ds generalizing l with
  | nil => cases h
  | cons d ds ih =>
    rw [allowLoop] at h
    split at h
    · cases h
    · split at h
      · cases h
        rfl
      · exact ih h

/-- Only a call that goes through evicts. -/
theorem allowWith_eq (l : MemoryLimiter) (evict : MemoryLimiter → Int → MemoryLimiter) (now : Int)
    (ds : List Dimension) (n : Int) :
    l.allowWith evict now ds n =
      ((l.allowWith (fun l _ ↦ l) now ds n).1,
        if (l.allowWith (fun l _ ↦ l) now ds n).1.ok then
          evict (l.allowWith (fun l _ ↦ l) now ds n).2 now
        else (l.allowWith (fun l _ ↦ l) now ds n).2) := by
  have hok : ∀ rejection, (l.allowLoop now n ds).2 = some rejection → rejection.ok = false :=
    fun _ ↦ allowLoop_ok
  rw [allowWith, allowWith]
  generalize l.allowLoop now n ds = outcome at hok
  obtain ⟨l', _ | rejection⟩ := outcome
  · rfl
  · simp [hok rejection rfl]

theorem debitWith_eq (l : MemoryLimiter) (evict : MemoryLimiter → Int → MemoryLimiter) (now : Int)
    (ds : List Dimension) (n : Int) :
    l.debitWith evict now ds n =
      if n = 0 then l.debitWith (fun l _ ↦ l) now ds n
      else evict (l.debitWith (fun l _ ↦ l) now ds n) now := by
  rw [debitWith, debitWith]
  split <;> rfl

end MemoryLimiter

/-- The events that are stored for a key. -/
def MemoryLimiter.events (l : MemoryLimiter) (key : String) : List Event := (l.current key).events

theorem MemoryLimiter.events_of_find {l : MemoryLimiter} {key : String} {w : Window}
    (h : l.find key = some w) : l.events key = w.events := by
  rw [events, current, h]
  rfl

theorem Put.events {l l' : MemoryLimiter} {w : Window} (h : Put l w l') (key : String) :
    l'.events key = if w.key = key then w.events else l.events key := by
  rw [MemoryLimiter.events, MemoryLimiter.events, MemoryLimiter.current,
    MemoryLimiter.current, h.find]
  split <;> rfl

/-! ## The simulation -/

/-- **The limiter stands for the ledger** at the instant `now`.  What it has dropped of a key has
left the window.  `windowOf` is the length of the window of each key. -/
structure Sim (windowOf : String → Int) (ledger : Ledger) (now : Int) (l : MemoryLimiter) :
    Prop where
  linked : Linked l
  sum : ∀ key w, l.find key = some w → w.sum = int64 (total w.events)
  dur : ∀ key w, l.find key = some w → w.dur = windowOf key
  stored : ∀ key, ∃ dropped, ledger key = dropped ++ l.events key ∧
    ∀ ev ∈ dropped, ev.time ≤ now - windowOf key
  sorted : ∀ key, (ledger key).Pairwise fun a b ↦ a.time ≤ b.time
  past : ∀ key, ∀ ev ∈ ledger key, ev.time ≤ now

namespace Sim

variable {windowOf : String → Int} {ledger : Ledger} {now now' : Int} {l l' : MemoryLimiter}

theorem current_sum (h : Sim windowOf ledger now l) (key : String) :
    (l.current key).sum = int64 (total (l.events key)) := by
  rw [MemoryLimiter.events, MemoryLimiter.current]
  cases hfind : l.find key with
  | none => rfl
  | some w => exact h.sum key w hfind

theorem mono (h : Sim windowOf ledger now l) (hle : now ≤ now') : Sim windowOf ledger now' l := by
  refine { h with stored := ?_, past := ?_ }
  · intro key
    obtain ⟨dropped, heq, hdropped⟩ := h.stored key
    refine ⟨dropped, heq, fun ev hev ↦ ?_⟩
    have := hdropped ev hev
    omega
  · intro key ev hev
    have := h.past key ev hev
    omega

/-- What is stored is sorted. -/
theorem events_sorted (h : Sim windowOf ledger now l) (key : String) :
    (l.events key).Pairwise fun a b ↦ a.time ≤ b.time := by
  obtain ⟨dropped, heq, -⟩ := h.stored key
  have hsorted := h.sorted key
  rw [heq] at hsorted
  exact (List.pairwise_append.mp hsorted).2.1

/-- **What is live in the ledger is what is stored and not pruned.** -/
theorem live_eq (h : Sim windowOf ledger now l) (key : String) :
    ledger.live key now (windowOf key) =
      (l.events key).dropWhile fun ev ↦ ev.time ≤ now - windowOf key := by
  obtain ⟨dropped, heq, hdropped⟩ := h.stored key
  have hnone : dropped.filter (fun ev ↦ now - windowOf key < ev.time) = [] := by
    refine List.filter_eq_nil_iff.mpr fun ev hev ↦ ?_
    have := hdropped ev hev
    simp only [decide_eq_true_eq]
    omega
  rw [Ledger.live, heq, List.filter_append, hnone, List.nil_append,
    dropWhile_eq_filter (h.events_sorted key)]

/-- **The window of one key changes.**  It keeps its length and the sum of its events, and it stands
for what the ledger has for the key. -/
theorem put (h : Sim windowOf ledger now l) {w : Window} (hput : Put l w l')
    (hsum : w.sum = int64 (total w.events)) (hdur : w.dur = windowOf w.key) {ledger' : Ledger}
    (hother : ∀ key, key ≠ w.key → ledger' key = ledger key)
    (hstored : ∃ dropped, ledger' w.key = dropped ++ w.events ∧
      ∀ ev ∈ dropped, ev.time ≤ now - windowOf w.key)
    (hsorted : (ledger' w.key).Pairwise fun a b ↦ a.time ≤ b.time)
    (hpast : ∀ ev ∈ ledger' w.key, ev.time ≤ now) : Sim windowOf ledger' now l' := by
  refine ⟨hput.linked h.linked, ?_, ?_, ?_, ?_, ?_⟩
  · intro key w' hfind
    rw [hput.find] at hfind
    split at hfind
    · cases hfind
      exact hsum
    · exact h.sum key w' hfind
  · intro key w' hfind
    rw [hput.find] at hfind
    split at hfind
    · rename_i heq
      cases hfind
      rw [← heq]
      exact hdur
    · exact h.dur key w' hfind
  · intro key
    rw [hput.events]
    split
    · rename_i heq
      rw [← heq]
      exact hstored
    · rename_i hne
      rw [hother key (Ne.symm hne)]
      exact h.stored key
  · intro key
    by_cases heq : key = w.key
    · rw [heq]
      exact hsorted
    · rw [hother key heq]
      exact h.sorted key
  · intro key
    by_cases heq : key = w.key
    · rw [heq]
      exact hpast
    · rw [hother key heq]
      exact h.past key

/-- A window is brought up to date. -/
theorem prune (h : Sim windowOf ledger now l) {w : Window} (hput : Put l (w.prune now w.dur) l')
    (hevents : w.events = l.events w.key) (hsum : w.sum = int64 (total w.events))
    (hdur : w.dur = windowOf w.key) : Sim windowOf ledger now l' := by
  have hprune : w.prune now w.dur =
      { w with events := ledger.live w.key now w.dur,
               sum := int64 (total (ledger.live w.key now w.dur)) } := by
    rw [Window.prune, hsum, pruneLoop_eq, hdur, h.live_eq, hevents]
  rw [hprune] at hput
  refine h.put hput rfl hdur (fun _ _ ↦ rfl) ?_ (h.sorted _) (h.past _)
  -- The events that are dropped now follow the events that were dropped before.
  obtain ⟨dropped, heq, hdropped⟩ := h.stored w.key
  refine ⟨dropped ++ (l.events w.key).takeWhile (fun ev ↦ ev.time ≤ now - windowOf w.key), ?_, ?_⟩
  · rw [hdur, h.live_eq, List.append_assoc, List.takeWhile_append_dropWhile]
    exact heq
  · refine List.forall_mem_append.mpr ⟨hdropped, fun ev hev ↦ ?_⟩
    simpa using List.mem_takeWhile_imp hev

/-- A window is charged. -/
theorem charge (h : Sim windowOf ledger now l) {w : Window} {n : Int}
    (hput : Put l (w.charge now n) l') (hevents : w.events = l.events w.key)
    (hsum : w.sum = int64 (total w.events)) (hdur : w.dur = windowOf w.key) :
    Sim windowOf (ledger.charge w.key ⟨now, n⟩) now l' := by
  have hkey : (w.charge now n).key = w.key := rfl
  have hcharged : ledger.charge w.key ⟨now, n⟩ w.key = ledger w.key ++ [⟨now, n⟩] := if_pos rfl
  refine h.put hput ?_ hdur (fun key hne ↦ if_neg hne) ?_ ?_ ?_
  · rw [Window.charge, hsum, int64_add, total_append]
    simp [total]
  · obtain ⟨dropped, heq, hdropped⟩ := h.stored w.key
    refine ⟨dropped, ?_, hdropped⟩
    rw [hkey, hcharged, heq, ← hevents, Window.charge, List.append_assoc]
  · rw [hkey, hcharged, List.pairwise_append]
    refine ⟨h.sorted w.key, List.pairwise_singleton .., ?_⟩
    intro a ha b hb
    rw [List.mem_singleton.mp hb]
    exact h.past w.key a ha
  · rw [hkey, hcharged]
    refine List.forall_mem_append.mpr ⟨h.past w.key, fun ev hev ↦ ?_⟩
    rw [List.mem_singleton.mp hev]

/-! ### The loops -/

section Loops

variable {n : Int} {d : Dimension} {ds : List Dimension}

/-- The window that is resolved for a dimension. -/
theorem resolve_put (h : Sim windowOf ledger now l) (d : Dimension) (now' : Int) :
    ∃ w : Window, w.key = d.key ∧ w.dur = d.window ∧ w.events = l.events w.key ∧
      w.sum = int64 (total w.events) ∧ Put l (w.prune now' w.dur) (l.resolve d now') ∧
      ∀ n, Put l (w.charge now' n) (l.record n now' d) := by
  refine ⟨l.resolved d now', l.resolved_key d now', rfl, ?_, h.current_sum d.key, ?_, fun n ↦ ?_⟩
  · rw [l.resolved_key d now']
    rfl
  · exact MemoryLimiter.update_put (f := fun w ↦ { w with dur := d.window }.prune now' d.window)
      d.key now' fun _ ↦ rfl
  · exact MemoryLimiter.update_put (f := fun w ↦ { w with dur := d.window }.charge now' n)
      d.key now' fun _ ↦ rfl

/-- The window of a dimension is brought up to date. -/
theorem resolve (h : Sim windowOf ledger now l) (hd : d.window = windowOf d.key) :
    Sim windowOf ledger now (l.resolve d now) ∧
      ∃ w, (l.resolve d now).find d.key = some w ∧ w.events = ledger.live d.key now d.window ∧
        w.sum = int64 (total (ledger.live d.key now d.window)) := by
  obtain ⟨w, hkey, hdur, hevents, hsum, hput, -⟩ := h.resolve_put d now
  have hwindow : w.dur = windowOf w.key := by rw [hdur, hkey, hd]
  refine ⟨h.prune hput hevents hsum hwindow, w.prune now w.dur, ?_, ?_⟩
  · rw [hput.find]
    exact if_pos hkey
  · have hprune : w.prune now w.dur =
        { w with events := ledger.live w.key now w.dur,
                 sum := int64 (total (ledger.live w.key now w.dur)) } := by
      rw [Window.prune, hsum, pruneLoop_eq, hwindow, h.live_eq, hevents]
    rw [hprune, hkey, hdur]
    exact ⟨rfl, rfl⟩

/-- The window of a dimension is charged. -/
theorem record (h : Sim windowOf ledger now l) (hd : d.window = windowOf d.key) (n : Int) :
    Sim windowOf (ledger.charge d.key ⟨now, n⟩) now (l.record n now d) := by
  obtain ⟨w, hkey, hdur, hevents, hsum, -, hput⟩ := h.resolve_put d now
  have hsim := h.charge (hput n) hevents hsum (by rw [hdur, hkey, hd])
  rw [hkey] at hsim
  exact hsim

theorem debitLoop (h : Sim windowOf ledger now l) (hds : ∀ d ∈ ds, d.window = windowOf d.key)
    (n : Int) : Sim windowOf (ledger.chargeAll now n ds) now (l.debitLoop now n ds) := by
  induction ds generalizing l ledger with
  | nil => exact h
  | cons d ds ih =>
    obtain ⟨hd, hds⟩ := List.forall_mem_cons.mp hds
    exact ih (h.record hd n) hds

/-- **The loop of `Allow` answers what the ledger answers.**  If it goes through, there is a window
for every dimension. -/
theorem allowLoop (h : Sim windowOf ledger now l) (hds : ∀ d ∈ ds, d.window = windowOf d.key)
    (n : Int) :
    Sim windowOf ledger now (l.allowLoop now n ds).1 ∧
      (l.allowLoop now n ds).2 = ledger.judge now n ds ∧
      ((l.allowLoop now n ds).2 = none → ∀ key, (l.find key).isSome ∨ (∃ d ∈ ds, d.key = key) →
        ((l.allowLoop now n ds).1.find key).isSome) := by
  induction ds generalizing l with
  | nil => exact ⟨h, rfl, fun _ key hkey ↦ hkey.resolve_right (by simp)⟩
  | cons d ds ih =>
    obtain ⟨hd, hds⟩ := List.forall_mem_cons.mp hds
    obtain ⟨hsim, w, hfind, hevents, hsum⟩ := h.resolve hd
    obtain ⟨w', hkey', -, -, -, hput, -⟩ := h.resolve_put d now
    obtain ⟨hloop, hjudge, hpresent⟩ := ih hsim hds
    simp only [MemoryLimiter.allowLoop, hfind, Ledger.judge, hevents, hsum]
    split
    · exact ⟨hsim, rfl, fun hnone ↦ by cases hnone⟩
    · refine ⟨hloop, hjudge, fun hnone key hkey ↦ hpresent hnone key ?_⟩
      rcases hkey with hkey | ⟨d', hd', hkey⟩
      · exact .inl (hput.find_isSome (.inr hkey))
      · rcases List.mem_cons.mp hd' with rfl | hd'
        · exact .inl (hput.find_isSome (.inl (hkey'.trans hkey)))
        · exact .inr ⟨d', hd', hkey⟩

/-- The windows that were resolved are charged. -/
theorem chargeAll (h : Sim windowOf ledger now l) (hds : ∀ d ∈ ds, (l.find d.key).isSome)
    (n : Int) : Sim windowOf (ledger.chargeAll now n ds) now (l.chargeAll now n ds) := by
  induction ds generalizing l ledger with
  | nil => exact h
  | cons d ds ih =>
    obtain ⟨hd, hds⟩ := List.forall_mem_cons.mp hds
    obtain ⟨w, hw⟩ := Option.isSome_iff_exists.mp hd
    have hkey : w.key = d.key := MemoryLimiter.find_key hw
    have hput := MemoryLimiter.modify_put (f := fun w ↦ w.charge now n) (fun _ ↦ rfl) hw
    have hevents : w.events = l.events w.key := by
      rw [hkey, MemoryLimiter.events_of_find hw]
    have hsim := h.charge hput hevents (h.sum d.key w hw) (by rw [hkey]; exact h.dur d.key w hw)
    rw [hkey] at hsim
    exact ih hsim fun d' hd' ↦ hput.find_isSome (.inr (hds d' hd'))

end Loops

/-! ### Eviction -/

/-- A window without events may go. -/
theorem removeElem (h : Sim windowOf ledger now l) {key : String} (hnone : l.events key = []) :
    Sim windowOf ledger now (l.removeElem key) := by
  refine { h with
    linked := MemoryLimiter.removeElem_linked h.linked key, sum := ?_, dur := ?_, stored := ?_ }
  · intro j w hfind
    rw [MemoryLimiter.removeElem_find] at hfind
    split at hfind
    · cases hfind
    · exact h.sum j w hfind
  · intro j w hfind
    rw [MemoryLimiter.removeElem_find] at hfind
    split at hfind
    · cases hfind
    · exact h.dur j w hfind
  · intro j
    have hevents : (l.removeElem key).events j = l.events j := by
      rw [MemoryLimiter.events, MemoryLimiter.current, MemoryLimiter.removeElem_find]
      split
      · rename_i hkey
        rw [← hkey, hnone]
        rfl
      · rfl
    rw [hevents]
    exact h.stored j

/-- **The idle sweep drops nothing that is live.** -/
theorem sweepLoop (h : Sim windowOf ledger now l) (keys : List String) :
    Sim windowOf ledger now (l.sweepLoop now keys) := by
  induction keys generalizing l with
  | nil => exact h
  | cons key keys ih =>
    rw [MemoryLimiter.sweepLoop]
    split
    · exact h
    · rename_i w hfind
      have hkey : w.key = key := MemoryLimiter.find_key hfind
      have hput := MemoryLimiter.modify_put (f := fun w ↦ w.prune now w.dur) (fun _ ↦ rfl) hfind
      have hevents : w.events = l.events w.key := by
        rw [hkey, MemoryLimiter.events_of_find hfind]
      have hsim := h.prune hput hevents (h.sum key w hfind) (by rw [hkey]; exact h.dur key w hfind)
      split
      · exact h
      · dsimp only
        split
        · exact hsim
        · rename_i hempty
          refine ih (hsim.removeElem ?_)
          rw [hput.events, if_pos (by exact hkey)]
          simpa using hempty

/-- **Eviction**, when there is room. -/
theorem evictIfNeeded (h : Sim windowOf ledger now l)
    (hroom : (l.sweep now).counters.length ≤ (l.sweep now).maxCounters) :
    Sim windowOf ledger now (l.evictIfNeeded now) := by
  rw [MemoryLimiter.evictIfNeeded, MemoryLimiter.capacity_eq hroom]
  exact h.sweepLoop _

/-! ### Whole calls -/

section Calls

variable {n : Int} {ds : List Dimension}

/-- `Allow` up to the eviction. -/
theorem allowWith (h : Sim windowOf ledger now l) (hds : ∀ d ∈ ds, d.window = windowOf d.key)
    (n : Int) :
    (l.allowWith (fun l _ ↦ l) now ds n).1 = (ledger.allow now ds n).1 ∧
      Sim windowOf (ledger.allow now ds n).2 now (l.allowWith (fun l _ ↦ l) now ds n).2 := by
  obtain ⟨hloop, hjudge, hpresent⟩ := h.allowLoop hds n
  rw [MemoryLimiter.allowWith, Ledger.allow, ← hjudge]
  generalize l.allowLoop now n ds = outcome at hloop hpresent
  obtain ⟨l', _ | rejection⟩ := outcome
  · refine ⟨rfl, ?_⟩
    dsimp only
    split
    · exact hloop.chargeAll (fun d hd ↦ hpresent rfl d.key (.inr ⟨d, hd, rfl⟩)) n
    · exact hloop
  · exact ⟨rfl, hloop⟩

/-- `Debit` up to the eviction. -/
theorem debitWith (h : Sim windowOf ledger now l) (hds : ∀ d ∈ ds, d.window = windowOf d.key)
    (n : Int) :
    Sim windowOf (ledger.debit now ds n) now (l.debitWith (fun l _ ↦ l) now ds n) := by
  rw [MemoryLimiter.debitWith, Ledger.debit]
  split
  · exact h
  · exact h.debitLoop hds n

end Calls

end Sim

end Ratelimit

end Voxeltoad
