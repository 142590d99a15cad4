import Mathlib.Data.List.Perm.Basic
import Mathlib.Logic.Function.Basic
import Voxeltoad.Billing.Period
import Voxeltoad.Lib.Assoc
import Voxeltoad.Lib.Run

/-!
# The circuit breaker

`internal/proxy/breaker.go`.  An endpoint is closed, open or half-open, and all three are encoded in
a counter and one time stamp: failures are counted only while the stamp is zero, the failure that
reaches the threshold sets it, and a failure after the cooldown sets it again.

What this comes to over a whole history of calls is `breaker_history`.  A failure *trips* an
endpoint when the endpoint was healthy right before it and it was at least the threshold-th since
the last success (`Trips`); an endpoint is unhealthy as long as the cooldown of such a failure runs.
-/

set_option autoImplicit false

namespace Voxeltoad

/-- `EndpointKey`: the unit of forwarding and circuit breaking. -/
structure EndpointKey where
  provider : String
  endpoint : String
  deriving DecidableEq, Repr

/-- `EndpointKey.String`. -/
def EndpointKey.string (key : EndpointKey) : String := key.provider ++ "/" ++ key.endpoint

/-- `breakerState`: `openedAt` is the zero time while the breaker is closed. -/
structure BreakerState where
  failures : Int
  openedAt : Time
  deriving DecidableEq, Repr

/-- `circuitBreaker`.  `states` are the entries of its map. -/
structure CircuitBreaker where
  failureThreshold : Int
  cooldown : Int
  states : List (EndpointKey × BreakerState)
  deriving DecidableEq, Repr

/-- `newCircuitBreaker`: five failures and thirty seconds, where the configuration says nothing. -/
def newCircuitBreaker (failureThreshold cooldown : Int) : CircuitBreaker where
  failureThreshold := if failureThreshold ≤ 0 then 5 else failureThreshold
  cooldown := if cooldown ≤ 0 then 30 * second else cooldown
  states := []

/-- What `States` says of an endpoint. -/
inductive BreakerView where
  | closed
  | opened
  | halfOpen
  deriving DecidableEq, Repr

namespace CircuitBreaker

variable (b : CircuitBreaker)

/-- **`Healthy`.** -/
def healthy (now : Time) (key : EndpointKey) : Bool :=
  match b.states.lookup key with
  | none => true
  | some s => s.openedAt = zeroTime ∨ b.cooldown ≤ now - s.openedAt

/-- `stateFor`: an endpoint that is not in the map is in the zero state. -/
def stateFor (key : EndpointKey) : BreakerState := (b.states.lookup key).getD ⟨0, zeroTime⟩

/-- Write the state of one endpoint. -/
def set (key : EndpointKey) (s : BreakerState) : CircuitBreaker :=
  { b with states := Assoc.put key s b.states }

/-- **`MarkFailure`.**  While the breaker is open the clock is read twice: `check` is compared with
the cooldown, and `stamp` is what is recorded. -/
def markFailure (check stamp : Time) (key : EndpointKey) : CircuitBreaker :=
  let s := b.stateFor key
  if s.openedAt ≠ zeroTime then
    -- A failed half-open trial restarts the cooldown.
    if b.cooldown ≤ check - s.openedAt then b.set key { s with openedAt := stamp } else b
  else
    b.set key ⟨s.failures + 1,
      if b.failureThreshold ≤ s.failures + 1 then stamp else s.openedAt⟩

/-- **`MarkSuccess`.** -/
def markSuccess (key : EndpointKey) : CircuitBreaker := b.set key ⟨0, zeroTime⟩

/-- One entry of `States`. -/
def view (now : Time) (s : BreakerState) : BreakerView :=
  if s.openedAt = zeroTime then .closed
  else if now - s.openedAt < b.cooldown then .opened
  else .halfOpen

/-- **`States`**, when the map is enumerated as `entries`. -/
def viewStates (now : Time) (entries : List (EndpointKey × BreakerState)) :
    String → Option BreakerView :=
  entries.foldl (fun out e ↦ Function.update out e.1.string (some (b.view now e.2))) fun _ ↦ none

/-! ## One call -/

variable {b}

theorem stateFor_set (key k : EndpointKey) (s : BreakerState) :
    (b.set key s).stateFor k = if k = key then s else b.stateFor k := by
  rw [stateFor, set, Assoc.lookup_put]
  split <;> rfl

/-- Health is read off the state. -/
theorem healthy_eq (now : Time) (key : EndpointKey) :
    b.healthy now key = decide ((b.stateFor key).openedAt = zeroTime ∨
      b.cooldown ≤ now - (b.stateFor key).openedAt) := by
  rw [healthy, stateFor]
  cases b.states.lookup key <;> simp

theorem healthy_eq_true {now : Time} {key : EndpointKey} :
    b.healthy now key = true ↔ (b.stateFor key).openedAt = zeroTime ∨
      b.cooldown ≤ now - (b.stateFor key).openedAt := by
  rw [healthy_eq, decide_eq_true_eq]

theorem healthy_eq_false {now : Time} {key : EndpointKey} :
    b.healthy now key = false ↔ (b.stateFor key).openedAt ≠ zeroTime ∧
      now - (b.stateFor key).openedAt < b.cooldown := by
  rw [healthy_eq, decide_eq_false_iff_not, not_or, Int.not_le]

theorem view_eq_opened {now : Time} {s : BreakerState} :
    b.view now s = .opened ↔ s.openedAt ≠ zeroTime ∧ now - s.openedAt < b.cooldown := by
  rw [view]
  split
  · rename_i hzero
    simp [hzero]
  · rename_i hzero
    split
    · rename_i hlt
      exact ⟨fun _ ↦ ⟨hzero, hlt⟩, fun _ ↦ rfl⟩
    · rename_i hlt
      simp [hlt]

end CircuitBreaker

/-! ## Histories -/

/-- A call that is recorded.  A failure comes with the two readings of the clock. -/
inductive BreakerCall where
  | failure (key : EndpointKey) (check stamp : Time)
  | success (key : EndpointKey)
  deriving DecidableEq, Repr

namespace BreakerCall

def key : BreakerCall → EndpointKey
  | failure key _ _ => key
  | success key => key

/-- What the call reads from the clock. -/
def readings : BreakerCall → List Time
  | failure _ check stamp => [check, stamp]
  | success _ => []

end BreakerCall

/-- One call. -/
def CircuitBreaker.call (b : CircuitBreaker) : BreakerCall → CircuitBreaker
  | .failure key check stamp => b.markFailure check stamp key
  | .success key => b.markSuccess key

/-- The breaker after a history of calls. -/
def CircuitBreaker.after (b : CircuitBreaker) (h : List BreakerCall) : CircuitBreaker :=
  Run.run CircuitBreaker.call b h

/-- What is read from the clock in a history, in order. -/
def clockOf (h : List BreakerCall) : List Time := h.flatMap BreakerCall.readings

/-- One more call, as far as the failures of `k` are counted. -/
def countFailure (k : EndpointKey) (n : Int) : BreakerCall → Int
  | .failure key _ _ => if key = k then n + 1 else n
  | .success key => if key = k then 0 else n

/-- The number of failures of `k` since its last success, or since the start. -/
def failuresSince (k : EndpointKey) (h : List BreakerCall) : Int := h.foldl (countFailure k) 0

/-- **A failure that trips `k`**: no success of `k` came after it, `k` was healthy right before it,
and it was at least the threshold-th since the last success. -/
def Trips (b : CircuitBreaker) (h : List BreakerCall) (k : EndpointKey) (s : Time) : Prop :=
  ∃ past check rest, h = past ++ .failure k check s :: rest ∧ .success k ∉ rest ∧
    (b.after past).healthy check k = true ∧ b.failureThreshold ≤ failuresSince k past + 1

section History

variable {b : CircuitBreaker} {h : List BreakerCall} {k : EndpointKey}

theorem after_concat (b : CircuitBreaker) (h : List BreakerCall) (c : BreakerCall) :
    b.after (h ++ [c]) = (b.after h).call c :=
  Run.run_concat _ b h c

theorem call_config (b : CircuitBreaker) (c : BreakerCall) :
    (b.call c).failureThreshold = b.failureThreshold ∧ (b.call c).cooldown = b.cooldown := by
  cases c with
  | success key => exact ⟨rfl, rfl⟩
  | failure key check stamp =>
    simp only [CircuitBreaker.call, CircuitBreaker.markFailure]
    split
    · split <;> exact ⟨rfl, rfl⟩
    · exact ⟨rfl, rfl⟩

/-- The configuration does not change. -/
theorem after_config (b : CircuitBreaker) (h : List BreakerCall) :
    (b.after h).failureThreshold = b.failureThreshold ∧ (b.after h).cooldown = b.cooldown :=
  Run.invariant (I := fun b' ↦ b'.failureThreshold = b.failureThreshold ∧ b'.cooldown = b.cooldown)
    (fun b' c hI ↦ ⟨(call_config b' c).1.trans hI.1, (call_config b' c).2.trans hI.2⟩) h ⟨rfl, rfl⟩

theorem stateFor_markFailure (b : CircuitBreaker) (check stamp : Time) (key k : EndpointKey) :
    (b.markFailure check stamp key).stateFor k =
      if k = key then
        if (b.stateFor key).openedAt ≠ zeroTime then
          if b.cooldown ≤ check - (b.stateFor key).openedAt then
            { b.stateFor key with openedAt := stamp }
          else b.stateFor key
        else ⟨(b.stateFor key).failures + 1,
          if b.failureThreshold ≤ (b.stateFor key).failures + 1 then stamp else zeroTime⟩
      else b.stateFor k := by
  rw [CircuitBreaker.markFailure]
  by_cases hzero : (b.stateFor key).openedAt = zeroTime
  · simp only [hzero, ne_eq, not_true_eq_false, if_false, CircuitBreaker.stateFor_set]
  · simp only [ne_eq, hzero, not_false_eq_true, if_true]
    split
    · rw [CircuitBreaker.stateFor_set]
    · split
      · rename_i hk
        rw [hk]
      · rfl

/-- A call leaves the other endpoints alone. -/
theorem stateFor_call_of_ne (b : CircuitBreaker) {c : BreakerCall} (hne : c.key ≠ k) :
    (b.call c).stateFor k = b.stateFor k := by
  cases c with
  | failure key check stamp =>
    exact (stateFor_markFailure b check stamp key k).trans (if_neg (Ne.symm hne))
  | success key => exact (CircuitBreaker.stateFor_set key k _).trans (if_neg (Ne.symm hne))

/-! ### The failures that trip an endpoint -/

theorem trips_nil (s : Time) : ¬ Trips b [] k s := by
  rintro ⟨past, check, rest, heq, -⟩
  simp at heq

/-- One more call: it ends what tripped the endpoint before, or trips it itself. -/
theorem trips_concat (c : BreakerCall) (s : Time) :
    Trips b (h ++ [c]) k s ↔
      (c ≠ .success k ∧ Trips b h k s) ∨
        ∃ check, c = .failure k check s ∧ (b.after h).healthy check k = true ∧
          b.failureThreshold ≤ failuresSince k h + 1 := by
  constructor
  · rintro ⟨past, check, rest, heq, hrest, hhealthy, hcount⟩
    rcases List.eq_nil_or_concat rest with rfl | ⟨rest, d, rfl⟩
    · obtain ⟨rfl, hlast⟩ := List.append_inj' heq rfl
      exact .inr ⟨check, (List.cons.inj hlast).1, hhealthy, hcount⟩
    · rw [List.concat_eq_append, ← List.cons_append, ← List.append_assoc] at heq
      obtain ⟨rfl, hlast⟩ := List.append_inj' heq rfl
      have hd : c = d := (List.cons.inj hlast).1
      simp only [List.concat_eq_append, List.mem_append, List.mem_singleton, not_or] at hrest
      exact .inl ⟨hd ▸ Ne.symm hrest.2, past, check, rest, rfl, hrest.1, hhealthy, hcount⟩
  · rintro (⟨hne, past, check, rest, rfl, hrest, hhealthy, hcount⟩ | ⟨check, rfl, hhealthy, hcount⟩)
    · refine ⟨past, check, rest ++ [c], by simp, ?_, hhealthy, hcount⟩
      simp [hrest, Ne.symm hne]
    · exact ⟨h, check, [], rfl, List.not_mem_nil, hhealthy, hcount⟩

/-- What tripped an endpoint was read from the clock. -/
theorem mem_clockOf_of_trips {s : Time} (hs : Trips b h k s) : s ∈ clockOf h := by
  obtain ⟨past, check, rest, rfl, -⟩ := hs
  simp [clockOf, BreakerCall.readings]

/-! ### What the state says about the history -/

/-- The state of `k` after a history: closed, with the failures counted and nothing that trips it,
or open since the last failure that did. -/
inductive Tracks (b : CircuitBreaker) (h : List BreakerCall) (k : EndpointKey) : BreakerState → Prop
  | closed {n : Int} (hcount : n = failuresSince k h) (hlt : n < b.failureThreshold)
      (hnone : ∀ s, ¬ Trips b h k s) : Tracks b h k ⟨n, zeroTime⟩
  | opened {n : Int} {s : Time} (hzero : s ≠ zeroTime)
      (hcount : b.failureThreshold ≤ failuresSince k h) (hs : Trips b h k s)
      (hlast : ∀ s', Trips b h k s' → s' ≤ s) : Tracks b h k ⟨n, s⟩

theorem failuresSince_concat (k : EndpointKey) (h : List BreakerCall) (c : BreakerCall) :
    failuresSince k (h ++ [c]) = countFailure k (failuresSince k h) c :=
  List.foldl_concat ..

theorem Tracks.other {st : BreakerState} (hst : Tracks b h k st) {c : BreakerCall}
    (hne : c.key ≠ k) : Tracks b (h ++ [c]) k st := by
  have hcount : failuresSince k (h ++ [c]) = failuresSince k h := by
    rw [failuresSince_concat]
    cases c with
    | failure key check stamp => exact if_neg hne
    | success key => exact if_neg hne
  have htrips : ∀ s, Trips b (h ++ [c]) k s ↔ Trips b h k s := by
    intro s
    rw [trips_concat]
    constructor
    · rintro (⟨-, hs⟩ | ⟨check, rfl, -⟩)
      · exact hs
      · exact absurd rfl hne
    · refine fun hs ↦ .inl ⟨?_, hs⟩
      rintro rfl
      exact hne rfl
  cases hst with
  | closed heq hlt hnone =>
    exact .closed (heq.trans hcount.symm) hlt fun s ↦ (htrips s).not.mpr (hnone s)
  | opened hzero hle hs hlast =>
    exact .opened hzero (hcount ▸ hle) ((htrips _).mpr hs) fun s' hs' ↦
      hlast s' ((htrips s').mp hs')

theorem Tracks.success (hpos : 0 < b.failureThreshold) :
    Tracks b (h ++ [.success k]) k ⟨0, zeroTime⟩ := by
  refine .closed ?_ hpos fun s hs ↦ ?_
  · rw [failuresSince_concat]
    exact (if_pos rfl).symm
  · rcases (trips_concat _ s).mp hs with ⟨hne, -⟩ | ⟨check, heq, -⟩
    · exact hne rfl
    · cases heq

/-- A failure that comes while `k` is healthy, late enough in its row, trips it. -/
theorem Tracks.tripped {check stamp : Time} (hzero : stamp ≠ zeroTime)
    (hclock : ∀ s ∈ clockOf h, s ≤ stamp) (hhealthy : (b.after h).healthy check k = true)
    (hcount : b.failureThreshold ≤ failuresSince k h + 1) (n : Int) :
    Tracks b (h ++ [.failure k check stamp]) k ⟨n, stamp⟩ := by
  refine .opened hzero ?_ ((trips_concat _ _).mpr (.inr ⟨check, rfl, hhealthy, hcount⟩)) ?_
  · rw [failuresSince_concat]
    exact le_of_le_of_eq hcount (if_pos rfl).symm
  · intro s' hs'
    rcases (trips_concat _ s').mp hs' with ⟨-, hs'⟩ | ⟨check', heq, -⟩
    · exact hclock s' (mem_clockOf_of_trips hs')
    · cases heq
      exact Int.le_refl _

theorem Tracks.failure {check stamp : Time} (hst : Tracks b h k ((b.after h).stateFor k))
    (hzero : stamp ≠ zeroTime) (hclock : ∀ s ∈ clockOf h, s ≤ stamp) :
    Tracks b (h ++ [.failure k check stamp]) k
      (((b.after h).markFailure check stamp k).stateFor k) := by
  have hconfig := after_config b h
  have hcount : failuresSince k (h ++ [.failure k check stamp]) = failuresSince k h + 1 := by
    rw [failuresSince_concat]
    exact if_pos rfl
  rw [stateFor_markFailure, if_pos rfl, hconfig.1, hconfig.2]
  cases hstate : (b.after h).stateFor k with
  | mk n openedAt =>
    rw [hstate] at hst
    cases hst with
    | closed heq hlt hnone =>
      rw [if_neg (by simp)]
      have hhealthy : (b.after h).healthy check k = true :=
        CircuitBreaker.healthy_eq_true.mpr (.inl (by rw [hstate]))
      by_cases hle : b.failureThreshold ≤ n + 1
      · rw [if_pos hle]
        exact Tracks.tripped hzero hclock hhealthy (heq ▸ hle) _
      · rw [if_neg hle]
        refine .closed (by rw [hcount, heq]) (Int.not_le.mp hle) fun s hs ↦ ?_
        rcases (trips_concat _ s).mp hs with ⟨-, hs⟩ | ⟨check', -, -, hle'⟩
        · exact hnone s hs
        · exact hle (heq ▸ hle')
    | opened hopen hle hs hlast =>
      rw [if_pos hopen]
      by_cases helapsed : b.cooldown ≤ check - openedAt
      · rw [if_pos helapsed]
        have hhealthy : (b.after h).healthy check k = true := by
          refine CircuitBreaker.healthy_eq_true.mpr (.inr ?_)
          rw [hstate, hconfig.2]
          exact helapsed
        exact Tracks.tripped hzero hclock hhealthy (by omega) _
      · -- A failure while the cooldown runs is ignored: `k` is not healthy before it.
        rw [if_neg helapsed]
        refine .opened hopen (by omega) ((trips_concat _ _).mpr (.inl ⟨by simp, hs⟩)) fun s' hs' ↦
          ?_
        rcases (trips_concat _ s').mp hs' with ⟨-, hs'⟩ | ⟨check', heq, hhealthy, -⟩
        · exact hlast s' hs'
        · cases heq
          rw [CircuitBreaker.healthy_eq_true, hstate, hconfig.2] at hhealthy
          exact absurd hhealthy (not_or.mpr ⟨hopen, helapsed⟩)

theorem clockOf_concat (h : List BreakerCall) (c : BreakerCall) :
    clockOf (h ++ [c]) = clockOf h ++ c.readings := by
  simp [clockOf]

/-- **The state of every endpoint tracks the history.** -/
theorem tracks_after (hpos : 0 < b.failureThreshold) (hstates : b.states = [])
    (hclock : (clockOf h).Pairwise (· ≤ ·)) (hzero : zeroTime ∉ clockOf h) (k : EndpointKey) :
    Tracks b h k ((b.after h).stateFor k) := by
  induction h using List.reverseRecOn with
  | nil =>
    have hstate : (b.after []).stateFor k = ⟨0, zeroTime⟩ := by
      rw [CircuitBreaker.after, Run.run_nil, CircuitBreaker.stateFor, hstates]
      rfl
    rw [hstate]
    exact .closed rfl hpos trips_nil
  | append_singleton h c ih =>
    rw [clockOf_concat] at hclock hzero
    obtain ⟨hclock, -, hlast⟩ := List.pairwise_append.mp hclock
    have hst := ih hclock fun hmem ↦ hzero (List.mem_append_left _ hmem)
    rw [after_concat]
    by_cases hkey : c.key = k
    · cases c with
      | failure key check stamp =>
        obtain rfl : key = k := hkey
        refine hst.failure ?_ fun s hs ↦ hlast s hs stamp (by simp [BreakerCall.readings])
        rintro rfl
        exact hzero (List.mem_append_right _ (by simp [BreakerCall.readings]))
      | success key =>
        obtain rfl : key = k := hkey
        rw [CircuitBreaker.call, CircuitBreaker.markSuccess,
          CircuitBreaker.stateFor_set, if_pos rfl]
        exact .success hpos
    · rw [stateFor_call_of_ne _ hkey]
      exact hst.other hkey

theorem Tracks.unhealthy_iff (hst : Tracks b h k ((b.after h).stateFor k)) (t : Time) :
    (b.after h).healthy t k = false ↔ ∃ s, Trips b h k s ∧ t - s < b.cooldown := by
  rw [CircuitBreaker.healthy_eq_false, (after_config b h).2]
  generalize (b.after h).stateFor k = st at hst ⊢
  cases hst with
  | closed heq hlt hnone =>
    refine ⟨fun hopen ↦ absurd rfl hopen.1, ?_⟩
    rintro ⟨s, hs, -⟩
    exact absurd hs (hnone s)
  | @opened n s hopen hle hs hlast =>
    refine ⟨fun ht ↦ ⟨s, hs, ht.2⟩, ?_⟩
    rintro ⟨s', hs', ht⟩
    exact ⟨hopen, Int.lt_of_le_of_lt (Int.sub_le_sub_left (hlast s' hs') t) ht⟩

/-! ### Other endpoints, and what is reported -/

/-- What a call does to an endpoint depends on nothing but the state of that endpoint. -/
theorem stateFor_call_congr {b b' : CircuitBreaker}
    (hthreshold : b.failureThreshold = b'.failureThreshold) (hcooldown : b.cooldown = b'.cooldown)
    (hstate : b.stateFor k = b'.stateFor k) (c : BreakerCall) :
    (b.call c).stateFor k = (b'.call c).stateFor k := by
  by_cases hkey : c.key = k
  · cases c with
    | failure key check stamp =>
      obtain rfl : key = k := hkey
      simp only [CircuitBreaker.call, stateFor_markFailure, hthreshold, hcooldown, hstate]
    | success key =>
      simp only [CircuitBreaker.call, CircuitBreaker.markSuccess,
        CircuitBreaker.stateFor_set, hstate]
  · rw [stateFor_call_of_ne b hkey, stateFor_call_of_ne b' hkey, hstate]

/-- The calls on other endpoints can be left out. -/
theorem stateFor_filter (b : CircuitBreaker) (h : List BreakerCall) (k : EndpointKey) :
    (b.after (h.filter fun c ↦ c.key = k)).stateFor k = (b.after h).stateFor k := by
  induction h using List.reverseRecOn with
  | nil => rfl
  | append_singleton h c ih =>
    rw [List.filter_append, after_concat]
    by_cases hkey : c.key = k
    · have hsingle : [c].filter (fun c ↦ decide (c.key = k)) = [c] := by simp [hkey]
      have hconfig := after_config b (h.filter fun c ↦ c.key = k)
      have hconfig' := after_config b h
      rw [hsingle, after_concat]
      exact stateFor_call_congr (hconfig.1.trans hconfig'.1.symm)
        (hconfig.2.trans hconfig'.2.symm) ih c
    · have hnone : [c].filter (fun c ↦ decide (c.key = k)) = [] := by simp [hkey]
      rw [hnone, List.append_nil, ih, stateFor_call_of_ne _ hkey]

theorem call_states (b : CircuitBreaker) (c : BreakerCall) :
    (∃ s, (b.call c).states = Assoc.put c.key s b.states) ∨
      (c.key ∈ b.states.map Prod.fst ∧ b.call c = b) := by
  cases c with
  | success key => exact .inl ⟨_, rfl⟩
  | failure key check stamp =>
    simp only [CircuitBreaker.call, CircuitBreaker.markFailure]
    by_cases hzero : (b.stateFor key).openedAt = zeroTime
    · simp only [hzero, ne_eq, not_true_eq_false, if_false]
      exact .inl ⟨_, rfl⟩
    · simp only [ne_eq, hzero, not_false_eq_true, if_true]
      split
      · exact .inl ⟨_, rfl⟩
      · -- An endpoint that is open has been recorded.
        refine .inr ⟨?_, rfl⟩
        rw [BreakerCall.key, ← Assoc.lookup_isSome_iff]
        rw [CircuitBreaker.stateFor] at hzero
        cases hlookup : b.states.lookup key with
        | none => exact absurd (by rw [hlookup]; rfl) hzero
        | some s => rfl

/-- The recorded endpoints are those that were called, each once. -/
theorem recorded_iff (hstates : b.states = []) (h : List BreakerCall) (k : EndpointKey) :
    Assoc.Keyed (b.after h).states ∧
      (k ∈ (b.after h).states.map Prod.fst ↔ k ∈ h.map BreakerCall.key) := by
  induction h using List.reverseRecOn with
  | nil =>
    rw [CircuitBreaker.after, Run.run_nil, hstates]
    exact ⟨List.nodup_nil, Iff.rfl⟩
  | append_singleton h c ih =>
    rw [after_concat, List.map_append, List.mem_append, List.map_singleton,
      List.mem_singleton, ← ih.2]
    rcases call_states (b.after h) c with ⟨s, heq⟩ | ⟨hmem, heq⟩
    · rw [heq, Assoc.mem_keys_put]
      exact ⟨ih.1.put _ _, or_comm⟩
    · rw [heq]
      refine ⟨ih.1, .inl, ?_⟩
      rintro (hk | rfl)
      · exact hk
      · exact hmem

/-- What is reported under the string of an endpoint, when no other has the same string. -/
theorem viewStates_eq (b : CircuitBreaker) (now : Time)
    {entries : List (EndpointKey × BreakerState)} (hkeyed : Assoc.Keyed entries)
    (hstring : ∀ k' ∈ entries.map Prod.fst, k'.string = k.string → k' = k) :
    b.viewStates now entries k.string = (entries.lookup k).map (b.view now) := by
  induction entries using List.reverseRecOn with
  | nil => rfl
  | append_singleton es e ih =>
    rw [Assoc.Keyed, List.map_append, List.nodup_append] at hkeyed
    obtain ⟨hes, -, hdisjoint⟩ := hkeyed
    have hes_string :=
      fun k' hk' ↦ hstring k' (by rw [List.map_append]; exact List.mem_append_left _ hk')
    have hfold : b.viewStates now (es ++ [e]) =
        Function.update (b.viewStates now es) e.1.string (some (b.view now e.2)) :=
      List.foldl_concat ..
    rw [hfold, List.lookup_append, List.lookup_cons, List.lookup_nil]
    by_cases hkey : k = e.1
    · have hnone : es.lookup k = none := by
        rw [← Option.not_isSome_iff_eq_none, Assoc.lookup_isSome_iff]
        exact fun hmem ↦ hdisjoint k hmem e.1 (by simp) hkey
      simp [hkey, hkey ▸ hnone]
    · have hne : k.string ≠ e.1.string := by
        intro heq
        exact hkey (hstring e.1 (by simp) heq.symm).symm
      rw [Function.update_of_ne hne, ih hes hes_string]
      simp [beq_false_of_ne hkey]

/-- An endpoint is reported as open iff it is recorded and not healthy. -/
theorem viewStates_opened_iff (hstates : b.states = []) (t : Time)
    {entries : List (EndpointKey × BreakerState)} (hentries : entries.Perm (b.after h).states)
    (hstring : ∀ c ∈ h, c.key.string = k.string → c.key = k) :
    (b.after h).viewStates t entries k.string = some .opened ↔
      k ∈ h.map BreakerCall.key ∧ (b.after h).healthy t k = false := by
  obtain ⟨hkeyed, hrecorded⟩ := recorded_iff hstates h k
  have hkeyed' : Assoc.Keyed entries := (hentries.map Prod.fst).nodup_iff.mpr hkeyed
  have hstring' : ∀ k' ∈ entries.map Prod.fst, k'.string = k.string → k' = k := by
    intro k' hk'
    rw [(hentries.map Prod.fst).mem_iff, (recorded_iff hstates h k').2] at hk'
    obtain ⟨c, hc, rfl⟩ := List.mem_map.mp hk'
    exact hstring c hc
  rw [viewStates_eq _ t hkeyed' hstring', hkeyed.lookup_perm hentries, ← hrecorded,
    ← Assoc.lookup_isSome_iff, CircuitBreaker.healthy_eq_false, CircuitBreaker.stateFor]
  cases (b.after h).states.lookup k with
  | none => simp
  | some s =>
    rw [Option.map_some, Option.some.injEq, CircuitBreaker.view_eq_opened, Option.getD_some]
    exact (and_iff_right rfl).symm

end History

/-- **The history specification of the circuit breaker.**  After any history of calls in which the
clock does not go back and never shows the zero time:

* an endpoint is unhealthy at `t` iff it failed at some time `s` with `t - s` under the cooldown, no
  success came after that failure, the endpoint was healthy right before it, and it was at least the
  threshold-th failure since the endpoint's last success;
* calls on other endpoints make no difference; and
* `States` reports as open exactly the recorded endpoints that are not healthy, in whatever order it
  goes through the map. -/
theorem breaker_history (failureThreshold cooldown : Int) (h : List BreakerCall)
    (hclock : (clockOf h).Pairwise (· ≤ ·)) (hzero : zeroTime ∉ clockOf h) (k : EndpointKey)
    (t : Time) :
    let b := newCircuitBreaker failureThreshold cooldown
    ((b.after h).healthy t k = false ↔
      ∃ past check s rest, h = past ++ .failure k check s :: rest ∧ .success k ∉ rest ∧
        t - s < b.cooldown ∧ (b.after past).healthy check k = true ∧
        b.failureThreshold ≤ failuresSince k past + 1) ∧
    (b.after (h.filter fun c ↦ c.key = k)).healthy t k = (b.after h).healthy t k ∧
    ∀ entries, entries.Perm (b.after h).states →
      (∀ c ∈ h, c.key.string = k.string → c.key = k) →
      ((b.after h).viewStates t entries k.string = some .opened ↔
        k ∈ h.map BreakerCall.key ∧ (b.after h).healthy t k = false) := by
  intro b
  have hpos : 0 < b.failureThreshold := by
    show 0 < if failureThreshold ≤ 0 then 5 else failureThreshold
    split <;> omega
  have htracks := tracks_after hpos rfl hclock hzero k
  refine ⟨?_, ?_, ?_⟩
  · rw [htracks.unhealthy_iff]
    constructor
    · rintro ⟨s, ⟨past, check, rest, heq, hrest, hhealthy, hcount⟩, ht⟩
      exact ⟨past, check, s, rest, heq, hrest, ht, hhealthy, hcount⟩
    · rintro ⟨past, check, s, rest, heq, hrest, ht, hhealthy, hcount⟩
      exact ⟨s, ⟨past, check, rest, heq, hrest, hhealthy, hcount⟩, ht⟩
  · rw [CircuitBreaker.healthy_eq, CircuitBreaker.healthy_eq, stateFor_filter, (after_config b _).2,
      (after_config b h).2]
  · exact fun entries hentries ↦ viewStates_opened_iff rfl t hentries

/-- Two failures trip the endpoint `p/e`, a third one is ignored, one after the cooldown trips it
again. -/
theorem breaker_history_sample :
    let p : EndpointKey := ⟨"p", "e"⟩
    let q : EndpointKey := ⟨"q", "e"⟩
    let b := newCircuitBreaker 2 10
    let h : List BreakerCall := [.failure p 1 1, .failure q 1 1, .failure p 2 2, .failure p 5 5,
      .success q, .failure p 13 14]
    (b.after h).healthy 20 p = false ∧ (b.after h).healthy 24 p = true ∧
      ((b.after h).healthy 20 p = false ↔
        ∃ past check s rest, h = past ++ .failure p check s :: rest ∧ .success p ∉ rest ∧
          20 - s < b.cooldown ∧ (b.after past).healthy check p = true ∧
          b.failureThreshold ≤ failuresSince p past + 1) := by
  intro p q b h
  exact ⟨by decide, by decide, (breaker_history 2 10 h (by decide) (by decide) p 20).1⟩

end Voxeltoad
