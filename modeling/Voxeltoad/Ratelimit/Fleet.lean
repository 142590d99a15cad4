import Voxeltoad.Lib.Run
import Voxeltoad.Lib.Shares
import Voxeltoad.Ratelimit.Plugin

/-!
# Rate limits over a fleet of gateways

The limiter of a gateway is its own, so a gateway that starts divides the limits of its
configuration by the number of instances that are online (`cmd/gateway/main.go`).  It registers in
`data_plane_nodes` (`internal/store/data_plane.go`), counts later, in another statement, and keeps
the limits it got for as long as it runs.  Heartbeats keep its row online; `cmd/admin/main.go` takes
rows offline whose heartbeat is old.

Instances that start together each count the others and share the limit evenly.  Ones that start one
after the other do not: the first has the whole limit, the second a half, the third a third.
`fleet_limits` bounds what they may let through together, from both sides, for every order in which
instances start, count, stop and are cleaned up.

A heartbeat, a drain or a cleanup that fails is one that does not happen.  Breaker states, which are
kept in the same rows, are left out.
-/

set_option autoImplicit false

namespace Voxeltoad
namespace Ratelimit

/-! ## Nodes -/

/-- The `status` of a node. -/
inductive Status where
  | online
  | draining
  | offline
  deriving DecidableEq, Repr

/-- `DataPlaneNode`. -/
structure DataPlaneNode where
  instanceID : String
  hostname : String
  addr : String
  version : String
  commit : String
  configGeneration : Int
  status : Status
  startedAt : Int
  lastHeartbeatAt : Int
  deriving DecidableEq, Repr

/-- `Register`: a row that is there is activated again, and keeps the instant it was first started
at. -/
def register (n : DataPlaneNode) (now : Int) (nodes : List DataPlaneNode) : List DataPlaneNode :=
  match Table.find DataPlaneNode.instanceID n.instanceID nodes with
  | none => nodes ++ [{ n with status := .online, startedAt := now, lastHeartbeatAt := now }]
  | some _ =>
    Table.modify DataPlaneNode.instanceID n.instanceID
      (fun row ↦ { n with
        instanceID := row.instanceID, status := .online, startedAt := row.startedAt,
          lastHeartbeatAt := now }) nodes

/-- `Heartbeat`: only a node that is online has one. -/
def heartbeat (instanceID : String) (now : Int) (nodes : List DataPlaneNode) : List DataPlaneNode :=
  Table.modify DataPlaneNode.instanceID instanceID
    (fun n ↦ if n.status = .online then { n with lastHeartbeatAt := now } else n) nodes

/-- `Drain`. -/
def drain (instanceID : String) (nodes : List DataPlaneNode) : List DataPlaneNode :=
  Table.modify DataPlaneNode.instanceID instanceID (fun n ↦ { n with status := .draining }) nodes

/-- `CleanupStale`. -/
def cleanupStale (now maxAge : Int) (nodes : List DataPlaneNode) : List DataPlaneNode :=
  nodes.map fun n ↦
    if n.status = .online ∧ n.lastHeartbeatAt < now - maxAge then { n with status := .offline }
      else n

/-- `OnlineCount`. -/
def onlineCount (nodes : List DataPlaneNode) : Nat := nodes.countP fun n ↦ n.status = .online

/-- Three heartbeats of fifteen seconds, in nanoseconds. -/
def staleAfter : Int := 45000000000

/-! ## Shares -/

namespace Limits

/-- `Enabled`. -/
def Enabled (rl : Limits) : Prop :=
  rl.tenantRPM > 0 ∨ rl.tenantTPM > 0 ∨ rl.groupRPM > 0 ∨ rl.groupTPM > 0 ∨
  rl.keyRPM > 0 ∨ rl.keyTPM > 0

instance (rl : Limits) : Decidable rl.Enabled := inferInstanceAs (Decidable (_ ∨ _ ∨ _ ∨ _ ∨ _ ∨ _))

/-- The limits, level by level. -/
def fields : List (Limits → Int) := [tenantRPM, tenantTPM, groupRPM, groupTPM, keyRPM, keyTPM]

/-- `divide`: `ceil(v/n)`, in `int`s. -/
def divide (n : Nat) (v : Int) : Int := (int64 (int64 (v + n) - 1)).tdiv n

/-- The limits of an instance that found `n` instances online, or could not count them. -/
def share (rl : Limits) : Option Nat → Limits
  | none => rl
  | some n =>
    if rl.Enabled ∧ n > 1 then
      { tenantRPM := divide n rl.tenantRPM
        tenantTPM := divide n rl.tenantTPM
        groupRPM := divide n rl.groupRPM
        groupTPM := divide n rl.groupTPM
        keyRPM := divide n rl.keyRPM
        keyTPM := divide n rl.keyTPM
        window := rl.window }
    else rl

end Limits

/-! ## The fleet -/

/-- A gateway that runs.  It has its limits once it has counted. -/
structure Gateway where
  instanceID : String
  limits : Option Limits
  deriving DecidableEq, Repr

/-- The table of the nodes, and the gateways that run: those that have counted in the order in which
they did. -/
structure Fleet where
  nodes : List DataPlaneNode
  gateways : List Gateway
  deriving DecidableEq, Repr

namespace Fleet

/-- What happens to the fleet. -/
inductive Event where
  /-- A gateway starts.  It goes on when it cannot register. -/
  | register (node : DataPlaneNode) (now : Int) (ok : Bool)
  /-- A gateway counts the instances that are online. -/
  | count (instanceID : String) (ok : Bool)
  | heartbeat (instanceID : String) (now : Int)
  /-- A gateway is shut down, or crashes. -/
  | exit (instanceID : String)
  /-- The last statement of a gateway that was shut down. -/
  | drain (instanceID : String)
  | cleanup (now : Int)
  deriving DecidableEq, Repr

def initial : Fleet := ⟨[], []⟩

/-- The limits of the gateways that have counted. -/
def serving (s : Fleet) : List Limits := s.gateways.filterMap Gateway.limits

/-- A gateway that has counted gets its share, and its place behind those that have counted
before. -/
def counted (rl : Limits) (online : Option Nat) (instanceID : String) (gateways : List Gateway) :
    List Gateway :=
  if ⟨instanceID, none⟩ ∈ gateways then
    (gateways.filter fun g ↦ g.instanceID ≠ instanceID) ++ [⟨instanceID, some (rl.share online)⟩]
  else gateways

/-- One event, in a fleet that is configured with the limits `rl`. -/
def step (rl : Limits) (s : Fleet) : Event → Fleet
  | .register n now ok =>
    { nodes := if ok then Ratelimit.register n now s.nodes else s.nodes
      gateways := s.gateways ++ [⟨n.instanceID, none⟩] }
  | .count instanceID ok =>
    { s with
      gateways := counted rl (if ok then some (onlineCount s.nodes)
        else none) instanceID s.gateways }
  | .heartbeat instanceID now => { s with nodes := Ratelimit.heartbeat instanceID now s.nodes }
  | .exit instanceID => { s with gateways := s.gateways.filter fun g ↦ g.instanceID ≠ instanceID }
  | .drain instanceID => { s with nodes := Ratelimit.drain instanceID s.nodes }
  | .cleanup now => { s with nodes := cleanupStale now staleAfter s.nodes }

/-- **A fleet that is well**: its statements get through, no two gateways run under one id, a
gateway drains after it has stopped, one that runs has had its heartbeats, and a limit plus the
number of instances is an `int`. -/
def Sound (rl : Limits) (s : Fleet) : Event → Prop
  | .register n _ ok => ok = true ∧ ∀ g ∈ s.gateways, g.instanceID ≠ n.instanceID
  | .count _ ok =>
      ok = true ∧ ∀ limit ∈ Limits.fields, -2 ^ 63 ≤ limit rl ∧
      limit rl + onlineCount s.nodes < 2 ^ 63
  | .heartbeat _ _ | .exit _ => True
  | .drain instanceID => ∀ g ∈ s.gateways, g.instanceID ≠ instanceID
  | .cleanup now =>
    ∀ g ∈ s.gateways, ∀ n ∈ s.nodes, n.instanceID = g.instanceID →
    now - staleAfter ≤ n.lastHeartbeatAt

instance (rl : Limits) (s : Fleet) : ∀ e, Decidable (Sound rl s e)
  | .register _ _ _ => inferInstanceAs (Decidable (_ ∧ _))
  | .count _ _ => inferInstanceAs (Decidable (_ ∧ _))
  | .heartbeat _ _ | .exit _ => inferInstanceAs (Decidable True)
  | .drain _ => inferInstanceAs (Decidable (∀ g ∈ s.gateways, _))
  | .cleanup _ => inferInstanceAs (Decidable (∀ g ∈ s.gateways, ∀ n ∈ s.nodes, _ → _))

end Fleet

/-! ## What a share is worth -/

namespace Limits

variable {rl : Limits} {n : Nat}

theorem divide_eq {v : Int} (hn : 1 ≤ n) (hlow : -2 ^ 63 ≤ v) (hhigh : v + n < 2 ^ 63) :
    divide n v = (v + n - 1).tdiv n := by
  rw [divide, int64_of_bounds (by omega) hhigh, int64_of_bounds (by omega) (by omega)]

/-- A limit that is none stays none, whatever it is divided by. -/
theorem divide_nonpos {v : Int} (hn : 1 ≤ n) (hlow : -2 ^ 63 ≤ v) (hhigh : v + n < 2 ^ 63)
    (hv : v ≤ 0) : divide n v ≤ 0 := by
  rw [divide_eq hn hlow hhigh]
  rcases le_or_gt 0 (v + n - 1) with hnonneg | hneg
  · rw [Int.tdiv_eq_ediv_of_nonneg hnonneg]
    exact Shares.ceilDiv_le hn (by simpa using hv)
  · have hflip := Int.tdiv_nonneg (neg_nonneg.mpr hneg.le) (Int.natCast_nonneg n)
    rwa [Int.neg_tdiv, neg_nonneg] at hflip

theorem share_field {limit : Limits → Int} (h : limit ∈ fields) :
    limit (rl.share (some n)) = if rl.Enabled ∧ n > 1 then divide n (limit rl) else limit rl := by
  simp only [fields, List.mem_cons, List.not_mem_nil, or_false] at h
  rw [share]
  rcases h with rfl | rfl | rfl | rfl | rfl | rfl <;> split <;> rfl

theorem enabled_of_pos {limit : Limits → Int} (h : limit ∈ fields) (hpos : 0 < limit rl) :
    rl.Enabled := by
  simp only [fields, List.mem_cons, List.not_mem_nil, or_false] at h
  rw [Enabled]
  rcases h with rfl | rfl | rfl | rfl | rfl | rfl <;> simp [hpos]

theorem share_eq {limit : Limits → Int} (h : limit ∈ fields) (hn : 1 ≤ n)
    (hlow : -2 ^ 63 ≤ limit rl) (hhigh : limit rl + n < 2 ^ 63) (hpos : 0 < limit rl) :
    limit (rl.share (some n)) = Shares.ceilDiv (limit rl) n := by
  rw [share_field h]
  rcases Nat.lt_or_ge 1 n with hmany | hone
  · rw [if_pos ⟨enabled_of_pos h hpos, hmany⟩, divide_eq hn hlow hhigh,
      Int.tdiv_eq_ediv_of_nonneg (by omega), Shares.ceilDiv]
  · obtain rfl : n = 1 := le_antisymm hone hn
    rw [if_neg (by omega), Shares.ceilDiv]
    simp

theorem share_nonpos {limit : Limits → Int} (h : limit ∈ fields) (hn : 1 ≤ n)
    (hlow : -2 ^ 63 ≤ limit rl) (hhigh : limit rl + n < 2 ^ 63) (hnone : limit rl ≤ 0) :
    limit (rl.share (some n)) ≤ 0 := by
  rw [share_field h]
  split
  · exact divide_nonpos hn hlow hhigh hnone
  · exact hnone

end Limits

/-! ## Who is online -/

/-- The row of an instance says that it is online. -/
def IsOnline (nodes : List DataPlaneNode) (instanceID : String) : Prop :=
  ∃ n ∈ nodes, n.instanceID = instanceID ∧ n.status = .online

section Online

variable {nodes : List DataPlaneNode} {instanceID : String}

/-- A write to rows that keeps the ids, and the status of this one. -/
theorem IsOnline.map {f : DataPlaneNode → DataPlaneNode} (h : IsOnline nodes instanceID)
    (hid : ∀ n, (f n).instanceID = n.instanceID)
    (hstatus : ∀ n ∈ nodes, n.instanceID = instanceID → n.status = .online →
      (f n).status = .online) :
    IsOnline (nodes.map f) instanceID := by
  obtain ⟨n, hn, rfl, honline⟩ := h
  exact ⟨f n, List.mem_map_of_mem hn, hid n, hstatus n hn rfl honline⟩

theorem IsOnline.register (h : IsOnline nodes instanceID) (n : DataPlaneNode) (now : Int) :
    IsOnline (Ratelimit.register n now nodes) instanceID := by
  rw [Ratelimit.register]
  split
  · obtain ⟨row, hrow, hid⟩ := h
    exact ⟨row, List.mem_append_left _ hrow, hid⟩
  · refine h.map (fun row ↦ ?_) fun row _ _ honline ↦ ?_
    · split <;> rfl
    · split
      · rfl
      · exact honline

theorem isOnline_register (n : DataPlaneNode) (now : Int) (nodes : List DataPlaneNode) :
    IsOnline (Ratelimit.register n now nodes) n.instanceID := by
  rw [Ratelimit.register]
  cases hfind : Table.find DataPlaneNode.instanceID n.instanceID nodes with
  | none => exact ⟨_, List.mem_append_right _ (List.mem_singleton_self _), rfl, rfl⟩
  | some row =>
    obtain ⟨hrow, hid⟩ := Table.mem_of_find hfind
    exact ⟨_, Table.mem_modify_of_eq hrow hid, hid, rfl⟩

theorem IsOnline.heartbeat (h : IsOnline nodes instanceID) (other : String) (now : Int) :
    IsOnline (Ratelimit.heartbeat other now nodes) instanceID := by
  refine h.map (fun n ↦ ?_) fun n _ _ honline ↦ ?_
  · split
    · dsimp only
      split <;> rfl
    · rfl
  · dsimp only
    rw [if_pos honline]
    split <;> exact honline

theorem IsOnline.drain (h : IsOnline nodes instanceID) {other : String} (hne : instanceID ≠ other) :
    IsOnline (Ratelimit.drain other nodes) instanceID := by
  refine h.map (fun n ↦ ?_) fun n _ hid honline ↦ ?_
  · split <;> rfl
  · rw [if_neg fun heq ↦ hne (hid.symm.trans heq)]
    exact honline

theorem IsOnline.cleanupStale (h : IsOnline nodes instanceID) {now maxAge : Int}
    (hfresh : ∀ n ∈ nodes, n.instanceID = instanceID → now - maxAge ≤ n.lastHeartbeatAt) :
    IsOnline (Ratelimit.cleanupStale now maxAge nodes) instanceID := by
  refine h.map (fun n ↦ ?_) fun n hn hid honline ↦ ?_
  · split <;> rfl
  · rw [if_neg fun hstale ↦ not_lt.mpr (hfresh n hn hid) hstale.2]
    exact honline

end Online

namespace Fleet

/-- The gateways that run are among the instances that are online. -/
theorem length_le_onlineCount {s : Fleet} (hids : (s.gateways.map Gateway.instanceID).Nodup)
    (honline : ∀ g ∈ s.gateways, IsOnline s.nodes g.instanceID) :
    s.gateways.length ≤ onlineCount s.nodes := by
  have hsub : s.gateways.map Gateway.instanceID ⊆
      (s.nodes.filter fun n ↦ n.status = .online).map DataPlaneNode.instanceID := by
    intro id hid
    obtain ⟨g, hg, rfl⟩ := List.mem_map.mp hid
    obtain ⟨n, hn, hid, hstatus⟩ := honline g hg
    exact List.mem_map.mpr ⟨n, List.mem_filter.mpr ⟨hn, decide_eq_true hstatus⟩, hid⟩
  have hle := (List.subperm_of_subset hids hsub).length_le
  rwa [List.length_map, List.length_map, ← List.countP_eq_length_filter] at hle

/-! ## Runs -/

/-- A count that a gateway made, in one of the states `past`, and that its division does not
overflow. -/
def Made (rl : Limits) (past : List Fleet) (n : Nat) : Prop :=
  (∃ p ∈ past, onlineCount p.nodes = n) ∧
    ∀ limit ∈ Limits.fields, -2 ^ 63 ≤ limit rl ∧ limit rl + n < 2 ^ 63

/-- **What is kept**: who runs is online, and the limits in use come from counts that go up. -/
structure Kept (rl : Limits) (past : List Fleet) (s : Fleet) : Prop where
  ids : (s.gateways.map Gateway.instanceID).Nodup
  online : ∀ g ∈ s.gateways, IsOnline s.nodes g.instanceID
  counts : ∃ counts : List Nat, Shares.Graded counts ∧ (∀ n ∈ counts, Made rl past n) ∧
    s.serving = counts.map fun n ↦ rl.share (some n)

variable {rl : Limits} {past past' : List Fleet} {s s' : Fleet}

theorem Made.mono {n : Nat} (h : Made rl past n) (hsub : past ⊆ past') : Made rl past' n := by
  obtain ⟨⟨p, hp, hcount⟩, hfits⟩ := h
  exact ⟨⟨p, hsub hp, hcount⟩, hfits⟩

/-- Limits that are still in use come from counts that still go up. -/
theorem Kept.counts_sublist (h : Kept rl past s) {serving : List Limits}
    (hsub : serving.Sublist s.serving) :
    ∃ counts : List Nat, Shares.Graded counts ∧ (∀ n ∈ counts, Made rl past n) ∧
      counts.length = serving.length ∧ serving = counts.map fun n ↦ rl.share (some n) := by
  obtain ⟨counts, hgraded, hmade, hserving⟩ := h.counts
  rw [hserving] at hsub
  obtain ⟨counts', hcounts, rfl⟩ := List.sublist_map_iff.mp hsub
  exact ⟨counts', hgraded.sublist hcounts, fun n hn ↦ hmade n (hcounts.subset hn), by simp, rfl⟩

/-- A step after which fewer gateways run, or more that have not counted yet. -/
theorem Kept.of_serving (h : Kept rl past s) (hpast : past ⊆ past')
    (hids : (s'.gateways.map Gateway.instanceID).Nodup)
    (honline : ∀ g ∈ s'.gateways, IsOnline s'.nodes g.instanceID)
    (hsub : s'.serving.Sublist s.serving) : Kept rl past' s' := by
  obtain ⟨counts, hgraded, hmade, -, hserving⟩ := h.counts_sublist hsub
  exact ⟨hids, honline, counts, hgraded, fun n hn ↦ (hmade n hn).mono hpast, hserving⟩

/-- A gateway that counts finds at least itself and all that have counted before it. -/
theorem Kept.count (h : Kept rl past s) (hs : s ∈ past) (hpast : past ⊆ past') {instanceID : String}
    (hfits : ∀ limit ∈ Limits.fields, -2 ^ 63 ≤ limit rl ∧
      limit rl + onlineCount s.nodes < 2 ^ 63) :
    Kept rl past' (s.step rl (.count instanceID true)) := by
  by_cases hstarting : (⟨instanceID, none⟩ : Gateway) ∈ s.gateways
  · have hstep : s.step rl (.count instanceID true) = { s with
        gateways := (s.gateways.filter fun g ↦ g.instanceID ≠ instanceID) ++
          [⟨instanceID, some (rl.share (some (onlineCount s.nodes)))⟩] } := by
      rw [Fleet.step, counted, if_pos hstarting, if_pos rfl]
    have hrest : (s.gateways.filter fun g ↦ g.instanceID ≠ instanceID).Sublist s.gateways :=
      List.filter_sublist
    obtain ⟨counts, hgraded, hmade, hlength, hserving⟩ :=
      h.counts_sublist (hrest.filterMap Gateway.limits)
    rw [hstep]
    refine ⟨?_, ?_, counts ++ [onlineCount s.nodes], Shares.graded_concat.mpr ⟨hgraded, ?_⟩, ?_, ?_⟩
    · rw [List.map_append, List.nodup_append]
      refine ⟨h.ids.sublist (hrest.map _), by simp, ?_⟩
      rintro a ha b hb rfl
      obtain ⟨g, hg, rfl⟩ := List.mem_map.mp ha
      have hne := (List.mem_filter.mp hg).2
      simp only [List.map_cons, List.map_nil, List.mem_singleton] at hb
      simp [hb] at hne
    · intro g hg
      rcases List.mem_append.mp hg with hg | hg
      · exact h.online g (hrest.subset hg)
      · rw [List.mem_singleton.mp hg]
        exact h.online ⟨instanceID, none⟩ hstarting
    · -- The gateway itself is not among those that have counted before.
      rw [hlength]
      refine (Nat.succ_le_of_lt ?_).trans (length_le_onlineCount h.ids h.online)
      refine (List.length_filterMap_le _ _).trans_lt ?_
      exact List.length_filter_lt_length_iff_exists.mpr ⟨_, hstarting, by simp⟩
    · intro n hn
      rcases List.mem_append.mp hn with hn | hn
      · exact (hmade n hn).mono hpast
      · rw [List.mem_singleton.mp hn]
        exact ⟨⟨s, hpast hs, rfl⟩, hfits⟩
    · rw [List.map_append, ← hserving, serving, List.filterMap_append]
      rfl
  · have hstep : s.step rl (.count instanceID true) = s := by
      rw [Fleet.step, counted, if_neg hstarting]
    rw [hstep]
    exact h.of_serving hpast h.ids h.online (List.Sublist.refl _)

theorem Kept.step (h : Kept rl past s) (hs : s ∈ past) {e : Event} (hsound : s.Sound rl e) :
    Kept rl (past ++ [s.step rl e]) (s.step rl e) := by
  have hpast : past ⊆ past ++ [s.step rl e] := List.subset_append_left _ _
  cases e with
  | register n now ok =>
    obtain ⟨rfl, hfree⟩ := hsound
    refine h.of_serving hpast ?_ ?_ (by simp [serving, Fleet.step])
    · have hkeyed : Table.Keyed Gateway.instanceID s.gateways := h.ids
      exact hkeyed.append hfree
    · intro g hg
      rcases List.mem_append.mp hg with hg | hg
      · exact (h.online g hg).register n now
      · rw [List.mem_singleton.mp hg]
        exact isOnline_register n now s.nodes
  | count instanceID ok =>
    obtain ⟨rfl, hfits⟩ := hsound
    exact h.count hs hpast hfits
  | heartbeat instanceID now =>
    exact h.of_serving hpast h.ids (fun g hg ↦ (h.online g hg).heartbeat _ _) (List.Sublist.refl _)
  | exit instanceID =>
    have hrest : (s.gateways.filter fun g ↦ g.instanceID ≠ instanceID).Sublist s.gateways :=
      List.filter_sublist
    exact h.of_serving hpast (h.ids.sublist (hrest.map _)) (fun g hg ↦ h.online g (hrest.subset hg))
      (hrest.filterMap _)
  | drain instanceID =>
    exact h.of_serving hpast h.ids (fun g hg ↦ (h.online g hg).drain (hsound g hg))
      (List.Sublist.refl _)
  | cleanup now =>
    exact h.of_serving hpast h.ids (fun g hg ↦ (h.online g hg).cleanupStale (hsound g hg))
      (List.Sublist.refl _)

theorem kept_run {evs : List Event} (hsound : Run.Along (Fleet.step rl) (Sound rl) initial evs) :
    Kept rl (Run.visited (Fleet.step rl) initial evs) (Run.run (Fleet.step rl) initial evs) := by
  refine Run.invariant_past_along (fun past s e hsound hs h ↦ Kept.step h hs hsound) ?_ hsound
  exact ⟨List.nodup_nil, by simp [initial], [], Shares.graded_nil, by simp, rfl⟩

/-- The limits in use are shares of the configured one. -/
theorem Kept.shares (h : Kept rl past s) {limit : Limits → Int} (hlimit : limit ∈ Limits.fields)
    (hpos : 0 < limit rl) :
    ∃ counts : List Nat, Shares.Graded counts ∧ counts.length = s.serving.length ∧
      (∀ n ∈ counts, ∃ p ∈ past, onlineCount p.nodes = n) ∧
      s.serving.map limit = counts.map (Shares.ceilDiv (limit rl)) := by
  obtain ⟨counts, hgraded, hmade, hserving⟩ := h.counts
  refine ⟨counts, hgraded, by rw [hserving, List.length_map], fun n hn ↦ (hmade n hn).1, ?_⟩
  rw [hserving, List.map_map]
  refine List.map_congr_left fun n hn ↦ ?_
  obtain ⟨hlow, hhigh⟩ := (hmade n hn).2 limit hlimit
  exact Limits.share_eq hlimit (hgraded.pos hn) hlow hhigh hpos

/-- **What a fleet lets through.**  In every run of a fleet that is well, of each configured limit:
a limit that is none stays none; every gateway that runs has some of it, and no more than all;
together they have at most its half, its third and so on added to it, and, where there were never
more than `most` instances online, at least as many parts in `most` as there are gateways. -/
theorem fleet_limits (rl : Limits) (evs : List Event)
    (hsound : Run.Along (Fleet.step rl) (Sound rl) initial evs)
    (limit : Limits → Int) (hlimit : limit ∈ Limits.fields) :
    let serving := (Run.run (Fleet.step rl) initial evs).serving
    (limit rl ≤ 0 → ∀ limits ∈ serving, limit limits ≤ 0) ∧
      (0 < limit rl →
        (∀ limits ∈ serving, 0 < limit limits ∧ limit limits ≤ limit rl) ∧
        (serving.map limit).sum ≤ ∑ k ∈ Finset.range serving.length, (limit rl + k) / (k + 1) ∧
        ∀ most : Nat, (∀ p ∈ Run.visited (Fleet.step rl) initial evs, onlineCount p.nodes ≤ most) →
          serving.length * limit rl ≤ most * (serving.map limit).sum) := by
  intro serving
  have hkept := kept_run hsound
  refine ⟨fun hnone limits hlimits ↦ ?_, fun hpos ↦ ?_⟩
  · obtain ⟨counts, hgraded, hmade, hserving⟩ := hkept.counts
    rw [show serving = _ from hserving] at hlimits
    obtain ⟨n, hn, rfl⟩ := List.mem_map.mp hlimits
    obtain ⟨hlow, hhigh⟩ := (hmade n hn).2 limit hlimit
    exact Limits.share_nonpos hlimit (hgraded.pos hn) hlow hhigh hnone
  · obtain ⟨counts, hgraded, hlength, hmade, hshares⟩ := hkept.shares hlimit hpos
    refine ⟨fun limits hlimits ↦ ?_, ?_, fun most hmost ↦ ?_⟩
    · have hmem : limit limits ∈ serving.map limit := List.mem_map_of_mem hlimits
      rw [show serving.map limit = _ from hshares] at hmem
      obtain ⟨n, hn, heq⟩ := List.mem_map.mp hmem
      rw [← heq]
      refine ⟨Shares.ceilDiv_pos hpos (hgraded.pos hn), Shares.ceilDiv_le (hgraded.pos hn) ?_⟩
      exact le_mul_of_one_le_right hpos.le (by exact_mod_cast hgraded.pos hn)
    · rw [show serving.map limit = _ from hshares, show serving.length = _ from hlength.symm]
      refine (hgraded.sum_le fun m n hm hmn ↦ Shares.ceilDiv_anti hpos hm hmn).trans_eq ?_
      refine Finset.sum_congr rfl fun k _ ↦ ?_
      rw [Shares.ceilDiv]
      push_cast
      congr 1
      ring
    · rw [show serving.map limit = _ from hshares, show serving.length = _ from hlength.symm]
      refine Shares.le_mul_sum hpos fun n hn ↦ ⟨hgraded.pos hn, ?_⟩
      obtain ⟨p, hp, rfl⟩ := hmade n hn
      exact hmost p hp

/-- Three gateways that start and count one after the other, the first of which has stopped when the
third counts. -/
def sampleEvents : List Event :=
  let node instanceID : DataPlaneNode :=
    ⟨instanceID, "host", ":8080", "v1", "c1", 0, .offline, 0, 0⟩
  [.register (node "host-1") 0 true, .count "host-1" true, .register (node "host-2") 10 true,
    .count "host-2" true, .heartbeat "host-1" 20, .cleanup 40, .exit "host-1",
    .register (node "host-3") 50 true, .drain "host-1", .register (node "host-4") 60 true,
    .count "host-3" true, .count "host-4" true]

def sampleLimits : Limits := ⟨0, 0, 0, 0, 60, 0, 60000000000⟩

/-- The second gateway keeps its half, although there are three when the others count. -/
theorem fleet_limits_sample :
    ((Run.run (Fleet.step sampleLimits) initial sampleEvents).serving.map Limits.keyRPM =
      [30, 20, 20]) ∧
      0 < Limits.keyRPM sampleLimits ∧
        (Run.run (Fleet.step sampleLimits) initial sampleEvents).serving.length *
        Limits.keyRPM sampleLimits ≤
          3 *
          ((Run.run (Fleet.step sampleLimits) initial sampleEvents).serving.map
          Limits.keyRPM).sum :=
  ⟨by decide, by decide,
    ((fleet_limits sampleLimits sampleEvents (by decide) Limits.keyRPM (by simp [Limits.fields])).2
      (by decide)).2.2 3 (by decide)⟩

end Fleet

end Ratelimit
end Voxeltoad
