import Voxeltoad.Ratelimit.Memory

/-!
# How long a rejected caller has to wait

`retryAfter` adds up the costs of the oldest events of a window until dropping them would make room,
and answers the time until the last of those leaves.  Over a window that is sorted by time this is
exact (`room_iff`): there is room for the same `n` at an instant if and only if that event has left
by then, since events of one time leave together and `prune` drops what is exactly as old as the
window is long.

Between the rejection and the next check other calls are made.  As long as none charges the key,
there is room from then on.  That there is *no* room before takes more: the bound on the number of
counters may evict the counter of the key, and a call that names a shorter window for the key drops
events for good.  `retryAfter_exact` has both halves, and `retryAfter_inexact` what happens without
its conditions.
-/

set_option autoImplicit false

namespace Voxeltoad

namespace Ratelimit

/-! ## A sorted window -/

/-- The first event with which enough is freed splits the window. -/
theorem freeing_split {need : Int} {evs : List Event} {freed : Int}
    (hcosts : ∀ ev ∈ evs, 0 ≤ ev.cost) (hfreed : 0 ≤ freed) (hrange : freed + total evs < 2 ^ 63)
    (hlow : freed < need) (hhigh : need ≤ freed + total evs) :
    ∃ pre ev post, evs = pre ++ ev :: post ∧ freeing need evs freed = some ev ∧
      freed + total pre < need ∧ need ≤ freed + total pre + ev.cost := by
  induction evs generalizing freed with
  | nil =>
    simp only [total, List.map_nil, List.sum_nil] at hhigh
    omega
  | cons ev evs ih =>
    obtain ⟨hev, hevs⟩ := List.forall_mem_cons.mp hcosts
    have hrest : 0 ≤ total evs := total_nonneg hevs
    rw [total_cons] at hrange hhigh
    have hsum : int64 (freed + ev.cost) = freed + ev.cost := int64_of_range (by omega) (by omega)
    rw [freeing, hsum]
    split
    · exact ⟨[], ev, evs, rfl, rfl, by simpa [total] using hlow, by simpa [total] using ‹_›⟩
    · rename_i hmore
      obtain ⟨pre, ev', post, rfl, hfreeing, hbefore, hafter⟩ :=
        ih hevs (by omega) (by omega) (by omega : freed + ev.cost < need) (by omega)
      refine ⟨ev :: pre, ev', post, rfl, hfreeing, ?_, ?_⟩
      · rw [total_cons]
        omega
      · rw [total_cons]
        omega

/-- **Enough is freed exactly when that event has left.** -/
theorem total_live_le_iff {pre post : List Event} {ev : Event} {room : Int}
    (hsorted : (pre ++ ev :: post).Pairwise fun a b ↦ a.time ≤ b.time)
    (hcosts : ∀ ev' ∈ pre ++ ev :: post, 0 ≤ ev'.cost) (hbefore : room < total (ev :: post))
    (hafter : total post ≤ room) (cutoff : Int) :
    total ((pre ++ ev :: post).filter fun ev' ↦ cutoff < ev'.time) ≤ room ↔ ev.time ≤ cutoff := by
  obtain ⟨-, htail, hpre⟩ := List.pairwise_append.mp hsorted
  obtain ⟨hpost, -⟩ := List.pairwise_cons.mp htail
  have hpostCosts : ∀ ev' ∈ post, 0 ≤ ev'.cost := fun ev' h ↦ hcosts ev' (by simp [h])
  constructor
  · intro hle
    by_contra hlive
    -- The event and all after it are still live.
    have hkept : (ev :: post).filter (fun ev' ↦ cutoff < ev'.time) = ev :: post := by
      refine List.filter_eq_self.mpr fun ev' hev' ↦ ?_
      rcases List.mem_cons.mp hev' with rfl | hev'
      · simpa using hlive
      · have := hpost ev' hev'
        simp only [decide_eq_true_eq]
        omega
    have hrest : 0 ≤ total (pre.filter fun ev' ↦ cutoff < ev'.time) :=
      total_nonneg fun ev' h ↦ hcosts ev' (List.mem_append_left _ (List.mem_filter.mp h).1)
    rw [List.filter_append, hkept, total_append] at hle
    omega
  · intro hgone
    -- The event and all before it have left.
    have hdropped : pre.filter (fun ev' ↦ cutoff < ev'.time) = [] := by
      refine List.filter_eq_nil_iff.mpr fun ev' hev' ↦ ?_
      have := hpre ev' hev' ev (List.mem_cons_self ..)
      simp only [decide_eq_true_eq]
      omega
    have hself : (ev :: post).filter (fun ev' ↦ cutoff < ev'.time) =
        post.filter fun ev' ↦ cutoff < ev'.time :=
      List.filter_cons_of_neg (by simpa using hgone)
    rw [List.filter_append, hdropped, List.nil_append, hself]
    exact (total_sublist_le List.filter_sublist hpostCosts).trans hafter

/-- A sum that wraps is below `n`, and so below the limit. -/
theorem add_lt_of_full {sum n limit : Int} (hrange : sum < 2 ^ 63) (hle : n ≤ limit)
    (hfull : limit < int64 (int64 sum + n)) : sum + n < 2 ^ 63 := by
  by_contra hover
  have hwraps := int64_wraps (not_lt.mp hover)
  rw [int64_add] at hfull
  omega

/-- **`retryAfter` is exact** over one window.  Dropping what has left by an instant makes room
exactly when the time to wait is over. -/
theorem room_iff {evs : List Event} {now dur n limit : Int}
    (hsorted : evs.Pairwise fun a b ↦ a.time ≤ b.time) (hcosts : ∀ ev ∈ evs, 0 ≤ ev.cost)
    (hlive : ∀ ev ∈ evs, now - dur < ev.time) (hrange : total evs < 2 ^ 63) (hn : -2 ^ 63 ≤ n)
    (hle : n ≤ limit) (hfull : limit < int64 (int64 (total evs) + n)) (t : Int) :
    total (evs.filter fun ev ↦ t - dur < ev.time) + n ≤ limit ↔
      now + retryAfter evs (int64 (total evs)) now dur n limit ≤ t := by
  have hpos : 0 ≤ total evs := total_nonneg hcosts
  have hfits : total evs + n < 2 ^ 63 := add_lt_of_full hrange hle hfull
  have hsum : int64 (total evs) = total evs := int64_of_range hpos hrange
  rw [hsum, int64_of_bounds (by omega) hfits] at hfull
  have hneed : int64 (int64 (total evs + n) - limit) = total evs + n - limit := by
    rw [int64_sub, int64_of_range (by omega) (by omega)]
  obtain ⟨pre, ev, post, rfl, hfreeing, hbefore, hafter⟩ :=
    freeing_split hcosts (le_refl 0) (by omega) (by omega : 0 < total evs + n - limit) (by omega)
  have hev : now - dur < ev.time := hlive ev (by simp)
  have hretry : retryAfter (pre ++ ev :: post) (total (pre ++ ev :: post)) now dur n limit =
      ev.time + dur - now := by
    rw [retryAfter, List.getLast?_eq_some_getLast (by simp)]
    dsimp only
    rw [hneed, if_neg (by omega), hfreeing, Option.getD_some, untilExpiry, if_neg (by omega)]
  rw [total_append, total_cons] at hbefore hafter
  rw [hsum, hretry]
  calc total ((pre ++ ev :: post).filter fun ev' ↦ t - dur < ev'.time) + n ≤ limit
      ↔ total ((pre ++ ev :: post).filter fun ev' ↦ t - dur < ev'.time) ≤ limit - n := by omega
    _ ↔ ev.time ≤ t - dur :=
      total_live_le_iff hsorted hcosts (by rw [total_cons]; omega) (by omega) (t - dur)
    _ ↔ now + (ev.time + dur - now) ≤ t := by omega

/-! ## Windows in order -/

/-- A window that keeps its sum, and its events in the order of their times. -/
structure Window.Orderly (w : Window) : Prop where
  sum : w.sum = int64 (total w.events)
  sorted : w.events.Pairwise fun a b ↦ a.time ≤ b.time

namespace Window

variable {w : Window} {now dur n : Int}

theorem prune_events (w : Window) (now dur : Int) :
    (w.prune now dur).events = w.events.dropWhile fun ev ↦ ev.time ≤ now - dur :=
  pruneLoop_fst ..

theorem prune_suffix (w : Window) (now dur : Int) : (w.prune now dur).events <:+ w.events :=
  pruneLoop_suffix ..

theorem prune_sum (h : w.sum = int64 (total w.events)) (now dur : Int) :
    (w.prune now dur).sum = int64 (total (w.prune now dur).events) := by
  rw [prune, h, pruneLoop_eq]

/-- What is live at an instant outlasts a pruning that drops no more than what has left by then. -/
theorem prune_live (w : Window) {cutoff : Int} (h : now - dur ≤ cutoff) :
    ((w.prune now dur).events.filter fun ev ↦ cutoff < ev.time) =
      w.events.filter fun ev ↦ cutoff < ev.time := by
  have hdropped : (w.events.takeWhile fun ev ↦ ev.time ≤ now - dur).filter
      (fun ev ↦ cutoff < ev.time) = [] := by
    refine List.filter_eq_nil_iff.mpr fun ev hev ↦ ?_
    have hold := List.mem_takeWhile_imp hev
    simp only [decide_eq_true_eq] at hold ⊢
    omega
  conv_rhs =>
    rw [← List.takeWhile_append_dropWhile (p := fun ev ↦ ev.time ≤ now - dur) (l := w.events)]
  rw [prune_events, List.filter_append, hdropped, List.nil_append]

theorem Orderly.prune (h : w.Orderly) (now dur : Int) : (w.prune now dur).Orderly :=
  ⟨prune_sum h.sum now dur, h.sorted.sublist (w.prune_suffix now dur).sublist⟩

theorem Orderly.prune_events (h : w.Orderly) (now dur : Int) :
    (w.prune now dur).events = w.events.filter fun ev ↦ now - dur < ev.time := by
  rw [Window.prune_events, dropWhile_eq_filter h.sorted]

theorem Orderly.charge (h : w.Orderly) (hpast : ∀ ev ∈ w.events, ev.time ≤ now) (n : Int) :
    (w.charge now n).Orderly := by
  constructor
  · rw [Window.charge, h.sum, int64_add, total_append]
    simp [total]
  · refine List.pairwise_append.mpr ⟨h.sorted, List.pairwise_singleton .., fun ev hev ev' hev' ↦ ?_⟩
    rw [List.mem_singleton.mp hev']
    exact hpast ev hev

end Window

theorem Put.current {l l' : MemoryLimiter} {w : Window} (h : Put l w l') (key : String) :
    l'.current key = if w.key = key then w else l.current key := by
  rw [MemoryLimiter.current, MemoryLimiter.current, h.find]
  split <;> rfl

theorem MemoryLimiter.current_of_find {l : MemoryLimiter} {key : String} {w : Window}
    (h : l.find key = some w) : l.current key = w := by
  rw [current, h, Option.getD_some]

/-- All windows are in order, and all their events in the past. -/
def Orderly (now : Int) (l : MemoryLimiter) : Prop :=
  ∀ key, (l.current key).Orderly ∧ ∀ ev ∈ l.events key, ev.time ≤ now

namespace Orderly

variable {now now' : Int} {l l' l₀ : MemoryLimiter} {c : Call}

theorem mono (h : Orderly now l) (hle : now ≤ now') : Orderly now' l :=
  fun key ↦ ⟨(h key).1, fun ev hev ↦ ((h key).2 ev hev).trans hle⟩

theorem put (h : Orderly now l) {w : Window} (hput : Put l w l') (hw : w.Orderly)
    (hpast : ∀ ev ∈ w.events, ev.time ≤ now) : Orderly now l' := by
  intro key
  rw [MemoryLimiter.events, hput.current]
  split
  · exact ⟨hw, hpast⟩
  · exact h key

theorem updates (l₀ : MemoryLimiter) (c : Call) : Updates l₀ c (Orderly c.now) where
  prune {l _ d} h _ hput := by
    obtain ⟨hw, hpast⟩ := h d.key
    have hresolved : (l.resolved d c.now).Orderly := ⟨hw.sum, hw.sorted⟩
    exact h.put hput (hresolved.prune c.now d.window)
      fun ev hev ↦ hpast ev ((Window.prune_suffix _ c.now d.window).subset hev)
  charge _ {l _ d w} h _ _ hevents hsum hput := by
    obtain ⟨hw, hpast⟩ := h d.key
    have horderly : w.Orderly := ⟨by rw [hsum, hw.sum, hevents], hevents ▸ hw.sorted⟩
    have hwpast : ∀ ev ∈ w.events, ev.time ≤ c.now := hevents ▸ hpast
    refine h.put hput (horderly.charge hwpast c.cost) ?_
    exact List.forall_mem_append.mpr ⟨hwpast, by simp⟩

theorem evicts (now : Int) : Evicts now (Orderly now) where
  prune {l _ w} h hfind hput := by
    obtain ⟨hw, hpast⟩ := h w.key
    rw [MemoryLimiter.events] at hpast
    rw [MemoryLimiter.current_of_find hfind] at hw hpast
    exact h.put hput (hw.prune now w.dur)
      fun ev hev ↦ hpast ev ((w.prune_suffix now w.dur).subset hev)
  remove {l} key h := by
    intro j
    rw [MemoryLimiter.events, MemoryLimiter.removeElem_current]
    split
    · exact ⟨⟨rfl, List.Pairwise.nil⟩, by simp⟩
    · exact h j

theorem step (h : Orderly now l) (hnow : now ≤ c.now) : Orderly c.now (l.step c) :=
  step_lasts (updates l c) (evicts c.now) id (h.mono hnow)

/-- **Windows stay in order** over a run, as long as the clock does not go back. -/
theorem run {calls : List Call} (h : Orderly now l)
    (hclock : calls.Pairwise fun c c' ↦ c.now ≤ c'.now) (hfrom : ∀ c ∈ calls, now ≤ c.now)
    (hto : ∀ c ∈ calls, c.now ≤ now') (hnow : now ≤ now') :
    Orderly now' (Run.run MemoryLimiter.step l calls) := by
  induction calls generalizing l now with
  | nil => exact h.mono hnow
  | cons c calls ih =>
    obtain ⟨hlater, hclock⟩ := List.pairwise_cons.mp hclock
    exact ih (h.step (hfrom c (List.mem_cons_self ..))) hclock hlater
      (fun c' hc' ↦ hto c' (List.mem_cons_of_mem _ hc')) (hto c (List.mem_cons_self ..))

end Orderly

/-! ## Between two checks -/

namespace MemoryLimiter

/-- Does a call charge a key? -/
def Charges (l : MemoryLimiter) (c : Call) (key : String) : Prop :=
  l.Charging c ∧ key ∈ c.dims.map Dimension.key

/-- The check of a dimension, as `Allow` makes it. -/
def HasRoom (l : MemoryLimiter) (d : Dimension) (now n : Int) : Prop :=
  int64 ((l.pruned d now).sum + n) ≤ d.limit

/-- A call leaves the counter of a key, and names no window for it that is shorter than `dur`. -/
def Keeps (key : String) (dur : Int) (l : MemoryLimiter) (c : Call) : Prop :=
  ((l.step c).find key).isSome ∧ ∀ d ∈ c.dims, d.key = key → dur ≤ d.window

instance (l : MemoryLimiter) : ∀ c, Decidable (l.Charging c)
  | .allow now dims n => inferInstanceAs (Decidable (stops now n dims l = none ∧ 0 < n))
  | .debit _ _ n => inferInstanceAs (Decidable (n ≠ 0))

instance (l : MemoryLimiter) (c : Call) (key : String) : Decidable (l.Charges c key) :=
  inferInstanceAs (Decidable (_ ∧ _))

instance (l : MemoryLimiter) (d : Dimension) (now n : Int) : Decidable (l.HasRoom d now n) :=
  inferInstanceAs (Decidable (_ ≤ _))

instance (key : String) (dur : Int) (l : MemoryLimiter) (c : Call) :
    Decidable (Keeps key dur l c) :=
  inferInstanceAs (Decidable (_ ∧ _))

end MemoryLimiter

/-- What is left of the events of a key. -/
structure Left (key : String) (evs : List Event) (l : MemoryLimiter) : Prop where
  sum : (l.current key).sum = int64 (total (l.events key))
  events : l.events key <:+ evs

/-- What is live of the events of a key after `cutoff`, a counter still holds. -/
structure Held (evs : List Event) (dur cutoff : Int) (w : Window) : Prop where
  dur : dur ≤ w.dur
  live : (w.events.filter fun ev ↦ cutoff < ev.time) = evs.filter fun ev ↦ cutoff < ev.time

section Between

variable {l l' l₀ : MemoryLimiter} {c : Call} {key : String} {evs : List Event}
  {now dur cutoff : Int}

/-- The window of another key changes. -/
theorem Left.other (h : Left key evs l) {w : Window} (hput : Put l w l') (hne : w.key ≠ key) :
    Left key evs l' := by
  have hcurrent : l'.current key = l.current key := by rw [hput.current, if_neg hne]
  exact ⟨by rw [MemoryLimiter.events, hcurrent]; exact h.sum,
    by rw [MemoryLimiter.events, hcurrent]; exact h.events⟩

/-- The window of the key is brought up to date. -/
theorem Left.prune (h : Left key evs l) {w : Window} (hput : Put l (w.prune now dur) l')
    (hkey : w.key = key) (hevents : w.events = l.events key) (hsum : w.sum = (l.current key).sum) :
    Left key evs l' := by
  have hcurrent : l'.current key = w.prune now dur := by rw [hput.current, if_pos (by exact hkey)]
  have hw : w.sum = int64 (total w.events) := by rw [hsum, h.sum, hevents]
  refine ⟨?_, ?_⟩
  · rw [MemoryLimiter.events, hcurrent]
    exact Window.prune_sum hw now dur
  · rw [MemoryLimiter.events, hcurrent]
    exact (w.prune_suffix now dur).trans (hevents ▸ h.events)

theorem Left.updates (huncharged : ¬l₀.Charges c key) : Updates l₀ c (Left key evs) where
  prune {l _ d} h _ hput := by
    by_cases hkey : d.key = key
    · subst hkey
      exact h.prune hput (l.resolved_key d c.now) rfl rfl
    · exact h.other hput (by rwa [l.pruned_key d c.now])
  charge hcharging {_ _ d _} h hd hkey _ _ hput := by
    refine h.other hput fun heq ↦ huncharged ⟨hcharging, ?_⟩
    exact List.mem_map.mpr ⟨d, hd, hkey.symm.trans heq⟩

theorem Left.evicts (now : Int) : Evicts now (Left key evs) where
  prune {l _ w} h hfind hput := by
    by_cases hkey : w.key = key
    · subst hkey
      have hcurrent := MemoryLimiter.current_of_find hfind
      exact h.prune hput rfl (by rw [MemoryLimiter.events, hcurrent]) (by rw [hcurrent])
    · exact h.other hput hkey
  remove {l} key' h := by
    by_cases hkey : key' = key
    · have hcurrent : (l.removeElem key').current key = ⟨key, [], 0, 0, 0⟩ := by
        rw [MemoryLimiter.removeElem_current, if_pos hkey]
      exact ⟨by rw [MemoryLimiter.events, hcurrent]; rfl,
        by rw [MemoryLimiter.events, hcurrent]; exact List.nil_suffix⟩
    · have hcurrent : (l.removeElem key').current key = l.current key := by
        rw [MemoryLimiter.removeElem_current, if_neg hkey]
      exact ⟨by rw [MemoryLimiter.events, hcurrent]; exact h.sum,
        by rw [MemoryLimiter.events, hcurrent]; exact h.events⟩

/-- **A call that does not charge the key** leaves some of its last events, and their sum. -/
theorem Left.step (h : Left key evs l) (huncharged : ¬l.Charges c key) : Left key evs (l.step c) :=
  step_lasts (Left.updates huncharged) (Left.evicts c.now) id h

theorem Held.prune {w : Window} (h : Held evs dur cutoff w) {dur' : Int} (hdur : dur ≤ dur')
    (hcutoff : now - dur ≤ cutoff) :
    Held evs dur cutoff ({ w with dur := dur' }.prune now dur') where
  dur := hdur
  live := (Window.prune_live _ (by omega)).trans h.live

/-- Nothing that is live leaves a counter while it is looked at. -/
theorem Held.updates (huncharged : ¬l₀.Charges c key) (hcutoff : c.now - dur ≤ cutoff)
    (hwindow : ∀ d ∈ c.dims, d.key = key → dur ≤ d.window) :
    Updates l₀ c fun l ↦ ∃ w, l.find key = some w ∧ Held evs dur cutoff w where
  prune {l _ d} h hd hput := by
    obtain ⟨w, hfind, hheld⟩ := h
    rw [hput.find, l.pruned_key d c.now]
    split
    · rename_i hkey
      subst hkey
      refine ⟨_, rfl, ?_⟩
      rw [MemoryLimiter.pruned, MemoryLimiter.resolved, MemoryLimiter.current_of_find hfind]
      exact Held.prune (w := { w with lastAccess := c.now }) ⟨hheld.dur, hheld.live⟩
        (hwindow d hd rfl) hcutoff
    · exact ⟨w, hfind, hheld⟩
  charge hcharging {_ _ d w'} h hd hkey _ _ hput := by
    have hne : (w'.charge c.now c.cost).key ≠ key := fun heq ↦
      huncharged ⟨hcharging, List.mem_map.mpr ⟨d, hd, hkey.symm.trans heq⟩⟩
    rw [hput.find, if_neg hne]
    exact h

/-- Nothing that is live leaves a counter as long as it is not evicted. -/
theorem Held.evicts (hcutoff : now - dur ≤ cutoff) :
    Evicts now fun l ↦ ∀ w, l.find key = some w → Held evs dur cutoff w where
  prune {l _ w} h hfind hput := by
    intro w' hfind'
    rw [hput.find] at hfind'
    split at hfind'
    · rename_i hkey
      obtain rfl := Option.some.inj hfind'
      have hheld := h w (hkey ▸ hfind)
      exact hheld.prune hheld.dur hcutoff
    · exact h w' hfind'
  remove {l} key' h := by
    intro w hfind
    rw [MemoryLimiter.removeElem_find] at hfind
    split at hfind
    · cases hfind
    · exact h w hfind

/-- **A call that keeps the counter** keeps what is live. -/
theorem Held.step (h : ∃ w, l.find key = some w ∧ Held evs dur cutoff w)
    (huncharged : ¬l.Charges c key) (hkeeps : MemoryLimiter.Keeps key dur l c)
    (hcutoff : c.now - dur ≤ cutoff) :
    ∃ w, (l.step c).find key = some w ∧ Held evs dur cutoff w := by
  obtain ⟨hsome, hwindow⟩ := hkeeps
  have hstep := step_lasts (Held.updates huncharged hcutoff hwindow) (Held.evicts hcutoff)
    (fun ⟨w, hfind, hheld⟩ w' hfind' ↦ Option.some.inj (hfind.symm.trans hfind') ▸ hheld) h
  obtain ⟨w, hfind⟩ := Option.isSome_iff_exists.mp hsome
  exact ⟨w, hfind, hstep w hfind⟩

section Runs

variable {calls : List Call}

theorem Left.run (h : Left key evs l)
    (huncharged : Run.Along MemoryLimiter.step (fun l c ↦ ¬l.Charges c key) l calls) :
    Left key evs (Run.run MemoryLimiter.step l calls) :=
  Run.invariant_along (fun _ _ hc h ↦ Left.step h hc) huncharged h

theorem Held.run (h : ∃ w, l.find key = some w ∧ Held evs dur cutoff w)
    (huncharged : Run.Along MemoryLimiter.step (fun l c ↦ ¬l.Charges c key) l calls)
    (hkeeps : Run.Along MemoryLimiter.step (MemoryLimiter.Keeps key dur) l calls)
    (hcutoff : ∀ c ∈ calls, c.now - dur ≤ cutoff) :
    ∃ w, (Run.run MemoryLimiter.step l calls).find key = some w ∧ Held evs dur cutoff w := by
  induction calls generalizing l with
  | nil => exact h
  | cons c calls ih =>
    obtain ⟨hc, hcalls⟩ := List.forall_mem_cons.mp hcutoff
    exact ih (Held.step h huncharged.1 hkeeps.1 hc) huncharged.2 hkeeps.2 hcalls

end Runs

/-- What is left costs no more than what there was. -/
theorem Left.total_le (h : Left key evs l) (hcosts : ∀ ev ∈ evs, 0 ≤ ev.cost) (cutoff : Int) :
    0 ≤ total ((l.events key).filter fun ev ↦ cutoff < ev.time) ∧
      total ((l.events key).filter fun ev ↦ cutoff < ev.time) ≤
        total (evs.filter fun ev ↦ cutoff < ev.time) := by
  have hlive : ∀ ev ∈ evs.filter fun ev ↦ cutoff < ev.time, 0 ≤ ev.cost :=
    fun ev hev ↦ hcosts ev (List.mem_filter.mp hev).1
  have hsub := h.events.sublist.filter fun ev ↦ cutoff < ev.time
  exact ⟨total_nonneg fun ev hev ↦ hlive ev (hsub.subset hev), total_sublist_le hsub hlive⟩

end Between

/-! ## The time to wait -/

/-- A limiter that calls have brought to where it is, none of them after `now`. -/
def Reached (now : Int) (l : MemoryLimiter) : Prop :=
  ∃ (maxCounters : Nat) (idleTTL : Int) (calls : List Call),
    (calls.Pairwise fun c c' ↦ c.now ≤ c'.now) ∧ (∀ c ∈ calls, c.now ≤ now) ∧
      l = Run.run MemoryLimiter.step (newMemoryLimiter maxCounters idleTTL) calls

/-- `Allow` is rejected on the dimension `d`, with an `int` that is not above its limit and no
negative cost in its window. -/
structure Rejects (l : MemoryLimiter) (now : Int) (dims : List Dimension) (n : Int)
    (d : Dimension) : Prop where
  reached : Reached now l
  stops : ∃ pre, MemoryLimiter.stops now n dims l = some (pre, d)
  int : -2 ^ 63 ≤ n
  fits : n ≤ d.limit
  costs : ∀ ev ∈ l.events d.key, 0 ≤ ev.cost

theorem Reached.orderly {now : Int} {l : MemoryLimiter} (h : Reached now l) : Orderly now l := by
  obtain ⟨maxCounters, idleTTL, calls, hclock, hto, rfl⟩ := h
  have hnew : ∀ now', Orderly now' (newMemoryLimiter maxCounters idleTTL) :=
    fun _ _ ↦ ⟨⟨rfl, List.Pairwise.nil⟩, fun _ hev ↦ absurd hev (List.not_mem_nil)⟩
  cases calls with
  | nil => exact hnew now
  | cons c calls =>
    refine (hnew c.now).run hclock ?_ hto (hto c (List.mem_cons_self ..))
    exact List.forall_mem_cons.mpr ⟨le_refl _, (List.pairwise_cons.mp hclock).1⟩

theorem MemoryLimiter.hasRoom_iff {l : MemoryLimiter} {d : Dimension}
    (h : (l.current d.key).Orderly) (now n : Int) : l.HasRoom d now n ↔
      int64 (total ((l.events d.key).filter fun ev ↦ now - d.window < ev.time) + n) ≤ d.limit := by
  have hresolved : (l.resolved d now).Orderly := ⟨h.sum, h.sorted⟩
  rw [HasRoom, pruned, (hresolved.prune now d.window).sum, int64_add, hresolved.prune_events]
  rfl

section Wait

variable {l l' : MemoryLimiter} {now n t : Int} {dims : List Dimension} {d : Dimension}

/-- **What a rejection is based on**: the events of the key that are live, and their sum. -/
theorem Rejects.window (h : Rejects l now dims n d) :
    ∃ w, (l.step (.allow now dims n)).find d.key = some w ∧ w.Orderly ∧ w.dur = d.window ∧
      w.events.Sublist ((l.events d.key).filter fun ev ↦ now - d.window < ev.time) ∧
      d.limit < int64 (w.sum + n) ∧
      (l.allow now dims n).1.retryAfter = retryAfter w.events w.sum now d.window n d.limit := by
  obtain ⟨pre, hstop⟩ := h.stops
  obtain ⟨hsub, hfull⟩ := MemoryLimiter.stops_spec hstop
  have hpre : Orderly now (MemoryLimiter.resolveAll now pre l) :=
    (Orderly.updates l (.allow now dims n)).resolveAll h.reached.orderly
      fun d' hd' ↦ hsub (List.mem_append_left _ hd')
  have hresolved : ((MemoryLimiter.resolveAll now pre l).resolved d now).Orderly :=
    ⟨(hpre d.key).1.sum, (hpre d.key).1.sorted⟩
  have hevents := hresolved.prune_events now d.window
  refine ⟨(MemoryLimiter.resolveAll now pre l).pruned d now, ?_, hresolved.prune now d.window,
    rfl, ?_, hfull, ?_⟩
  · rw [MemoryLimiter.step, MemoryLimiter.call, MemoryLimiter.allow, MemoryLimiter.allowWith,
      MemoryLimiter.allowLoop_of_some hstop, MemoryLimiter.resolveAll, List.foldl_append]
    exact MemoryLimiter.resolve_find _ d now
  · rw [MemoryLimiter.pruned, hevents]
    exact (l.resolveAll_shrinks now pre d.key).sublist.filter _
  · rw [MemoryLimiter.allow, MemoryLimiter.allowWith, MemoryLimiter.allowLoop_of_some hstop]

variable (h : Rejects l now dims n d)
  (hrange : total ((l.events d.key).filter fun ev ↦ now - d.window < ev.time) < 2 ^ 63)

include h hrange

/-- The window that a rejection is based on, and what `room_iff` says of it. -/
theorem Rejects.room :
    ∃ w, (l.step (.allow now dims n)).find d.key = some w ∧ w.Orderly ∧ w.dur = d.window ∧
      (∀ ev ∈ w.events, 0 ≤ ev.cost) ∧ total w.events + n < 2 ^ 63 ∧ d.limit < 2 ^ 63 ∧
      ∀ t, total (w.events.filter fun ev ↦ t - d.window < ev.time) + n ≤ d.limit ↔
        now + (l.allow now dims n).1.retryAfter ≤ t := by
  obtain ⟨w, hfind, horderly, hdur, hsub, hfull, hretry⟩ := h.window
  have hlive : ∀ ev ∈ w.events, ev ∈ l.events d.key ∧ now - d.window < ev.time := by
    intro ev hev
    simpa using hsub.subset hev
  have hcosts : ∀ ev ∈ w.events, 0 ≤ ev.cost := fun ev hev ↦ h.costs ev (hlive ev hev).1
  have htotal : total w.events < 2 ^ 63 := by
    refine lt_of_le_of_lt (total_sublist_le hsub fun ev hev ↦ ?_) hrange
    exact h.costs ev (List.mem_filter.mp hev).1
  rw [horderly.sum] at hfull hretry
  have hfits := add_lt_of_full htotal h.fits hfull
  have hpos : 0 ≤ total w.events := total_nonneg hcosts
  have hint := h.int
  have hlimit : d.limit < 2 ^ 63 := by
    rw [int64_add, int64_of_bounds (by omega) hfits] at hfull
    omega
  refine ⟨w, hfind, horderly, hdur, hcosts, hfits, hlimit, fun t ↦ ?_⟩
  rw [hretry]
  exact room_iff horderly.sorted hcosts (fun ev hev ↦ (hlive ev hev).2) htotal h.int h.fits hfull t

end Wait

/-- **The time to wait is exact.**  As long as nothing is charged to the key in between, there is
room from then on; and there is none before, as long as the counter of the key is not evicted and no
shorter window is named for it. -/
theorem retryAfter_exact (l : MemoryLimiter) (now : Int) (dims : List Dimension) (n : Int)
    (d : Dimension) (h : Rejects l now dims n d)
    (hrange : total ((l.events d.key).filter fun ev ↦ now - d.window < ev.time) < 2 ^ 63)
    (between : List Call) (t : Int) (hto : ∀ c ∈ between, c.now ≤ t)
    (huncharged : Run.Along MemoryLimiter.step (fun l c ↦ ¬l.Charges c d.key)
      (l.step (.allow now dims n)) between) :
    (now + (l.allow now dims n).1.retryAfter ≤ t →
        (Run.run MemoryLimiter.step (l.step (.allow now dims n)) between).HasRoom d t n) ∧
      (t < now + (l.allow now dims n).1.retryAfter →
        Run.Along MemoryLimiter.step (MemoryLimiter.Keeps d.key d.window)
          (l.step (.allow now dims n)) between →
        ¬(Run.run MemoryLimiter.step (l.step (.allow now dims n)) between).HasRoom d t n) := by
  obtain ⟨w, hfind, horderly, hdur, hcosts, hfits, hlimit, hroom⟩ := h.room hrange
  have hevents : (l.step (.allow now dims n)).events d.key = w.events :=
    MemoryLimiter.events_of_find hfind
  have hstart : Left d.key w.events (l.step (.allow now dims n)) :=
    ⟨by rw [MemoryLimiter.current_of_find hfind, horderly.sum, hevents],
      hevents ▸ List.suffix_refl _⟩
  have hleft := hstart.run huncharged
  have hcurrent :
      ((Run.run MemoryLimiter.step (l.step (.allow now dims n)) between).current d.key).Orderly :=
    ⟨hleft.sum, horderly.sorted.sublist hleft.events.sublist⟩
  -- No sum is out of range: what is live at `t` is some of what the rejection was based on.
  obtain ⟨hpos, hle⟩ := hleft.total_le hcosts (t - d.window)
  have hmost : total (w.events.filter fun ev ↦ t - d.window < ev.time) ≤ total w.events :=
    total_sublist_le List.filter_sublist hcosts
  have hint := h.int
  rw [MemoryLimiter.hasRoom_iff hcurrent, int64_of_bounds (by omega) (by omega)]
  refine ⟨fun hwaited ↦ ?_, fun hearly hkeeps ↦ ?_⟩
  · have hwould := (hroom t).mpr hwaited
    omega
  · have hcutoff : ∀ c ∈ between, c.now - d.window ≤ t - d.window := by
      intro c hc
      have := hto c hc
      omega
    obtain ⟨w', hfind', hheld⟩ := Held.run ⟨w, hfind, hdur.ge, rfl⟩ huncharged hkeeps hcutoff
    rw [MemoryLimiter.events_of_find hfind', hheld.live, hroom t]
    omega

/-- Tokens of a key, and the requests of another key in between. 60 of the 110 tokens have to leave,
the first of them at 60. -/
theorem retryAfter_exact_sample :
    let tpm : Dimension := ⟨"key:k", .tpm, 100, 60⟩
    let other : Dimension := ⟨"key:j", .rpm, 5, 60⟩
    let l :=
      Run.run MemoryLimiter.step (newMemoryLimiter 2 600) [.debit 0 [tpm] 60, .debit 10 [tpm] 50]
    let between : List Call := [.allow 30 [other] 1, .allow 40 [other, tpm] 1]
    (Run.run MemoryLimiter.step (l.step (.allow 20 [tpm] 0)) between).HasRoom tpm 60 0 ∧
      ¬(Run.run MemoryLimiter.step (l.step (.allow 20 [tpm] 0)) between).HasRoom tpm 59 0 := by
  intro tpm other l between
  have hrejects : Rejects l 20 [tpm] 0 tpm :=
    ⟨⟨2, 600, _, by decide, by decide, rfl⟩, ⟨[], by decide⟩, by decide, by decide, by decide⟩
  have hexact := retryAfter_exact l 20 [tpm] 0 tpm hrejects (by decide) between
  exact ⟨(hexact 60 (by decide) (by decide)).1 (by decide),
    (hexact 59 (by decide) (by decide)).2 (by decide) (by decide)⟩

/-- The check after a rejection has room exactly when the time to wait is over. -/
def Exact (l : MemoryLimiter) (now : Int) (dims : List Dimension) (n : Int) (d : Dimension)
    (between : List Call) (t : Int) : Prop :=
  (Run.run MemoryLimiter.step (l.step (.allow now dims n)) between).HasRoom d t n ↔
    now + (l.allow now dims n).1.retryAfter ≤ t

/-- Calls in the order of their times, none of which charges the key of a dimension. -/
structure Quiet (l : MemoryLimiter) (now : Int) (between : List Call) (key : String)
    (t : Int) : Prop where
  clock : between.Pairwise fun c c' ↦ c.now ≤ c'.now
  after : ∀ c ∈ between, now ≤ c.now
  before : ∀ c ∈ between, c.now ≤ t
  uncharged : Run.Along MemoryLimiter.step (fun l c ↦ ¬l.Charges c key) l between

/-- That nothing is charged to the key is not enough.  There is room too early when the counter of
the key has been evicted for another key, and when a call in between has named a shorter window for
the key; and there is none at a later time when a sum has wrapped. -/
theorem retryAfter_inexact :
    (¬∀ l now dims n d between t, Rejects l now dims n d → now ≤ t →
      total ((l.events d.key).filter fun ev ↦ now - d.window < ev.time) < 2 ^ 63 →
      Quiet (l.step (.allow now dims n)) now between d.key t →
      (∀ c ∈ between, ∀ d' ∈ c.dims, d'.key = d.key → d'.window = d.window) →
      Exact l now dims n d between t) ∧
    (¬∀ l now dims n d between t, Rejects l now dims n d → now ≤ t →
      total ((l.events d.key).filter fun ev ↦ now - d.window < ev.time) < 2 ^ 63 →
      Quiet (l.step (.allow now dims n)) now between d.key t →
      (∀ l' ∈ Run.visited MemoryLimiter.step (l.step (.allow now dims n)) between,
        (l'.find d.key).isSome) →
      Exact l now dims n d between t) ∧
    ¬∀ l now dims n d t, Rejects l now dims n d → now ≤ t → Exact l now dims n d [] t := by
  let rpm : Dimension := ⟨"key:k", .rpm, 1, 60⟩
  let other : Dimension := ⟨"key:j", .rpm, 1, 60⟩
  let tpm : Dimension := ⟨"key:k", .tpm, 5, 60⟩
  refine ⟨fun hall ↦ ?_, fun hall ↦ ?_, fun hall ↦ ?_⟩
  · -- There may be one counter, and it is the other key's from 2 on.
    let l := Run.run MemoryLimiter.step (newMemoryLimiter 1 600) [.allow 0 [rpm] 1]
    have hrejects : Rejects l 1 [rpm] 1 rpm :=
      ⟨⟨1, 600, _, by decide, by decide, rfl⟩, ⟨[], by decide⟩, by decide, by decide, by decide⟩
    have hexact := hall l 1 [rpm] 1 rpm [.allow 2 [other] 1] 3 hrejects (by decide) (by decide)
      ⟨by decide, by decide, by decide, by decide⟩ (by decide)
    exact absurd (hexact.mp (by decide)) (by decide)
  · -- A window of 10 is named at 20, and the event at 0 goes.
    let l := Run.run MemoryLimiter.step (newMemoryLimiter 2 600) [.allow 0 [rpm] 1]
    have hrejects : Rejects l 1 [rpm] 1 rpm :=
      ⟨⟨2, 600, _, by decide, by decide, rfl⟩, ⟨[], by decide⟩, by decide, by decide, by decide⟩
    have hexact := hall l 1 [rpm] 1 rpm [.allow 20 [{ rpm with window := 10 }] 0] 30 hrejects
      (by decide) (by decide) ⟨by decide, by decide, by decide, by decide⟩ (by decide)
    exact absurd (hexact.mp (by decide)) (by decide)
  · -- The sum is 5, and 7 once the first two events have left.
    let l := Run.run MemoryLimiter.step (newMemoryLimiter 2 600)
      [.debit 0 [tpm] (2 ^ 63 - 1), .debit 1 [tpm] (2 ^ 63 - 1), .debit 2 [tpm] 7]
    have hrejects : Rejects l 3 [tpm] 1 tpm :=
      ⟨⟨2, 600, _, by decide, by decide, rfl⟩, ⟨[], by decide⟩, by decide, by decide, by decide⟩
    have hexact := hall l 3 [tpm] 1 tpm 61 hrejects (by decide)
    exact absurd (hexact.mpr (by decide)) (by decide)

end Ratelimit

end Voxeltoad
