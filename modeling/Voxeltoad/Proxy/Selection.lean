import Mathlib
import Voxeltoad.Lib.Run
import Voxeltoad.Proxy.Affinity

/-!
# No provider is lost

Whatever the strategy of a route, its ordering is a permutation of the providers, and the candidates
are the healthy ones in that order, or all of them when none is healthy (`candidates_of_healthy`,
`candidates_of_unhealthy`).

The weighted strategy draws a number below the sum of the weights.  Each provider owns the interval
of draws between the weights before it and the weights up to it (`pickIndex_eq_iff`), so it is
picked by as many draws as its weight says, and what remains after some picks is drawn from in the
same way.

The round-robin cursor of an alias moves on with every call for that alias and with no other, so the
calls for an alias start at one position after the other (`roundRobin_answers`).
-/

set_option autoImplicit false

namespace Voxeltoad

/-! ## Rotation -/

theorem rotate_perm (start : Nat) (ps : List RouteProvider) : (rotate start ps).Perm ps := by
  have h : (ps.drop start ++ ps.take start).Perm (ps.take start ++ ps.drop start) :=
    List.perm_append_comm
  rwa [List.take_append_drop] at h

/-! ## The intervals of a draw -/

/-- The sum of the weights of the first `k` providers. -/
def weightBefore (ps : List RouteProvider) (k : Nat) : Int := ((ps.take k).map weightOf).sum

/-- The sum of the weights does not overflow. -/
def WeightsInRange (ps : List RouteProvider) : Prop := (ps.map weightOf).sum < 2 ^ 63

instance (ps : List RouteProvider) : Decidable (WeightsInRange ps) :=
  inferInstanceAs (Decidable (_ < _))

theorem weightOf_pos (p : RouteProvider) : 0 < weightOf p := by
  rw [weightOf]
  split <;> omega

section Weights

variable {ps : List RouteProvider}

theorem sum_weightOf_nonneg (ps : List RouteProvider) : 0 ≤ (ps.map weightOf).sum := by
  refine List.sum_nonneg fun w hw ↦ ?_
  obtain ⟨p, -, rfl⟩ := List.mem_map.mp hw
  exact (weightOf_pos p).le

theorem sum_weightOf_le_of_sublist {ps ps' : List RouteProvider} (h : ps'.Sublist ps) :
    (ps'.map weightOf).sum ≤ (ps.map weightOf).sum := by
  induction h with
  | slnil => exact le_rfl
  | cons p _ ih =>
    have := weightOf_pos p
    simp only [List.map_cons, List.sum_cons]
    omega
  | cons_cons p _ ih =>
    simp only [List.map_cons, List.sum_cons]
    omega

theorem WeightsInRange.sublist {ps' : List RouteProvider} (h : WeightsInRange ps)
    (hsub : ps'.Sublist ps) : WeightsInRange ps' :=
  lt_of_le_of_lt (sum_weightOf_le_of_sublist hsub) h

theorem totalWeight_eq (h : WeightsInRange ps) : totalWeight ps = (ps.map weightOf).sum := by
  have hfold : ∀ (qs : List RouteProvider) (total : Int), 0 ≤ total →
      total + (qs.map weightOf).sum < 2 ^ 63 →
      qs.foldl (fun total p ↦ int64 (total + weightOf p)) total =
        total + (qs.map weightOf).sum := by
    intro qs
    induction qs with
    | nil => simp
    | cons q qs ih =>
      intro total htotal hrange
      have hq := weightOf_pos q
      have hqs := sum_weightOf_nonneg qs
      simp only [List.map_cons, List.sum_cons] at hrange ⊢
      rw [List.foldl_cons, int64_of_range (by omega) (by omega), ih _ (by omega) (by omega)]
      omega
  rw [totalWeight, hfold ps 0 le_rfl (by simpa [WeightsInRange] using h), Int.zero_add]

theorem weightBefore_succ {k : Nat} (hk : k < ps.length) :
    weightBefore ps (k + 1) = weightBefore ps k + weightOf ps[k] := by
  rw [weightBefore, weightBefore, List.take_succ_eq_append_getElem hk, List.map_append,
    List.sum_append]
  simp

theorem weightBefore_mono (ps : List RouteProvider) {j k : Nat} (h : j < k) :
    weightBefore ps (j + 1) ≤ weightBefore ps k := by
  refine sum_weightOf_le_of_sublist ?_
  exact (List.take_prefix_take_left h).sublist

theorem weightBefore_length : weightBefore ps ps.length = (ps.map weightOf).sum := by
  rw [weightBefore, List.take_length]

theorem weightBefore_nonneg (ps : List RouteProvider) (k : Nat) : 0 ≤ weightBefore ps k :=
  sum_weightOf_nonneg _

/-- Where `pickIndex` stops: at the provider whose interval the draw is in. -/
theorem pickIndex_spec {pick cum : Int} {i : Nat} (hcum : 0 ≤ cum)
    (hrange : cum + (ps.map weightOf).sum < 2 ^ 63) (hle : cum ≤ pick)
    (hlt : pick < cum + (ps.map weightOf).sum) :
    ∃ k < ps.length, pickIndex pick cum i ps = i + k ∧ cum + weightBefore ps k ≤ pick ∧
      pick < cum + weightBefore ps (k + 1) := by
  induction ps generalizing cum i with
  | nil => simp at hlt; omega
  | cons p ps ih =>
    have hp := weightOf_pos p
    have hps := sum_weightOf_nonneg ps
    simp only [List.map_cons, List.sum_cons] at hrange hlt
    have hstep : ∀ k, weightBefore (p :: ps) (k + 1) = weightOf p + weightBefore ps k := by
      intro k
      simp only [weightBefore, List.take_succ_cons, List.map_cons, List.sum_cons]
    rw [pickIndex, int64_of_range (by omega) (by omega)]
    by_cases hpick : pick < cum + weightOf p
    · have hzero : weightBefore (p :: ps) 0 = 0 := rfl
      have hone : weightBefore ps 0 = 0 := rfl
      refine ⟨0, by simp, if_pos hpick, by omega, ?_⟩
      rw [hstep]
      omega
    · obtain ⟨k, hk, heq, hlo, hhi⟩ :=
        ih (i := i + 1) (show 0 ≤ cum + weightOf p by omega) (by omega) (by omega) (by omega)
      refine ⟨k + 1, by simpa using hk, ?_, ?_, ?_⟩
      · rw [if_neg hpick, heq]
        omega
      · rw [hstep]
        omega
      · rw [hstep]
        omega

/-- **Each provider owns the draws between the weights before it and the weights up to it.** -/
theorem pickIndex_eq_iff (h : WeightsInRange ps) {pick : Int} (h₀ : 0 ≤ pick)
    (hlt : pick < (ps.map weightOf).sum) {k : Nat} :
    pickIndex pick 0 0 ps = k ↔ weightBefore ps k ≤ pick ∧ pick < weightBefore ps (k + 1) := by
  obtain ⟨j, -, heq, hlo, hhi⟩ :=
    pickIndex_spec (i := 0) le_rfl (by simpa [WeightsInRange] using h) h₀ (by omega)
  rw [heq]
  constructor
  · rintro rfl
    rw [Nat.zero_add]
    exact ⟨by omega, by omega⟩
  · rintro ⟨hlo', hhi'⟩
    rcases Nat.lt_trichotomy j k with hjk | rfl | hkj
    · have := weightBefore_mono ps hjk
      omega
    · omega
    · have := weightBefore_mono ps hkj
      omega

/-- A provider is picked by as many draws as its weight says. -/
theorem card_pickIndex (h : WeightsInRange ps) {k : Nat} (hk : k < ps.length) :
    (((Finset.Ico 0 (totalWeight ps)).filter fun pick ↦ pickIndex pick 0 0 ps = k).card : Int) =
      weightOf ps[k] := by
  have hfilter : ((Finset.Ico 0 (totalWeight ps)).filter fun pick ↦ pickIndex pick 0 0 ps = k) =
      Finset.Ico (weightBefore ps k) (weightBefore ps (k + 1)) := by
    ext pick
    rw [Finset.mem_filter, Finset.mem_Ico, Finset.mem_Ico, totalWeight_eq h]
    constructor
    · rintro ⟨⟨h₀, hlt⟩, heq⟩
      exact (pickIndex_eq_iff h h₀ hlt).mp heq
    · rintro ⟨hlo, hhi⟩
      have h₀ := weightBefore_nonneg ps k
      have hlength := weightBefore_mono ps hk
      rw [weightBefore_length] at hlength
      have hlt : pick < (ps.map weightOf).sum := by omega
      exact ⟨⟨by omega, hlt⟩, (pickIndex_eq_iff h (by omega) hlt).mpr ⟨hlo, hhi⟩⟩
  have hpos := weightOf_pos ps[k]
  have hsucc := weightBefore_succ hk
  rw [hfilter, Int.card_Ico, hsucc]
  omega

end Weights

/-! ## Draws without replacement -/

section Draws

variable (randn : Nat → Int → Int)

theorem pickIndex_lt (pick cum : Int) (i : Nat) {ps : List RouteProvider} (h : ps ≠ []) :
    pickIndex pick cum i ps < i + ps.length := by
  induction ps generalizing cum i with
  | nil => exact absurd rfl h
  | cons p ps ih =>
    rw [pickIndex, List.length_cons]
    split
    · omega
    · by_cases hps : ps = []
      · rw [hps, pickIndex]
        omega
      · have := ih (int64 (cum + weightOf p)) (i + 1) hps
        omega

theorem weightedHead_lt {ps : List RouteProvider} (h : ps ≠ []) :
    weightedHead randn ps < ps.length := by
  have := pickIndex_lt (randn ps.length (totalWeight ps)) 0 0 h
  rw [weightedHead]
  omega

@[simp] theorem weightedOrder_nil : weightedOrder randn [] = [] := by
  rw [weightedOrder]
  rfl

theorem weightedOrder_eq {ps : List RouteProvider} (h : weightedHead randn ps < ps.length) :
    weightedOrder randn ps =
      ps[weightedHead randn ps] :: weightedOrder randn (ps.eraseIdx (weightedHead randn ps)) := by
  have hsome := List.getElem?_eq_getElem h
  rw [weightedOrder]
  split
  · rename_i hnone
    exact absurd (hsome.symm.trans hnone) (by simp)
  · rename_i p hp
    obtain rfl := Option.some.inj (hp.symm.trans hsome)
    rfl

/-- What remains after `k` picks. -/
def remaining : Nat → List RouteProvider → List RouteProvider
  | 0, ps => ps
  | k + 1, ps => remaining k (ps.eraseIdx (weightedHead randn ps))

theorem length_remaining (k : Nat) (ps : List RouteProvider) :
    (remaining randn k ps).length = ps.length - k := by
  induction k generalizing ps with
  | zero => rfl
  | succ k ih =>
    rw [remaining, ih]
    by_cases h : ps = []
    · rw [h]
      simp
    · rw [List.length_eraseIdx_of_lt (weightedHead_lt randn h)]
      omega

theorem remaining_sublist (k : Nat) (ps : List RouteProvider) :
    (remaining randn k ps).Sublist ps := by
  induction k generalizing ps with
  | zero => exact List.Sublist.refl ps
  | succ k ih => exact (ih _).trans (List.eraseIdx_sublist ps _)

/-- The ordering goes on with what remains. -/
theorem drop_weightedOrder (k : Nat) (ps : List RouteProvider) :
    (weightedOrder randn ps).drop k = weightedOrder randn (remaining randn k ps) := by
  induction k generalizing ps with
  | zero => rfl
  | succ k ih =>
    by_cases h : ps = []
    · have := length_remaining randn (k + 1) ps
      have hnil : remaining randn (k + 1) ps = [] := by
        rw [h] at this
        exact List.eq_nil_of_length_eq_zero (by simpa [h] using this)
      rw [hnil, h, weightedOrder_nil, List.drop_nil]
    · rw [weightedOrder_eq randn (weightedHead_lt randn h), List.drop_succ_cons, ih, remaining]

/-- Those that were picked and those that remain are all there are. -/
theorem take_append_remaining (k : Nat) (ps : List RouteProvider) :
    ((weightedOrder randn ps).take k ++ remaining randn k ps).Perm ps := by
  induction k generalizing ps with
  | zero => exact List.Perm.refl ps
  | succ k ih =>
    by_cases h : ps = []
    · have := (remaining_sublist randn (k + 1) ps)
      rw [h] at this ⊢
      rw [List.sublist_nil.mp this, weightedOrder_nil, List.take_nil]
      exact List.Perm.refl _
    · have hlt := weightedHead_lt randn h
      rw [weightedOrder_eq randn hlt, List.take_succ_cons, List.cons_append, remaining]
      exact ((ih _).cons _).trans (List.getElem_cons_eraseIdx_perm hlt)

theorem length_weightedOrder (ps : List RouteProvider) :
    (weightedOrder randn ps).length = ps.length := by
  induction ps using weightedOrder.induct randn with
  | case1 ps hnone =>
    by_cases h : ps = []
    · rw [h, weightedOrder_nil]
    · exact absurd hnone (by simp [weightedHead_lt randn h])
  | case2 ps p hsome _ ih =>
    obtain ⟨hlt, -⟩ := List.getElem?_eq_some_iff.mp hsome
    rw [weightedOrder_eq randn hlt, List.length_cons, ih, List.length_eraseIdx_of_lt hlt]
    omega

/-- **Every provider is picked once.** -/
theorem weightedOrder_perm (ps : List RouteProvider) : (weightedOrder randn ps).Perm ps := by
  have h := take_append_remaining randn ps.length ps
  have hlength := length_remaining randn ps.length ps
  rw [Nat.sub_self] at hlength
  rwa [List.eq_nil_of_length_eq_zero hlength, List.append_nil,
    List.take_of_length_le (length_weightedOrder randn ps).le] at h

/-- The same source, but for the draw from `n` remaining providers. -/
def withDraw (n : Nat) (pick : Int) : Nat → Int → Int :=
  fun k total ↦ if k = n then pick else randn k total

/-- A later draw does not change what was picked before it. -/
theorem picks_withDraw {k : Nat} {ps : List RouteProvider} (h : k < ps.length) (pick : Int) :
    remaining (withDraw randn (ps.length - k) pick) k ps = remaining randn k ps ∧
      (weightedOrder (withDraw randn (ps.length - k) pick) ps).take k =
        (weightedOrder randn ps).take k := by
  induction k generalizing ps with
  | zero => exact ⟨rfl, rfl⟩
  | succ k ih =>
    have hps : ps ≠ [] := List.ne_nil_of_length_pos (by omega)
    have hlt := weightedHead_lt randn hps
    have hhead :
        weightedHead (withDraw randn (ps.length - (k + 1)) pick) ps = weightedHead randn ps := by
      rw [weightedHead, withDraw, if_neg (by omega), weightedHead]
    have hlength := List.length_eraseIdx_of_lt hlt
    have heq : ps.length - (k + 1) = (ps.eraseIdx (weightedHead randn ps)).length - k := by omega
    have hlt' : k < (ps.eraseIdx (weightedHead randn ps)).length := by omega
    obtain ⟨hremaining, htake⟩ := ih hlt'
    rw [← heq] at hremaining htake
    have horder := weightedOrder_eq (withDraw randn (ps.length - (k + 1)) pick) (hhead ▸ hlt)
    simp only [hhead] at horder
    refine ⟨?_, ?_⟩
    · rw [remaining, remaining, hhead, hremaining]
    · rw [horder, weightedOrder_eq randn hlt, List.take_succ_cons, List.take_succ_cons, htake]

/-- The pick after `k` picks is the one the draw falls on. -/
theorem getElem?_weightedOrder_withDraw {k : Nat} {ps : List RouteProvider} (h : k < ps.length)
    (pick : Int) : (weightedOrder (withDraw randn (ps.length - k) pick) ps)[k]? =
      (remaining randn k ps)[pickIndex pick 0 0 (remaining randn k ps)]? := by
  have hlength := length_remaining randn k ps
  have hne : remaining randn k ps ≠ [] := List.ne_nil_of_length_pos (by omega)
  have hlt := weightedHead_lt (withDraw randn (ps.length - k) pick) hne
  have hhead : weightedHead (withDraw randn (ps.length - k) pick) (remaining randn k ps) =
      pickIndex pick 0 0 (remaining randn k ps) := by
    rw [weightedHead, withDraw, if_pos hlength]
  have hdrop := drop_weightedOrder (withDraw randn (ps.length - k) pick) k ps
  rw [(picks_withDraw randn h pick).1, weightedOrder_eq _ hlt] at hdrop
  rw [← List.head?_drop, hdrop, List.head?_cons, ← List.getElem?_eq_getElem hlt, hhead]

end Draws

/-! ## Candidates -/

theorem order_perm (r : Router) (modelAlias sessionKey : String) (rt : Route) :
    (r.order modelAlias sessionKey rt).Perm rt.providers := by
  rw [Router.order]
  split
  · exact rotate_perm _ _
  · exact weightedOrder_perm _ _
  · exact hrwOrder_perm _ _
  · exact List.Perm.refl _

namespace Router

variable {healthy : String → Bool} {names : List String}

theorem filterHealthy_of_healthy (h : ∃ n ∈ names, healthy n = true) :
    filterHealthy healthy names = names.filter healthy := by
  obtain ⟨n, hn, hhealthy⟩ := h
  rw [filterHealthy, if_neg]
  exact List.ne_nil_of_mem (List.mem_filter.mpr ⟨hn, hhealthy⟩)

theorem filterHealthy_of_unhealthy (h : ∀ n ∈ names, healthy n = false) :
    filterHealthy healthy names = names := by
  rw [filterHealthy, if_pos]
  exact List.filter_eq_nil_iff.mpr fun n hn ↦ by simp [h n hn]

theorem filterHealthy_of_all (h : ∀ n ∈ names, healthy n = true) :
    filterHealthy healthy names = names := by
  rw [filterHealthy, List.filter_eq_self.mpr h, ite_self]

end Router

/-! ## Round robin -/

/-- A call of `Candidates`. -/
structure RouterCall where
  healthy : String → Bool
  modelAlias : String
  sessionKey : String

/-- A router takes a call. -/
def Router.call (r : Router) (c : RouterCall) : Option (List String) × Router :=
  r.candidates c.healthy c.modelAlias c.sessionKey

/-- What the calls for an alias return in a run. -/
def Router.answersFor (r : Router) (modelAlias : String) (calls : List RouterCall) :
    List (Option (List String)) :=
  ((calls.zip (Run.answers Router.call r calls)).filter fun entry ↦
    entry.1.modelAlias = modelAlias).map Prod.snd

theorem Router.length_answersFor (r : Router) (modelAlias : String) (calls : List RouterCall) :
    (r.answersFor modelAlias calls).length = calls.countP fun c ↦ c.modelAlias = modelAlias := by
  induction calls generalizing r with
  | nil => rfl
  | cons c calls ih =>
    have ih := ih (r.call c).2
    rw [Router.answersFor, List.length_map] at ih ⊢
    rw [Run.answers, List.zip_cons_cons]
    by_cases hc : c.modelAlias = modelAlias
    · rw [List.filter_cons_of_pos (by simpa using hc), List.countP_cons_of_pos (by simpa using hc),
        List.length_cons, ih]
    · rw [List.filter_cons_of_neg (by simpa using hc), List.countP_cons_of_neg (by simpa using hc),
        ih]

theorem Router.route_call (r : Router) (c : RouterCall) (modelAlias : String) :
    (r.call c).2.route modelAlias = r.route modelAlias := by
  have hadvance : ∀ rt, (r.advance c.modelAlias rt).route modelAlias = r.route modelAlias := by
    intro rt
    rw [Router.advance]
    split <;> rfl
  rw [Router.call, Router.candidates]
  split
  · rfl
  · exact hadvance _

/-- Only a call for an alias moves its cursor. -/
theorem Router.rrIndex_call_of_ne (r : Router) {c : RouterCall} {modelAlias : String}
    (h : c.modelAlias ≠ modelAlias) : (r.call c).2.rrIndex modelAlias = r.rrIndex modelAlias := by
  have hadvance : ∀ rt, (r.advance c.modelAlias rt).rrIndex modelAlias = r.rrIndex modelAlias := by
    intro rt
    rw [Router.advance]
    split
    · exact if_neg (Ne.symm h)
    · rfl
  rw [Router.call, Router.candidates]
  split
  · rfl
  · exact hadvance _

/-- An alias is routed round robin, and all of its providers are healthy whenever it is called. -/
structure RouterCall.Serves (r : Router) (modelAlias : String) (rt : Route)
    (calls : List RouterCall) : Prop where
  route : r.route modelAlias = some rt
  strategy : rt.strategy = .roundRobin
  healthy : ∀ c ∈ calls, c.modelAlias = modelAlias → ∀ p ∈ rt.providers, c.healthy p.name = true

section RoundRobin

variable {r : Router} {modelAlias : String} {rt : Route} {c : RouterCall} {calls : List RouterCall}

theorem RouterCall.Serves.step (h : Serves r modelAlias rt (c :: calls)) :
    Serves (r.call c).2 modelAlias rt calls :=
  ⟨(r.route_call c modelAlias).trans h.route, h.strategy,
    fun c' hc' ↦ h.healthy c' (List.mem_cons_of_mem _ hc')⟩

/-- A call for the alias starts where the cursor points, and the cursor moves on. -/
theorem RouterCall.Serves.call (h : Serves r c.modelAlias rt (c :: calls))
    (hne : rt.providers ≠ []) :
    (r.call c).1 = some ((rotate (r.rrIndex c.modelAlias % rt.providers.length) rt.providers).map
      RouteProvider.name) ∧
    (r.call c).2.rrIndex c.modelAlias = (r.rrIndex c.modelAlias + 1) % rt.providers.length := by
  have hadvance : (r.advance c.modelAlias rt).rrIndex c.modelAlias =
      (r.rrIndex c.modelAlias + 1) % rt.providers.length := by
    rw [Router.advance, if_pos ⟨h.strategy, hne⟩]
    exact if_pos rfl
  rw [Router.call, Router.candidates, h.route]
  refine ⟨?_, hadvance⟩
  show some (Router.filterHealthy c.healthy ((r.order c.modelAlias c.sessionKey rt).map _)) = _
  rw [Router.order, h.strategy, Router.filterHealthy_of_all]
  intro n hn
  obtain ⟨p, hp, rfl⟩ := List.mem_map.mp hn
  exact h.healthy c (List.mem_cons_self ..) rfl p (mem_rotate.mp hp)

/-- **The calls for an alias start at one position after the other.** -/
theorem roundRobin_answers (h : RouterCall.Serves r modelAlias rt calls) (hne : rt.providers ≠ []) :
    r.answersFor modelAlias calls =
      (List.range (calls.countP fun c ↦ c.modelAlias = modelAlias)).map fun j ↦
        some ((rotate ((r.rrIndex modelAlias + j) % rt.providers.length) rt.providers).map
          RouteProvider.name) := by
  induction calls generalizing r with
  | nil => rfl
  | cons c calls ih =>
    have ih := ih h.step
    rw [Router.answersFor] at ih ⊢
    rw [Run.answers, List.zip_cons_cons]
    by_cases hc : c.modelAlias = modelAlias
    · subst hc
      obtain ⟨hanswer, hcursor⟩ := h.call hne
      rw [List.filter_cons_of_pos (by simp), List.map_cons, ih, List.countP_cons_of_pos (by simp),
        List.range_succ_eq_map, List.map_cons, List.map_map, hcursor, hanswer, Nat.add_zero]
      congr 1
      refine List.map_congr_left fun j _ ↦ ?_
      show some _ = some _
      rw [Nat.mod_add_mod, Nat.succ_eq_add_one, Nat.add_comm j 1, Nat.add_assoc]
    · rw [List.filter_cons_of_neg (by simpa using hc), ih,
        List.countP_cons_of_neg (by simpa using hc), r.rrIndex_call_of_ne hc]

end RoundRobin

/-- A window of `n` numbers meets every residue once. -/
theorem window_perm (c n : Nat) : ((List.range n).map fun j ↦ (c + j) % n).Perm (List.range n) := by
  have hnodup : ((List.range n).map fun j ↦ (c + j) % n).Nodup := by
    refine List.Nodup.map_on (fun i hi j hj heq ↦ ?_) List.nodup_range
    rw [List.mem_range] at hi hj
    have hmod : i % n = j % n := Nat.ModEq.add_left_cancel' c heq
    rwa [Nat.mod_eq_of_lt hi, Nat.mod_eq_of_lt hj] at hmod
  refine (List.subperm_of_subset hnodup fun m hm ↦ ?_).perm_of_length_le (by simp)
  obtain ⟨j, hj, rfl⟩ := List.mem_map.mp hm
  rw [List.mem_range] at hj ⊢
  exact Nat.mod_lt _ (by omega)

/-! ## Selection -/

/-- The order of each strategy. -/
theorem order_strategy (r : Router) (modelAlias sessionKey : String) (rt : Route) :
    let order := r.order modelAlias sessionKey rt
    (rt.strategy = .priority → order = rt.providers) ∧
      (rt.strategy = .weighted → order = weightedOrder r.randn rt.providers) ∧
      (rt.strategy = .roundRobin →
        order = rotate (r.rrIndex modelAlias % rt.providers.length) rt.providers) ∧
      (rt.strategy = .sessionAffinity → order = hrwOrder (r.hrwScore sessionKey) rt.providers) := by
  refine ⟨fun h ↦ ?_, fun h ↦ ?_, fun h ↦ ?_, fun h ↦ ?_⟩ <;> rw [Router.order, h]

/-- **Candidate selection.**  The candidates are the healthy providers in the order of the strategy,
or all of them when none is healthy, and the order is a permutation of the providers: as they are
configured, a weighted one, turned by the cursor, or by the scores of the session.  A weighted order
is one whatever the weights are, and at each of its places as many draws as its weight says put a
provider there that is left.  As many calls as there are providers start at each of them once. -/
theorem candidate_selection :
    (∀ (r : Router) (healthy : String → Bool) (modelAlias sessionKey : String) (rt : Route),
      r.route modelAlias = some rt →
      let order := r.order modelAlias sessionKey rt
      let names := order.map RouteProvider.name
      order.Perm rt.providers ∧
      ((rt.strategy = .priority → order = rt.providers) ∧
        (rt.strategy = .weighted → order = weightedOrder r.randn rt.providers) ∧
        (rt.strategy = .roundRobin →
          order = rotate (r.rrIndex modelAlias % rt.providers.length) rt.providers) ∧
        (rt.strategy = .sessionAffinity → order = hrwOrder (r.hrwScore sessionKey) rt.providers)) ∧
      (r.candidates healthy modelAlias sessionKey).1 =
        some (if ∃ n ∈ names, healthy n = true then names.filter healthy else names)) ∧
    (∀ (randn : Nat → Int → Int) (ps : List RouteProvider), (weightedOrder randn ps).Perm ps) ∧
    (∀ (randn : Nat → Int → Int) (ps : List RouteProvider), WeightsInRange ps → ∀ k < ps.length,
      let rest := remaining randn k ps
      let draws := Finset.Ico 0 (totalWeight rest)
      let order := fun pick ↦ weightedOrder (withDraw randn rest.length pick) ps
      ((weightedOrder randn ps).take k ++ rest).Perm ps ∧
      (∀ pick, (order pick).take k = (weightedOrder randn ps).take k) ∧
      (∃ place : Int → Nat, (∀ pick ∈ draws, (order pick)[k]? = rest[place pick]?) ∧
        ∀ i (hi : i < rest.length),
          ((draws.filter fun pick ↦ place pick = i).card : Int) = weightOf rest[i]) ∧
      (ps.Nodup → ∀ p ∈ rest,
        ((draws.filter fun pick ↦ (order pick)[k]? = some p).card : Int) = weightOf p)) ∧
    ∀ (r : Router) (modelAlias : String) (rt : Route) (calls : List RouterCall),
      RouterCall.Serves r modelAlias rt calls →
      (calls.countP fun c ↦ c.modelAlias = modelAlias) = rt.providers.length →
      ∃ starts : List Nat, starts.Perm (List.range rt.providers.length) ∧
        r.answersFor modelAlias calls =
          starts.map fun start ↦ some ((rotate start rt.providers).map RouteProvider.name) := by
  refine ⟨?candidates, weightedOrder_perm, ?draws, ?roundRobin⟩
  case candidates =>
    intro r healthy modelAlias sessionKey rt hroute order names
    refine ⟨order_perm r modelAlias sessionKey rt, order_strategy r modelAlias sessionKey rt, ?_⟩
    rw [Router.candidates, hroute]
    show some (Router.filterHealthy healthy names) = _
    split
    · rename_i h
      rw [Router.filterHealthy_of_healthy h]
    · rename_i h
      rw [Router.filterHealthy_of_unhealthy fun n hn ↦ by
        by_contra hhealthy
        exact h ⟨n, hn, by simpa using hhealthy⟩]
  case draws =>
    intro randn ps hrange k hk rest draws order
    have hlength : rest.length = ps.length - k := length_remaining randn k ps
    have hrest : WeightsInRange rest := hrange.sublist (remaining_sublist randn k ps)
    have horder : ∀ pick, (order pick)[k]? = rest[pickIndex pick 0 0 rest]? := by
      intro pick
      show (weightedOrder (withDraw randn rest.length pick) ps)[k]? = _
      rw [hlength, getElem?_weightedOrder_withDraw randn hk]
    refine ⟨take_append_remaining randn k ps, fun pick ↦ ?_,
      ⟨fun pick ↦ pickIndex pick 0 0 rest, fun pick _ ↦ horder pick,
        fun i hi ↦ card_pickIndex hrest hi⟩, fun hnodup p hp ↦ ?_⟩
    · show (weightedOrder (withDraw randn rest.length pick) ps).take k = _
      rw [hlength, (picks_withDraw randn hk pick).2]
    · obtain ⟨i, hi, rfl⟩ := List.getElem_of_mem hp
      have hnodup : rest.Nodup := hnodup.sublist (remaining_sublist randn k ps)
      rw [← card_pickIndex hrest hi]
      congr 2
      refine Finset.filter_congr fun pick _ ↦ ?_
      rw [horder, List.getElem?_eq_some_iff]
      constructor
      · rintro ⟨hlt, heq⟩
        exact (hnodup.getElem_inj_iff).mp heq
      · rintro rfl
        exact ⟨hi, rfl⟩
  case roundRobin =>
    intro r modelAlias rt calls h hcount
    by_cases hnil : rt.providers = []
    · have hlength := r.length_answersFor modelAlias calls
      rw [hcount, hnil] at hlength
      exact ⟨[], by rw [hnil]; exact List.Perm.refl _, List.eq_nil_of_length_eq_zero hlength⟩
    · refine ⟨_, window_perm (r.rrIndex modelAlias) rt.providers.length, ?_⟩
      rw [roundRobin_answers h hnil, hcount, List.map_map]
      rfl

/-- Two providers of weight 2 and 1: two of the three draws put the first one first, and two calls
start at each of them once, with a call for another alias in between. -/
theorem candidate_selection_sample :
    let a : RouteProvider := ⟨"a", 2⟩
    let b : RouteProvider := ⟨"b", 0⟩
    let r : Router := ⟨[⟨"m", [a, b], .roundRobin⟩], fun _ ↦ 0, fun _ _ ↦ 0, fun _ _ ↦ 0⟩
    let calls : List RouterCall :=
      [⟨fun _ ↦ true, "m", ""⟩, ⟨fun _ ↦ false, "other", ""⟩, ⟨fun _ ↦ true, "m", ""⟩]
    (r.candidates (fun name ↦ decide (name = "b")) "m" "").1 = some ["b"] ∧
    (((Finset.Ico 0 (totalWeight [a, b])).filter fun pick ↦
      (weightedOrder (withDraw r.randn 2 pick) [a, b])[0]? = some a).card : Int) = 2 ∧
    ∃ starts : List Nat, starts.Perm [0, 1] ∧
      r.answersFor "m" calls =
        starts.map fun start ↦ some ((rotate start [a, b]).map RouteProvider.name) := by
  intro a b r calls
  obtain ⟨hcandidates, -, hdraws, hroundRobin⟩ := candidate_selection
  refine ⟨?_, ?_, ?_⟩
  · rw [(hcandidates r (fun name ↦ decide (name = "b")) "m" "" ⟨"m", [a, b], .roundRobin⟩ rfl).2.2]
    decide
  · exact (hdraws r.randn [a, b] (by decide) 0 (by decide)).2.2.2 (by decide) a
      (List.mem_cons_self ..)
  · exact hroundRobin r "m" ⟨"m", [a, b], .roundRobin⟩ calls
      ⟨rfl, rfl, by simp [calls]⟩ (by decide)

end Voxeltoad
