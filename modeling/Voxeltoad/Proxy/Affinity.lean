import Mathlib.Data.Prod.Lex
import Mathlib.Data.String.Basic
import Voxeltoad.Adapter.Message
import Voxeltoad.Lib.Rank
import Voxeltoad.Proxy.Router

/-!
# Session affinity

`hrwOrder` and `prefixHash` of `internal/proxy/affinity.go`.  A session is tried on the providers in
the order of their scores, so as long as the first of them is there and healthy it goes to the same
one.  The order is a sort by `hrwRank`, and distinct names give distinct ranks; all that is said
here about orders of providers comes from that.

A conversation without a session of its own is known by its beginning: the first system message and
the first message of the user.  What is appended later is never looked at (`prefixScan_append`).
-/

set_option autoImplicit false

namespace Voxeltoad

/-! ## The order of a session -/

/-- What providers are sorted by: the higher score first, then the name. -/
def hrwRank (score : String → UInt64) (p : RouteProvider) : Natᵒᵈ ×ₗ String :=
  toLex (OrderDual.toDual (score p.name).toNat, p.name)

theorem hrwRank_le_iff {score : String → UInt64} {p q : RouteProvider} :
    hrwRank score p ≤ hrwRank score q ↔ hrwBefore score q p = false := by
  have hlt : score p.name < score q.name ↔ (score p.name).toNat < (score q.name).toNat :=
    UInt64.lt_iff_toNat_lt
  have heq : score q.name = score p.name ↔ (score q.name).toNat = (score p.name).toNat :=
    UInt64.toNat_inj.symm
  rw [hrwRank, hrwRank, Prod.Lex.toLex_le_toLex, hrwBefore, decide_eq_false_iff_not,
    not_or, not_and, hlt, heq, OrderDual.toDual_lt_toDual, OrderDual.toDual_inj, not_lt, not_lt]
  constructor
  · rintro (h | ⟨h, hname⟩)
    · exact ⟨by omega, fun h' ↦ by omega⟩
    · exact ⟨by omega, fun _ ↦ hname⟩
  · rintro ⟨h, hname⟩
    rcases Nat.lt_or_eq_of_le h with h | h
    · exact .inl h
    · exact .inr ⟨h.symm, hname h⟩

theorem hrwOrder_eq (score : String → UInt64) (ps : List RouteProvider) :
    hrwOrder score ps = Rank.sortBy (hrwRank score) ps := by
  rw [hrwOrder, Rank.sortBy]
  congr 1
  funext p q
  exact propext hrwRank_le_iff.symm

/-- Providers with distinct names have distinct ranks. -/
theorem distinct_hrwRank {ps : List RouteProvider} (h : (ps.map RouteProvider.name).Nodup)
    (score : String → UInt64) : Rank.Distinct (hrwRank score) ps := by
  refine List.Nodup.of_map (fun rank ↦ (ofLex rank).2) ?_
  rw [List.map_map]
  exact h

section Order

variable {score : String → UInt64} {ps : List RouteProvider}

theorem hrwOrder_perm (score : String → UInt64) (ps : List RouteProvider) :
    (hrwOrder score ps).Perm ps := by
  rw [hrwOrder_eq]
  exact Rank.sortBy_perm ps

/-- The order of the list does not matter. -/
theorem hrwOrder_congr (h : (ps.map RouteProvider.name).Nodup) {ps' : List RouteProvider}
    (hperm : ps'.Perm ps) : hrwOrder score ps' = hrwOrder score ps := by
  rw [hrwOrder_eq, hrwOrder_eq, Rank.sortBy_congr (distinct_hrwRank h score) hperm]

/-- A provider that is removed leaves the others in their order. -/
theorem hrwOrder_erase (h : (ps.map RouteProvider.name).Nodup) (p : RouteProvider) :
    hrwOrder score (ps.erase p) = (hrwOrder score ps).erase p := by
  have hnodup : ps.Nodup := List.Nodup.of_map _ h
  have hsorted : (hrwOrder score ps).Nodup := (hrwOrder_perm score ps).nodup_iff.mpr hnodup
  rw [hnodup.erase_eq_filter, hsorted.erase_eq_filter, hrwOrder_eq, hrwOrder_eq,
    Rank.sortBy_filter (distinct_hrwRank h score)]

end Order

/-! ## The first candidate -/

/-- The first candidate of a session. -/
def Router.first (r : Router) (healthy : String → Bool) (modelAlias sessionKey : String) :
    Option String :=
  (r.candidates healthy modelAlias sessionKey).1.bind List.head?

/-- An alias is routed by session affinity over providers `ps`: their names are distinct, and one of
them is healthy. -/
structure Router.Sticky (r : Router) (healthy : String → Bool) (modelAlias : String)
    (ps : List RouteProvider) : Prop where
  route : ∃ rt, r.route modelAlias = some rt ∧ rt.strategy = .sessionAffinity ∧ rt.providers = ps
  distinct : (ps.map RouteProvider.name).Nodup
  healthy : ∃ p ∈ ps, healthy p.name = true

namespace Router.Sticky

variable {r : Router} {healthy : String → Bool} {modelAlias : String} {ps : List RouteProvider}

/-- The candidates are the healthy providers in the order of the session. -/
theorem candidates (h : r.Sticky healthy modelAlias ps) (sessionKey : String) :
    (r.candidates healthy modelAlias sessionKey).1 = some ((hrwOrder (r.hrwScore sessionKey)
      (ps.filter fun p ↦ healthy p.name)).map RouteProvider.name) := by
  obtain ⟨rt, hroute, hstrategy, rfl⟩ := h.route
  have hfilter : ((hrwOrder (r.hrwScore sessionKey) rt.providers).map RouteProvider.name).filter
      healthy = (hrwOrder (r.hrwScore sessionKey) (rt.providers.filter fun p ↦ healthy p.name)).map
        RouteProvider.name := by
    rw [List.filter_map, hrwOrder_eq, hrwOrder_eq,
      Rank.sortBy_filter (distinct_hrwRank h.distinct _)]
    rfl
  have hne : ((hrwOrder (r.hrwScore sessionKey) rt.providers).map RouteProvider.name).filter
      healthy ≠ [] := by
    obtain ⟨p, hp, hhealthy⟩ := h.healthy
    have hmem := (hrwOrder_perm (r.hrwScore sessionKey) rt.providers).mem_iff.mpr hp
    exact List.ne_nil_of_mem (List.mem_filter.mpr ⟨List.mem_map_of_mem hmem, hhealthy⟩)
  rw [Router.candidates, hroute]
  show some (Router.filterHealthy healthy ((r.order modelAlias sessionKey rt).map _)) = _
  rw [Router.order, hstrategy, Router.filterHealthy, if_neg hne, hfilter]

/-- The first candidate is the healthy provider with the least rank. -/
theorem first (h : r.Sticky healthy modelAlias ps) (sessionKey : String) :
    ∃ p ∈ ps, healthy p.name = true ∧ r.first healthy modelAlias sessionKey = some p.name ∧
      ∀ q ∈ ps, healthy q.name = true →
        hrwRank (r.hrwScore sessionKey) p ≤ hrwRank (r.hrwScore sessionKey) q := by
  obtain ⟨q, hq, hhealthy⟩ := h.healthy
  have hmem : ∀ {p}, p ∈ hrwOrder (r.hrwScore sessionKey) (ps.filter fun p ↦ healthy p.name) ↔
      p ∈ ps ∧ healthy p.name = true := by
    intro p
    rw [(hrwOrder_perm _ _).mem_iff, List.mem_filter]
  cases hsorted : hrwOrder (r.hrwScore sessionKey) (ps.filter fun p ↦ healthy p.name) with
  | nil => exact absurd (hsorted ▸ hmem.mpr ⟨hq, hhealthy⟩) List.not_mem_nil
  | cons p rest =>
    obtain ⟨hp, hp'⟩ := hmem.mp (hsorted ▸ List.mem_cons_self ..)
    refine ⟨p, hp, hp', ?_, fun q hq hq' ↦ ?_⟩
    · rw [Router.first, h.candidates, hsorted]
      rfl
    · have hq : q ∈ ps.filter fun p ↦ healthy p.name := List.mem_filter.mpr ⟨hq, hq'⟩
      refine Rank.le_of_head? ?_ hq
      rw [← hrwOrder_eq, hsorted]
      rfl

/-- Two first candidates are the same, unless one of them is missing or not healthy on the other
side: otherwise each has the least rank on both sides. -/
theorem first_eq_or (h : r.Sticky healthy modelAlias ps) {r' : Router} {healthy' : String → Bool}
    {modelAlias' : String} {ps' : List RouteProvider} (h' : r'.Sticky healthy' modelAlias' ps')
    (hscore : r'.hrwScore = r.hrwScore) (sessionKey : String) {a a' : String}
    (ha : r.first healthy modelAlias sessionKey = some a)
    (ha' : r'.first healthy' modelAlias' sessionKey = some a') :
    a' = a ∨ (a ∉ ps'.map RouteProvider.name ∨ healthy' a = false) ∨
      (a' ∉ ps.map RouteProvider.name ∨ healthy a' = false) := by
  by_contra hcontra
  simp only [not_or, not_not, Bool.not_eq_false] at hcontra
  obtain ⟨hne, ⟨hmem', hhealthy'⟩, hmem, hhealthy⟩ := hcontra
  obtain ⟨p, -, -, hp, hleast⟩ := h.first sessionKey
  obtain ⟨p', -, -, hp', hleast'⟩ := h'.first sessionKey
  obtain rfl : p.name = a := Option.some.inj (hp.symm.trans ha)
  obtain rfl : p'.name = a' := Option.some.inj (hp'.symm.trans ha')
  obtain ⟨q, hq, hqname⟩ := List.mem_map.mp hmem
  obtain ⟨q', hq', hqname'⟩ := List.mem_map.mp hmem'
  have hrank : ∀ {p q : RouteProvider}, p.name = q.name →
      hrwRank (r.hrwScore sessionKey) p = hrwRank (r.hrwScore sessionKey) q := by
    intro p q hname
    rw [hrwRank, hrwRank, hname]
  have hle := hleast q hq (hqname ▸ hhealthy)
  have hle' := hleast' q' hq' (hqname' ▸ hhealthy')
  rw [hscore, hrank hqname'] at hle'
  rw [hrank hqname] at hle
  exact hne (congrArg (fun rank ↦ (ofLex rank).2) (le_antisymm hle' hle))

end Router.Sticky

/-! ## The key of a conversation -/

/-- `prefixHashSystemCut`. -/
def prefixHashSystemCut : Nat := 512

/-- The first loop of `prefixHash`: the texts of the first system message that has one and of the
first message of the user, where `system` is what was found so far. -/
def prefixScan (system : String) : List Message → String × String
  | [] => (system, "")
  | m :: msgs =>
    let system := if m.role = "system" ∧ system = "" then m.content.text else system
    if m.role = "user" then (system, m.content.text) else prefixScan system msgs

/-- `encodeHex`. -/
def encodeHex (b : Bytes) : String :=
  String.ofList (b.flatMap fun c ↦
    [JsonText.hexDigit (c.toNat / 16), JsonText.hexDigit (c.toNat % 16)])

/-- `prefixHash`; the separator keeps the two texts apart. -/
def prefixHash (sha256 : Bytes → Vector UInt8 32) (msgs : List Message) : String :=
  let (system, firstUser) := prefixScan "" msgs
  if system = "" ∧ firstUser = "" then ""
  else "prefix:" ++ encodeHex
    ((sha256 ((utf8 system).take prefixHashSystemCut ++ 0 :: utf8 firstUser)).toList.take 16)

/-- The scan stops at the first message of the user. -/
theorem prefixScan_append {msgs : List Message} (h : ∃ m ∈ msgs, m.role = "user")
    (system : String) (more : List Message) :
    prefixScan system (msgs ++ more) = prefixScan system msgs := by
  induction msgs generalizing system with
  | nil => simp at h
  | cons m msgs ih =>
    by_cases hm : m.role = "user"
    · simp only [List.cons_append, prefixScan, if_pos hm]
    · obtain ⟨m', hmem, hm'⟩ := h
      have hmsgs : ∃ m ∈ msgs, m.role = "user" := by
        rcases List.mem_cons.mp hmem with rfl | hmem
        · exact absurd hm' hm
        · exact ⟨m', hmem, hm'⟩
      simp only [List.cons_append, prefixScan, if_neg hm, ih hmsgs]

/-- A conversation keeps its key as it grows. -/
theorem prefixHash_append (sha256 : Bytes → Vector UInt8 32) {msgs : List Message}
    (h : ∃ m ∈ msgs, m.role = "user") (more : List Message) :
    prefixHash sha256 (msgs ++ more) = prefixHash sha256 msgs := by
  rw [prefixHash, prefixHash, prefixScan_append h]

/-! ## Affinity is stable -/

/-- **Session affinity is stable.**  The order of a session is a permutation of the providers that
does not depend on the order of the list, and a provider that is removed leaves the others in place.
The first candidate changes only when the old one is gone or unhealthy, or when the new one was not
there or not healthy.  A conversation with a message of the user keeps its key. -/
theorem affinity_stable (score : String → String → UInt64) (sha256 : Bytes → Vector UInt8 32) :
    (∀ (sessionKey : String) (ps : List RouteProvider), (ps.map RouteProvider.name).Nodup →
      (hrwOrder (score sessionKey) ps).Perm ps ∧
      (∀ ps', ps'.Perm ps → hrwOrder (score sessionKey) ps' = hrwOrder (score sessionKey) ps) ∧
      ∀ p, hrwOrder (score sessionKey) (ps.erase p) = (hrwOrder (score sessionKey) ps).erase p) ∧
    (∀ (r r' : Router) (healthy healthy' : String → Bool) (modelAlias sessionKey : String)
        (ps ps' : List RouteProvider), r.hrwScore = score → r'.hrwScore = score →
      r.Sticky healthy modelAlias ps → r'.Sticky healthy' modelAlias ps' →
      ∃ a a', r.first healthy modelAlias sessionKey = some a ∧
        r'.first healthy' modelAlias sessionKey = some a' ∧
        (a' ≠ a → (a ∉ ps'.map RouteProvider.name ∨ healthy' a = false) ∨
          (a' ∉ ps.map RouteProvider.name ∨ healthy a' = false))) ∧
    ∀ msgs more : List Message, (∃ m ∈ msgs, m.role = "user") →
      prefixHash sha256 (msgs ++ more) = prefixHash sha256 msgs := by
  refine ⟨fun sessionKey ps h ↦ ?_,
      fun r r' healthy healthy' modelAlias sessionKey ps ps' hr hr' h h' ↦
    ?_, fun msgs more h ↦ prefixHash_append sha256 h more⟩
  · exact ⟨hrwOrder_perm _ ps, fun ps' hperm ↦ hrwOrder_congr h hperm, hrwOrder_erase h⟩
  · obtain ⟨p, -, -, hp, -⟩ := h.first sessionKey
    obtain ⟨p', -, -, hp', -⟩ := h'.first sessionKey
    refine ⟨p.name, p'.name, hp, hp', fun hne ↦ ?_⟩
    exact (h.first_eq_or h' (hr'.trans hr.symm) sessionKey hp hp').resolve_left hne

/-- A session of two providers: the second one takes over while the first one is unhealthy. -/
theorem affinity_stable_sample :
    let a : RouteProvider := ⟨"a", 0⟩
    let b : RouteProvider := ⟨"b", 0⟩
    let score := fun _ name ↦ if name = "a" then 2 else 1
    let r : Router := ⟨[⟨"m", [b, a], .sessionAffinity⟩], fun _ ↦ 0, fun _ _ ↦ 0, score⟩
    let hello : Message := ⟨"user", .ofText "hello", "", [], ""⟩
    hrwOrder (score "s") [b, a] = hrwOrder (score "s") [a, b] ∧
    (∃ x y, r.first (fun _ ↦ true) "m" "s" = some x ∧
      r.first (fun name ↦ decide (name = "b")) "m" "s" = some y ∧ x = "a" ∧ y = "b") ∧
    prefixHash (fun _ ↦ Vector.replicate 32 0) [hello, hello] =
      prefixHash (fun _ ↦ Vector.replicate 32 0) [hello] := by
  intro a b score r hello
  have hall := affinity_stable score fun _ ↦ Vector.replicate 32 0
  have hsticky : ∀ healthy : String → Bool, healthy "b" = true → r.Sticky healthy "m" [b, a] :=
    fun healthy h ↦ ⟨⟨_, rfl, rfl, rfl⟩, by decide, b, by simp, h⟩
  obtain ⟨x, y, hx, hy, -⟩ :=
    hall.2.1 r r (fun _ ↦ true) (fun name ↦ decide (name = "b")) "m" "s" [b, a]
    [b, a] rfl rfl (hsticky _ rfl) (hsticky _ (by decide))
  have hxa : some x = some "a" := hx.symm.trans (by decide)
  have hyb : some y = some "b" := hy.symm.trans (by decide)
  exact ⟨(hall.1 "s" [a, b] (by decide)).2.1 [b, a] (List.Perm.swap a b []),
    ⟨x, y, hx, hy, Option.some.inj hxa, Option.some.inj hyb⟩,
    hall.2.2 [hello] [hello] ⟨hello, by simp, rfl⟩⟩

end Voxeltoad
