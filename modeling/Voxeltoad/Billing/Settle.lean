import Voxeltoad.Billing.Plugin

/-!
# What `settle` decides

The decision of `settle` depends on three flags of the context, the usage and the price.
`classify_decided` is its specification, and `Settling` the invariant of running `settle` again and
again: the same settlement is issued every time until the store has accepted it, and none after
that.
-/

set_option autoImplicit false

namespace Voxeltoad

namespace BillingPlugin

/-! ## The decision -/

/-- The usage can be priced, and costs `actual`. -/
def Charge (usage : Option Usage) (pricing : Option Pricing) (actual : Int) : Prop :=
  ∃ u pr, usage = some u ∧ pricing = some pr ∧ checkedCost (some u) pr = .ok actual

theorem Charge.unique {usage : Option Usage} {pricing : Option Pricing} {a b : Int}
    (ha : Charge usage pricing a) (hb : Charge usage pricing b) : a = b := by
  obtain ⟨u, pr, rfl, rfl, ha⟩ := ha
  obtain ⟨u', pr', hu, hp, hb⟩ := hb
  cases hu
  cases hp
  rw [ha] at hb
  cases hb
  rfl

theorem Charge.usage_ne_none {usage : Option Usage} {pricing : Option Pricing} {a : Int}
    (h : Charge usage pricing a) : usage ≠ none := by
  obtain ⟨u, pr, rfl, -⟩ := h
  simp

/-- **The specification of the decision.** -/
structure Decided (c : PluginContext) (usage : Option Usage) (pricing : Option Pricing)
    (s : Settlement) : Prop where
  reservationID : s.reservationID = c.reservationID
  released : s.outcome = .released ↔ c.chargePossible = false ∧ usage = none
  known : ∀ actual, (s.outcome = .known ∧ s.actual = actual) ↔
    c.billingUncertain = false ∧ Charge usage pricing actual
  outcome : s.outcome = .released ∨ s.outcome = .known ∨ s.outcome = .unknown
  zero : s.outcome ≠ .known → s.actual = 0
  attemptRisk : s.attemptRisk = true ↔ s.outcome = .known ∧ c.billingAttemptRisk = true

/-- There is a charge, or there is nothing to price, or the price is refused. -/
theorem priceUsage_cases (usage : Option Usage) (pricing : Option Pricing) :
    (∃ actual, Charge usage pricing actual ∧ 0 ≤ actual ∧
      ∀ c, priceUsage c usage pricing = (c, actual)) ∨
    ((∀ actual, ¬ Charge usage pricing actual) ∧ (usage = none ∨ pricing = none) ∧
      ∀ c, priceUsage c usage pricing = (c, 0)) ∨
    ((∀ actual, ¬ Charge usage pricing actual) ∧
      ∀ c, priceUsage c usage pricing = ({ c with billingUncertain := true }, 0)) := by
  rcases usage with _ | u
  · refine .inr (.inl ⟨fun actual h ↦ h.usage_ne_none rfl, .inl rfl, fun c ↦ ?_⟩)
    cases pricing <;> rfl
  rcases pricing with _ | pr
  · refine .inr (.inl ⟨?_, .inr rfl, fun c ↦ rfl⟩)
    rintro actual ⟨u', pr', -, hp, -⟩
    cases hp
  rcases hcost : checkedCost (some u) pr with e | actual
  · refine .inr (.inr ⟨?_, fun c ↦ by simp only [priceUsage, hcost]⟩)
    rintro actual ⟨u', pr', hu, hp, hok⟩
    cases hu
    cases hp
    rw [hcost] at hok
    cases hok
  · exact .inl ⟨actual, ⟨u, pr, rfl, rfl, hcost⟩, checkedCost_nonneg hcost,
      fun c ↦ by simp only [priceUsage, hcost]⟩

/-- One of three things is decided, and the rest of the specification follows from which. -/
theorem decided_of_outcome {c : PluginContext} {usage : Option Usage} {pricing : Option Pricing}
    {s : Settlement} (hid : s.reservationID = c.reservationID)
    (hzero : s.outcome ≠ .known → s.actual = 0)
    (hrisk : s.attemptRisk = true ↔ s.outcome = .known ∧ c.billingAttemptRisk = true)
    (h : (s.outcome = .known ∧ c.billingUncertain = false ∧ Charge usage pricing s.actual) ∨
      (s.outcome = .released ∧ c.chargePossible = false ∧ usage = none) ∨
      (s.outcome = .unknown ∧ ¬ (c.chargePossible = false ∧ usage = none) ∧
        ∀ actual, ¬ (c.billingUncertain = false ∧ Charge usage pricing actual))) :
    Decided c usage pricing s := by
  rcases h with ⟨ho, hc, hcharge⟩ | ⟨ho, hc, hnone⟩ | ⟨ho, hr, hcharge⟩
  · refine ⟨hid, ?_, fun actual ↦ ?_, .inr (.inl ho), hzero, hrisk⟩
    · simp [ho, hcharge.usage_ne_none]
    · simp only [ho, hc, true_and]
      exact ⟨fun h ↦ h ▸ hcharge, hcharge.unique⟩
  · refine ⟨hid, by simp [ho, hc, hnone], fun actual ↦ ?_, .inl ho, hzero, hrisk⟩
    simp only [ho, reduceCtorEq, false_and, false_iff]
    exact fun h ↦ h.2.usage_ne_none hnone
  · refine ⟨hid, by simp [ho, hr], fun actual ↦ ?_, .inr (.inr ho), hzero, hrisk⟩
    simp only [ho, reduceCtorEq, false_and, false_iff]
    exact hcharge actual

/-- `settle` decides as specified. -/
theorem classify_decided (live : Dynamic) (c : PluginContext) :
    Decided c (usageOf c) (pricingFor live c) (classify live c).2 := by
  rw [classify]
  rcases priceUsage_cases (usageOf c) (pricingFor live c) with
    ⟨actual, hcharge, hnonneg, hprice⟩ | ⟨hcharge, hnone, hprice⟩ | ⟨hcharge, hprice⟩
  · -- The usage has a price: the outcome is known unless it is uncertain.
    have husage := hcharge.usage_ne_none
    have hpricing : pricingFor live c ≠ none := by
      obtain ⟨u, pr, -, hp, -⟩ := hcharge
      simp [hp]
    have hlt : ¬ actual < 0 := by omega
    simp only [hprice]
    refine decided_of_outcome rfl (fun h ↦ if_neg h) (by simp) ?_
    cases hb : c.billingUncertain with
    | false =>
      left
      simpa [outcomeOf, husage, hpricing, hlt, hb] using hcharge
    | true => simp [outcomeOf, husage, hb]
  · -- There is no usage or no price.
    simp only [hprice]
    refine decided_of_outcome rfl (fun h ↦ if_neg h) (by simp) (.inr ?_)
    by_cases hr : c.chargePossible = false ∧ usageOf c = none
    · exact .inl ⟨by rw [outcomeOf, if_pos hr], hr⟩
    · refine .inr ⟨?_, hr, fun a h ↦ hcharge a h.2⟩
      rw [outcomeOf, if_neg hr, if_pos]
      rcases hnone with h | h
      · exact .inr (.inl h)
      · exact .inr (.inr (.inl h))
  · -- The price is refused, which makes the outcome uncertain.
    simp only [hprice]
    refine decided_of_outcome rfl (fun h ↦ if_neg h) (by simp) (.inr ?_)
    by_cases hr : c.chargePossible = false ∧ usageOf c = none
    · exact .inl ⟨by rw [outcomeOf, if_pos hr], hr⟩
    · refine .inr ⟨?_, hr, fun a h ↦ hcharge a h.2⟩
      rw [outcomeOf, if_neg hr, if_pos (.inl rfl)]

/-! ## Settling again -/

/-- A decision that was made is made again: a price that was refused only adds the doubt that it
gives rise to anyway. -/
theorem classify_classify (live : Dynamic) (c : PluginContext) :
    (classify live (classify live c).1).2 = (classify live c).2 := by
  simp only [classify]
  rcases priceUsage_cases (usageOf c) (pricingFor live c) with
    ⟨actual, -, -, hprice⟩ | ⟨-, -, hprice⟩ | ⟨-, hprice⟩
  · simp only [hprice]
  · simp only [hprice]
  · have hprice' := hprice { c with billingUncertain := true }
    simp only [hprice]
    simp only [usageOf, pricingFor] at hprice' ⊢
    simp only [hprice']
    rfl

/-- The decision does not look at whether it was carried out, nor at what stopped the chain. -/
theorem classify_mark (live : Dynamic) (c : PluginContext) (done stop : Bool)
    (blockedBy : String) :
    (classify live { c with billingDone := done, stop := stop, blockedBy := blockedBy }).2 =
      (classify live c).2 := by
  simp only [classify]
  rcases priceUsage_cases (usageOf c) (pricingFor live c) with
    ⟨actual, -, -, hprice⟩ | ⟨-, -, hprice⟩ | ⟨-, hprice⟩
  all_goals
    have hprice' := hprice { c with billingDone := done, stop := stop, blockedBy := blockedBy }
    simp only [hprice]
    simp only [usageOf, pricingFor] at hprice' ⊢
    simp only [hprice']
    rfl

/-- A frozen price does not depend on the live configuration. -/
theorem classify_live {c : PluginContext} {snapshot : Dynamic}
    (h : c.pricingSnapshot = some snapshot) (live live' : Dynamic) :
    classify live c = classify live' c := by
  simp only [classify, pricingFor, h, Option.getD_some]

/-- All that the decision leaves in the context is doubt. -/
theorem classify_fst (live : Dynamic) (c : PluginContext) :
    ∃ uncertain, (classify live c).1 = { c with billingUncertain := uncertain } := by
  simp only [classify]
  rcases priceUsage_cases (usageOf c) (pricingFor live c) with
    ⟨actual, -, -, hprice⟩ | ⟨-, -, hprice⟩ | ⟨-, hprice⟩
  · exact ⟨c.billingUncertain, by simp only [hprice]⟩
  · exact ⟨c.billingUncertain, by simp only [hprice]⟩
  · exact ⟨true, by simp only [hprice]⟩

variable {σ : Type} (p : BillingPlugin σ)

/-- **The invariant of settling.**  `t` is what the request is settled with: it is what would be
decided now, it is what every call of `Finish` so far was about, and at most the last of them was
accepted. -/
structure Settling (snapshot : Dynamic) (t : Settlement) (s : Session σ) : Prop where
  reserved : s.pc.reservationID ≠ ""
  finalize : s.pc.billingFinalize = true
  priced : s.pc.pricingSnapshot = some snapshot
  decided : ∀ live, (classify live s.pc).2 = t
  finishes : ∀ f ∈ s.finishes, f.1 = t
  pending : s.pc.billingDone = false → ∀ f ∈ s.finishes, f.2 ≠ .ok ()
  done : s.pc.billingDone = true → ∃ fs, s.finishes = fs ++ [(t, .ok ())] ∧ ∀ f ∈ fs, f.2 ≠ .ok ()

theorem Settling.init {pc : PluginContext} {snapshot : Dynamic} (world : σ)
    (hreserved : pc.reservationID ≠ "") (hfinalize : pc.billingFinalize = true)
    (hpriced : pc.pricingSnapshot = some snapshot) (hdone : pc.billingDone = false) :
    Settling snapshot (classify snapshot pc).2 ⟨pc, world, []⟩ where
  reserved := hreserved
  finalize := hfinalize
  priced := hpriced
  decided live := by rw [classify_live hpriced live snapshot]
  finishes := by simp
  pending := by simp
  done h := by simp [hdone] at h

variable {p} {snapshot : Dynamic} {t : Settlement} {s : Session σ}

theorem Settling.mark (h : Settling snapshot t s) (stop : Bool) (blockedBy : String) :
    Settling snapshot t { s with pc := { s.pc with stop := stop, blockedBy := blockedBy } } :=
  ⟨h.reserved, h.finalize, h.priced,
    fun live ↦ (classify_mark live s.pc s.pc.billingDone stop blockedBy).trans (h.decided live),
    h.finishes, h.pending, h.done⟩

/-- The context `settle` leaves behind decides as before. -/
theorem Settling.decided_classify (h : Settling snapshot t s) (live live' : Dynamic)
    (done : Bool) :
    (classify live' { (classify live s.pc).1 with billingDone := done }).2 = t := by
  obtain ⟨uncertain, hfst⟩ := classify_fst live s.pc
  have hsnapshot : (classify live s.pc).1.pricingSnapshot = some snapshot := by
    rw [hfst, h.priced]
  calc (classify live' { (classify live s.pc).1 with billingDone := done }).2
      = (classify live' (classify live s.pc).1).2 := classify_mark live' _ done _ _
    _ = (classify live (classify live s.pc).1).2 := by rw [classify_live hsnapshot live' live]
    _ = (classify live s.pc).2 := classify_classify live s.pc
    _ = t := h.decided live

/-- **Settling once more** keeps the invariant, and the store has been asked. -/
theorem Settling.settle (h : Settling snapshot t s) :
    Settling snapshot t (p.settle s).2 ∧ (p.settle s).2.finishes ≠ [] := by
  rw [BillingPlugin.settle]
  cases hdone : s.pc.billingDone with
  | true =>
    rw [if_pos rfl]
    obtain ⟨fs, hfs, -⟩ := h.done hdone
    exact ⟨h, by simp [hfs]⟩
  | false =>
    have hdecided := h.decided (p.dyn s.world)
    have hagain := h.decided_classify (p.dyn s.world)
    obtain ⟨uncertain, hfst⟩ := classify_fst (p.dyn s.world) s.pc
    rcases hcl : classify (p.dyn s.world) s.pc with ⟨pc, settlement⟩
    rw [hcl] at hdecided hagain hfst
    subst hdecided
    simp only at hagain hfst
    have hreserved : pc.reservationID ≠ "" := by rw [hfst]; exact h.reserved
    have hfinalize : pc.billingFinalize = true := by rw [hfst]; exact h.finalize
    have hpriced : pc.pricingSnapshot = some snapshot := by rw [hfst]; exact h.priced
    have hpc : pc = { pc with billingDone := false } := by rw [hfst, hdone]
    have hpending := h.pending hdone
    simp only [Bool.false_eq_true, if_false]
    rw [if_neg hreserved]
    rcases p.accounting.finish settlement s.world with ⟨e | ⟨⟩, world⟩
    · refine ⟨⟨hreserved, hfinalize, hpriced, fun live ↦ ?_, ?_, fun _ ↦ ?_, fun hd ↦ ?_⟩, by simp⟩
      · rw [hpc]
        exact hagain live false
      · exact List.forall_mem_append.mpr ⟨h.finishes, by simp⟩
      · exact List.forall_mem_append.mpr ⟨hpending, by simp⟩
      · rw [hpc] at hd
        cases hd
    · refine ⟨⟨hreserved, hfinalize, hpriced, fun live ↦ hagain live true, ?_, by simp,
        fun _ ↦ ⟨s.finishes, rfl, hpending⟩⟩, by simp⟩
      exact List.forall_mem_append.mpr ⟨h.finishes, by simp⟩

/-- What the store has been asked so far, and what it is asked when `settle` runs once more: the
same settlement every time until it was accepted, and nothing after that. -/
structure Issued (p : BillingPlugin σ) (t : Settlement) (s : Session σ) : Prop where
  same : ∀ f ∈ s.finishes, f.1 = t
  last : ∀ fs f rest, s.finishes = fs ++ f :: rest → f.2 = .ok () → rest = []
  again : (∀ f ∈ s.finishes, f.2 ≠ .ok ()) →
    ∃ answer, (p.settle s).2.finishes = s.finishes ++ [(t, answer)]
  never : (∃ f ∈ s.finishes, f.2 = .ok ()) → p.settle s = (.ok (), s)

theorem Settling.last (h : Settling snapshot t s)
    {fs rest : List (Settlement × Except StoreError Unit)} {f : Settlement × Except StoreError Unit}
    (hsplit : s.finishes = fs ++ f :: rest) (hok : f.2 = .ok ()) : rest = [] := by
  cases hdone : s.pc.billingDone with
  | false => exact absurd hok (h.pending hdone f (by simp [hsplit]))
  | true =>
    obtain ⟨gs, hgs, hnot⟩ := h.done hdone
    rcases List.eq_nil_or_concat rest with rfl | ⟨rest', g, rfl⟩
    · rfl
    · -- Otherwise `f` is one of the calls before the last one.
      rw [hgs, List.concat_eq_append, ← List.cons_append, ← List.append_assoc] at hsplit
      have hinit := (List.append_inj' hsplit rfl).1
      exact absurd hok (hnot f (by simp [hinit]))

theorem Settling.issued (h : Settling snapshot t s) : Issued p t s where
  same := h.finishes
  last fs f rest := h.last
  again hnot := by
    have hdone : s.pc.billingDone = false := by
      cases hdone : s.pc.billingDone with
      | false => rfl
      | true =>
        obtain ⟨fs, hfs, -⟩ := h.done hdone
        exact absurd rfl (hnot (t, .ok ()) (by simp [hfs]))
    have hdecided := h.decided (p.dyn s.world)
    obtain ⟨uncertain, hfst⟩ := classify_fst (p.dyn s.world) s.pc
    rw [BillingPlugin.settle, hdone]
    simp only [Bool.false_eq_true, if_false]
    rw [hdecided, if_neg (by rw [hfst]; exact h.reserved)]
    split
    · exact ⟨_, rfl⟩
    · exact ⟨_, rfl⟩
  never := by
    rintro ⟨f, hf, hok⟩
    have hdone : s.pc.billingDone = true := by
      cases hdone : s.pc.billingDone with
      | true => rfl
      | false => exact absurd hok (h.pending hdone f hf)
    rw [BillingPlugin.settle, if_pos hdone]

end BillingPlugin

end Voxeltoad
