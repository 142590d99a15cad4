import Mathlib

/-!
# Wall clocks

A wall clock is ahead of the time by an offset that changes now and then.  When it is put forward it
skips readings, and when it is set back it repeats some.  If every offset is kept for long enough,
compared to how large offsets can be, not much more can happen than one change at a time:
`Clock.Steady`.

`Clock.earliest` finds the instant from which on a reading has been reached, by looking at three
intervals of constant offset only, and `Steady.isLeast_earliest` says that this is enough.  The
clock may show an earlier reading later on; `Steady.shown` is what it must have shown then.

Periods of a calendar are intervals of readings one after the other: `first k` begins period `k`,
and `index` is the period that a reading belongs to.  The rest of the file is about the instants at
which they begin.
-/

set_option autoImplicit false

/-- A wall clock: its offset at an instant, and the bounds of the interval in which that offset is
kept. -/
structure Clock where
  offset : Int → Int
  bounds : Int → Option Int × Option Int

namespace Clock

/-- An instant between two bounds, the first included.  A bound may be missing. -/
def Within (b : Option Int × Option Int) (t : Int) : Prop :=
  (∀ l, b.1 = some l → l ≤ t) ∧ ∀ u, b.2 = some u → t < u

/-- What the clock shows. -/
def wall (c : Clock) (t : Int) : Int := t + c.offset t

/-- Offsets are smaller than `w`, and each is kept for at least twice as long. -/
structure Steady (c : Clock) (w : Int) : Prop where
  small : ∀ t, -w < c.offset t ∧ c.offset t < w
  within : ∀ t, Within (c.bounds t) t
  constant : ∀ t s, Within (c.bounds t) s → c.bounds s = c.bounds t ∧ c.offset s = c.offset t
  long : ∀ t l u, c.bounds t = (some l, some u) → l + 2 * w ≤ u

/-- The first instant in the interval around `probe` at which the clock shows `m` or more. -/
def firstIn (c : Clock) (m probe : Int) : Option Int :=
  let (lower, upper) := c.bounds probe
  let candidate := m - c.offset probe
  let candidate := match lower with
    | some l => if candidate < l then l else candidate
    | none => candidate
  match upper with
  | some u => if candidate < u then some candidate else none
  | none => some candidate

/-- The first instant at which the clock shows `m` or more, as far as the interval around `probe`
and the two next to it can tell. -/
def earliest (c : Clock) (m probe : Int) : Option Int :=
  let (start, stop) := c.bounds probe
  let probes := probe :: ((start.map (· - 1)).toList ++ stop.toList)
  (probes.filterMap (c.firstIn m)).min?

variable {c : Clock} {w : Int}

/-! ## Intervals of constant offset -/

/-- The next interval begins where one ends. -/
theorem Steady.lower_of_upper (h : c.Steady w) {t u : Int} (hu : (c.bounds t).2 = some u) :
    (c.bounds u).1 = some u := by
  have htu : t < u := (h.within t).2 u hu
  have hne : c.bounds u ≠ c.bounds t := fun heq ↦ lt_irrefl u ((h.within u).2 u (heq ▸ hu))
  -- Anything before `u` that is within its bounds is within those of `t` as well.
  have hfirst : ∀ p, t ≤ p → p < u → ¬ Within (c.bounds u) p := fun p hp hpu hwithin ↦ by
    have hin : Within (c.bounds t) p :=
      ⟨fun l hl ↦ ((h.within t).1 l hl).trans hp, fun u' hu' ↦ by grind⟩
    exact hne ((h.constant u p hwithin).1.symm.trans (h.constant t p hin).1)
  rcases hlower : (c.bounds u).1 with _ | l
  · exact (hfirst t le_rfl htu
      ⟨fun l hl ↦ by grind, fun u' hu' ↦ htu.trans ((h.within u).2 u' hu')⟩).elim
  · have hl : l ≤ u := (h.within u).1 l hlower
    rcases hl.lt_or_eq with hlt | rfl
    · refine (hfirst (max l t) (le_max_right l t) (max_lt hlt htu)
        ⟨fun l' hl' ↦ ?_, fun u' hu' ↦ ?_⟩).elim
      · have heq : l = l' := Option.some.inj (hlower.symm.trans hl')
        exact heq ▸ le_max_left l t
      · exact (max_lt hlt htu).trans ((h.within u).2 u' hu')
    · rfl

/-- Between two instants that are close there is at most one change. -/
theorem Steady.reach (h : c.Steady w) {s t : Int} (hst : s ≤ t) (hnear : t < s + 2 * w) :
    Within (c.bounds s) t ∨ ∃ u, (c.bounds s).2 = some u ∧ u ≤ t ∧ Within (c.bounds u) t := by
  by_cases hwithin : Within (c.bounds s) t
  · exact .inl hwithin
  have hupper : ∃ u, (c.bounds s).2 = some u ∧ u ≤ t := by
    by_contra hnone
    exact hwithin ⟨fun l hl ↦ ((h.within s).1 l hl).trans hst,
      fun u hu ↦ not_le.mp fun hle ↦ hnone ⟨u, hu, hle⟩⟩
  obtain ⟨u, hu, hut⟩ := hupper
  have hlower := h.lower_of_upper hu
  have hsu : s < u := (h.within s).2 u hu
  refine .inr ⟨u, hu, hut, fun l hl ↦ ((h.within u).1 l hl).trans hut, fun u' hu' ↦ ?_⟩
  have hlong : u + 2 * w ≤ u' := h.long u u u' (Prod.ext hlower hu')
  omega

/-- The same, seen from the later instant. -/
theorem Steady.reach_back (h : c.Steady w) {s t : Int} (hst : s ≤ t) (hnear : t < s + 2 * w) :
    Within (c.bounds t) s ∨ ∃ l, (c.bounds t).1 = some l ∧ Within (c.bounds (l - 1)) s := by
  rcases h.reach hst hnear with hwithin | ⟨u, hu, hut, hwithin⟩
  · exact .inl ((h.constant s t hwithin).1 ▸ h.within s)
  · have hsu : s < u := (h.within s).2 u hu
    have hlast : Within (c.bounds s) (u - 1) :=
      ⟨fun l hl ↦ ((h.within s).1 l hl).trans (by omega), fun u' hu' ↦ by grind⟩
    refine .inr ⟨u, ?_, ?_⟩
    · rw [(h.constant u t hwithin).1, h.lower_of_upper hu]
    · rw [(h.constant s (u - 1) hlast).1]
      exact h.within s

/-! ## The earliest instant -/

/-- `firstIn` is the first instant of its interval. -/
theorem firstIn_spec {m p s : Int} (h : c.firstIn m p = some s) :
    (∀ u, (c.bounds p).2 = some u → s < u) ∧ (∀ l, (c.bounds p).1 = some l → l ≤ s) ∧
    m ≤ s + c.offset p ∧
      ∀ t, Within (c.bounds p) t → m ≤ t + c.offset p → s ≤ t := by
  simp only [firstIn] at h
  rcases hb : c.bounds p with ⟨_ | l, _ | u⟩ <;> simp only [hb] at h <;> grind [Within]

/-- It is there if the clock shows `m` or more in the interval. -/
theorem exists_firstIn {m p t : Int} (ht : Within (c.bounds p) t) (hm : m ≤ t + c.offset p) :
    ∃ s, c.firstIn m p = some s ∧ s ≤ t := by
  simp only [firstIn]
  rcases hb : c.bounds p with ⟨_ | l, _ | u⟩ <;> simp only [hb] at ht ⊢ <;> grind [Within]

/-- The instants whose intervals `earliest` looks at. -/
def probes (c : Clock) (p : Int) : List Int :=
  p :: (((c.bounds p).1.map (· - 1)).toList ++ (c.bounds p).2.toList)

theorem earliest_eq {m p : Int} :
    c.earliest m p = ((c.probes p).filterMap (c.firstIn m)).min? := rfl

/-- What is close to a probe lies in one of the intervals. -/
theorem Steady.exists_probe (h : c.Steady w) {p t : Int} (hlow : p < t + 2 * w)
    (hhigh : t < p + 2 * w) : ∃ q ∈ c.probes p, Within (c.bounds q) t := by
  rcases le_total p t with hpt | htp
  · rcases h.reach hpt hhigh with hwithin | ⟨u, hu, -, hwithin⟩
    · exact ⟨p, by simp [probes], hwithin⟩
    · exact ⟨u, by simp [probes, hu], hwithin⟩
  · rcases h.reach_back htp hlow with hwithin | ⟨l, hl, hwithin⟩
    · exact ⟨p, by simp [probes], hwithin⟩
    · exact ⟨l - 1, by simp [probes, hl], hwithin⟩

/-- **Three intervals are enough**, when the probe is close. -/
theorem Steady.isLeast_earliest (h : c.Steady w) {m p : Int} (hlow : m - w < p)
    (hhigh : p < m + w) : ∃ s, c.earliest m p = some s ∧ IsLeast {t | m ≤ c.wall t} s := by
  -- Whenever the clock has reached `m`, one of the three has an instant that is no later.
  have hnear :
      ∀ t, t < m + w → m ≤ c.wall t → ∃ s ∈ (c.probes p).filterMap (c.firstIn m), s ≤ t := by
    intro t ht hm
    rw [wall] at hm
    have hsmall := h.small t
    obtain ⟨q, hq, hwithin⟩ := h.exists_probe (p := p) (t := t) (by omega) (by omega)
    rw [(h.constant q t hwithin).2] at hm
    obtain ⟨s, hs, hst⟩ := exists_firstIn hwithin hm
    exact ⟨s, List.mem_filterMap.mpr ⟨q, hq, hs⟩, hst⟩
  have hreached : m ≤ c.wall (m + w - 1) := by
    have hsmall := h.small (m + w - 1)
    rw [wall]
    omega
  obtain ⟨s₀, hs₀, -⟩ := hnear (m + w - 1) (by omega) hreached
  obtain ⟨s, hs⟩ := Option.ne_none_iff_exists'.mp fun hnone ↦
    List.ne_nil_of_mem hs₀ (List.min?_eq_none_iff.mp hnone)
  obtain ⟨hmem, hmin⟩ := List.min?_eq_some_iff.mp hs
  refine ⟨s, earliest_eq.trans hs, ?_, fun t ht ↦ ?_⟩
  · obtain ⟨q, -, hq⟩ := List.mem_filterMap.mp hmem
    obtain ⟨hupper, hlower, hm, -⟩ := firstIn_spec hq
    rwa [Set.mem_ofPred_eq, wall, (h.constant q s ⟨hlower, hupper⟩).2]
  · rcases lt_or_ge t (m + w) with hlt | hge
    · obtain ⟨s', hs', hle⟩ := hnear t hlt ht
      exact (hmin s' hs').trans hle
    · obtain ⟨s', hs', hle⟩ := hnear (m + w - 1) (by omega) hreached
      exact ((hmin s' hs').trans hle).trans (by omega)

/-- A clock that has reached `m` and shows less again has been set back, and before that it has
shown the last reading before `m`, and then `m`. -/
theorem Steady.shown (h : c.Steady w) {t now m : Int} (hle : t ≤ now) (hm : m ≤ c.wall t)
    (hnow : c.wall now < m) : ∃ s ≤ t, c.wall s = m ∧ c.wall (s - 1) = m - 1 := by
  rw [wall] at hm hnow
  have hsmall := h.small t
  have hsmall' := h.small now
  rcases h.reach hle (by omega) with hwithin | ⟨u, hu, hunow, hwithin⟩
  · rw [(h.constant t now hwithin).2] at hnow
    omega
  · have hu' : t < u := (h.within t).2 u hu
    have hlower : ∀ l, (c.bounds t).1 = some l → l ≤ m - c.offset t - 1 := fun l hl ↦ by
      have hlong := h.long t l u (Prod.ext hl hu)
      omega
    have hshow : ∀ s, m - 1 ≤ s + c.offset t → s ≤ t → c.wall s = s + c.offset t :=
        fun s hs hst ↦ by
      have hin : Within (c.bounds t) s :=
        ⟨fun l hl ↦ (hlower l hl).trans (by omega),
          fun u' hu' ↦ hst.trans_lt ((h.within t).2 u' hu')⟩
      rw [wall, (h.constant t s hin).2]
    refine ⟨m - c.offset t, by omega, ?_, ?_⟩
    · rw [hshow _ (by omega) (by omega)]
      omega
    · rw [hshow _ (by omega) (by omega)]
      omega

/-! ## Periods -/

/-- The date that a clock shows, if a day has `day` readings. -/
def date (c : Clock) (day t : Int) : Int := c.wall t / day

/-- When each date is first reached. -/
def Begins (c : Clock) (day : Int) (begins : Int → Int) : Prop :=
  ∀ d, IsLeast {t | d * day ≤ c.wall t} (begins d)

section Periods

variable {day : Int} {begins : Int → Int}

theorem le_date_iff (hday : 0 < day) {d t : Int} : d ≤ c.date day t ↔ d * day ≤ c.wall t :=
  Int.le_ediv_iff_mul_le hday

theorem Begins.le (h : c.Begins day begins) (hday : 0 < day) {d t : Int} (ht : d ≤ c.date day t) :
    begins d ≤ t :=
  (h d).2 ((le_date_iff hday).mp ht)

theorem Begins.mono (h : c.Begins day begins) (hday : 0 < day) {d e : Int} (hle : d ≤ e) :
    begins d ≤ begins e :=
  h.le hday (hle.trans ((le_date_iff hday).mpr (h e).1))

/-- A date that is still to come has begun only if the clock has shown it before. -/
theorem Begins.le_iff_shown (h : c.Begins day begins) (hday : 0 < day)
    (hsteady : c.Steady w) {e now : Int} (hnow : c.date day now < e) :
    begins e ≤ now ↔ ∃ t < now, c.date day t = e := by
  constructor
  · intro hle
    have hwall : c.wall now < e * day :=
      lt_of_not_ge fun hge ↦ hnow.not_ge ((le_date_iff hday).mpr hge)
    obtain ⟨s, hs, hshown, -⟩ := hsteady.shown hle (h e).1 hwall
    have hdate : c.date day s = e := by
      rw [date, hshown, Int.mul_ediv_cancel _ hday.ne']
    exact ⟨s, lt_of_le_of_ne (hs.trans hle) fun heq ↦ by grind, hdate⟩
  · rintro ⟨t, ht, hdate⟩
    exact (h.le hday hdate.ge).trans ht.le

/-- Dates between which the clock has shown one begin one after the other. -/
theorem Begins.lt (h : c.Begins day begins) (hday : 0 < day) (hsteady : c.Steady w) {d e now : Int}
    (hd : d ≤ c.date day now) (he : c.date day now < e) : begins d < begins e := by
  rcases lt_or_ge now (begins e) with hlt | hge
  · exact (h.le hday hd).trans_lt hlt
  · have hwall : c.wall now < e * day :=
      lt_of_not_ge fun hge ↦ he.not_ge ((le_date_iff hday).mpr hge)
    obtain ⟨s, hs, -, hbefore⟩ := hsteady.shown hge (h e).1 hwall
    have hde : d * day < e * day := Int.mul_lt_mul_of_pos_right (hd.trans_lt he) hday
    have hle : begins d ≤ s - 1 := (h d).2 (show d * day ≤ c.wall (s - 1) by omega)
    omega

variable {first index : Int → Int}

/-- Periods that cover the dates one after the other. -/
theorem galoisConnection_of_between (hmono : Monotone first) (hle : ∀ d, first (index d) ≤ d)
    (hlt : ∀ d, d < first (index d + 1)) : GaloisConnection first index := fun k d ↦ by
  constructor
  · intro h
    exact le_of_not_gt fun hgt ↦ ((hlt d).trans_le (hmono (by omega : index d + 1 ≤ k))).not_ge h
  · intro h
    exact (hmono h).trans (hle d)

/-- The first date that is not in the period of `d` any more. -/
theorem isLeast_next (hgc : GaloisConnection first index) (d : Int) :
    IsLeast {e | d ≤ e ∧ index d ≠ index e} (first (index d + 1)) := by
  have hlt : d < first (index d + 1) := lt_of_not_ge fun hle ↦ by
    have := (hgc _ d).mp hle
    omega
  have hindex : index d + 1 ≤ index (first (index d + 1)) := (hgc _ _).mp le_rfl
  refine ⟨⟨hlt.le, by omega⟩, fun e ⟨hde, hne⟩ ↦ (hgc _ e).mpr ?_⟩
  have hle : index d ≤ index e := hgc.monotone_u hde
  omega

/-- A period begins with its first date. -/
theorem index_first (hgc : GaloisConnection first index) (hmono : StrictMono first) (k : Int) :
    index (first k) = k :=
  le_antisymm (hmono.le_iff_le.mp (hgc.l_u_le _)) (hgc.le_u_l k)

/-- **Periods are told apart by when they begin and end**, if the clock has shown a date in each. -/
theorem Begins.bounds_eq_iff (h : c.Begins day begins) (hday : 0 < day) (hsteady : c.Steady w)
    (hgc : GaloisConnection first index) (now now' : Int) :
    begins (first (index (c.date day now))) = begins (first (index (c.date day now'))) ∧
        begins (first (index (c.date day now) + 1)) = begins (first (index (c.date day now') + 1)) ↔
      index (c.date day now) = index (c.date day now') := by
  constructor
  · -- A period ends no later than a later one begins, and before that one ends.
    have hne : ∀ t t', index (c.date day t) < index (c.date day t') →
        begins (first (index (c.date day t) + 1)) < begins (first (index (c.date day t') + 1)) := by
      intro t t' hlt
      have hin : c.date day t' < first (index (c.date day t') + 1) := lt_of_not_ge fun hle ↦ by
        have := (hgc _ _).mp hle
        omega
      calc begins (first (index (c.date day t) + 1)) ≤ begins (first (index (c.date day t'))) :=
            h.mono hday (hgc.monotone_l (by omega))
        _ < begins (first (index (c.date day t') + 1)) := h.lt hday hsteady (hgc.l_u_le _) hin
    rintro ⟨-, hstop⟩
    rcases lt_trichotomy (index (c.date day now)) (index (c.date day now')) with hlt | heq | hgt
    · exact absurd hstop (hne now now' hlt).ne
    · exact heq
    · exact absurd hstop (hne now' now hgt).ne'
  · intro heq
    rw [heq]
    exact ⟨rfl, rfl⟩

end Periods

end Clock
