import Voxeltoad.Billing.Period
import Voxeltoad.Lib.WallClock

/-!
# Periods are periods

What `PeriodBounds` is for: `calendar_periods` says that it divides time into days, ISO weeks and
months of a time zone's calendar.

A time zone is a wall clock (`Clock`) whose offsets stay below 24 hours and are kept for 48 hours or
more.  All that matters about `time.Date` is that what it returns for midnight is less than 24 hours
away from midnight UTC, so that `localDayStart` looks at the right intervals.

That the dates are right is a matter of the civil calendar: months come one after the other, each
with its number of days (`firstOfMonth_succ`), and weeks begin on Mondays.
-/

set_option autoImplicit false

namespace Voxeltoad

/-! ## Months -/

/-- The days of a month. -/
def daysIn (year month : Int) : Int :=
  if month = 2 then if year % 4 = 0 ∧ (year % 100 ≠ 0 ∨ year % 400 = 0) then 29 else 28
  else if month = 4 ∨ month = 6 ∨ month = 9 ∨ month = 11 then 30
  else 31

/-- A month begins when the days of the one before have passed. -/
theorem firstOfMonth_succ {year month : Int} (hlow : 1 ≤ month) (hhigh : month ≤ 12) :
    firstOfMonth year (month + 1) = firstOfMonth year month + daysIn year month := by
  have hmonth :
      month = 1 ∨ month = 2 ∨ month = 3 ∨ month = 4 ∨ month = 5 ∨ month = 6 ∨
      month = 7 ∨ month = 8 ∨ month = 9 ∨ month = 10 ∨ month = 11 ∨ month = 12 := by omega
  rcases hmonth with rfl | rfl | rfl | rfl | rfl | rfl | rfl | rfl | rfl | rfl | rfl | rfl <;>
    simp [firstOfMonth, daysIn] <;> (try split) <;> omega

/-- The year within its era of 400 years that begin on 1 March. -/
theorem yearOfEra_spec {doe : Int} (h₀ : 0 ≤ doe) (h₁ : doe < 146097) :
    let yoe := (doe - doe / 1460 + doe / 36524 - doe / 146096) / 365
    0 ≤ yoe ∧ yoe ≤ 399 ∧ 365 * yoe + yoe / 4 - yoe / 100 ≤ doe ∧
      (yoe < 399 → doe < 365 * (yoe + 1) + (yoe + 1) / 4 - (yoe + 1) / 100) := by
  intro yoe
  rcases eq_or_ne doe 146096 with rfl | hne
  · decide
  -- Centuries, cycles of four years in them, and years in those: only the last of each may be
  -- longer or shorter.
  obtain ⟨century, hcentury⟩ : ∃ c, c = doe / 36524 := ⟨_, rfl⟩
  obtain ⟨cycle, hcycle⟩ : ∃ q, q = (doe - 36524 * century) / 1461 := ⟨_, rfl⟩
  obtain ⟨rest, hrest⟩ : ∃ r, r = doe - 36524 * century - 1461 * cycle := ⟨_, rfl⟩
  obtain ⟨year, hyear⟩ : ∃ k, k = (rest - (24 * century + cycle + rest) / 1460) / 365 := ⟨_, rfl⟩
  have hleap : doe / 1460 = 25 * century + cycle + (24 * century + cycle + rest) / 1460 := by omega
  have hlast : doe / 146096 = 0 := by omega
  have hyoe : yoe = 100 * century + 4 * cycle + year := by
    simp only [yoe]
    rw [hlast, hleap, ← hcentury]
    omega
  have hbounds :
    0 ≤ century ∧ century ≤ 3 ∧ 0 ≤ cycle ∧ cycle ≤ 24 ∧ 0 ≤ year ∧ year ≤ 3 := by omega
  have hfour : yoe / 4 = 25 * century + cycle := by omega
  have hhundred : yoe / 100 = century := by omega
  refine ⟨by omega, by omega, by omega, fun hlt ↦ ?_⟩
  rcases lt_or_ge year 3 with hshort | hlong
  · have hfour' : (yoe + 1) / 4 = 25 * century + cycle := by omega
    have hhundred' : (yoe + 1) / 100 = century := by omega
    omega
  · have hfour' : (yoe + 1) / 4 = 25 * century + cycle + 1 := by omega
    rcases lt_or_ge cycle 24 with hinner | hend
    · have hhundred' : (yoe + 1) / 100 = century := by omega
      omega
    · have hhundred' : (yoe + 1) / 100 = century + 1 := by omega
      omega

/-- How the days of a month are found in a year that begins in March: no month but the last is any
different from year to year. -/
theorem lt_daysIn {doy mp : Int} (hmp : mp = (5 * doy + 2) / 153) (hlow : 0 ≤ mp) (hhigh : mp < 11)
    (year : Int) : doy < (153 * mp + 2) / 5 + daysIn year (if mp < 10 then mp + 3 else mp - 9) := by
  have hcases :
      mp = 0 ∨ mp = 1 ∨ mp = 2 ∨ mp = 3 ∨ mp = 4 ∨ mp = 5 ∨ mp = 6 ∨ mp = 7 ∨ mp = 8 ∨ mp = 9 ∨
      mp = 10 := by omega
  rcases hcases with rfl | rfl | rfl | rfl | rfl | rfl | rfl | rfl | rfl | rfl | rfl <;>
    simp only [daysIn] <;> simp <;> omega

/-- The last month, February, has one day more where the year that begins after it in March has. -/
theorem lt_daysIn_february {doe yoe : Int} (h₀ : doe < 146097) (h₁ : yoe ≤ 399)
    (hhigh : yoe < 399 → doe < 365 * (yoe + 1) + (yoe + 1) / 4 - (yoe + 1) / 100) (era : Int) :
    doe - (365 * yoe + yoe / 4 - yoe / 100) < 337 + daysIn (yoe + era * 400 + 1) 2 := by
  have hyear :
      (yoe + era * 400 + 1) % 4 = (yoe + 1) % 4 ∧ (yoe + era * 400 + 1) % 100 = (yoe + 1) % 100 ∧
      (yoe + era * 400 + 1) % 400 = (yoe + 1) % 400 := by omega
  simp only [daysIn, if_pos, hyear]
  rcases lt_or_ge yoe 399 with hlt | hge
  · have hend := hhigh hlt
    split
    · omega
    · rename_i hcommon
      have hfour :
          (yoe + 1) / 4 = yoe / 4 ∨ (yoe + 1) / 4 = yoe / 4 + 1 ∧
          (yoe + 1) / 100 = yoe / 100 + 1 := by
        omega
      have hhundred : yoe / 100 ≤ (yoe + 1) / 100 := by omega
      omega
  · obtain rfl : yoe = 399 := by omega
    simp
    omega

/-- A day lies in its month. -/
theorem civilMonth_spec (days : Int) : 1 ≤ (civilMonth days).2 ∧ (civilMonth days).2 ≤ 12 ∧
    firstOfMonth (civilMonth days).1 (civilMonth days).2 ≤ days ∧
    days < firstOfMonth (civilMonth days).1 ((civilMonth days).2 + 1) := by
  obtain ⟨era, hera⟩ : ∃ e, e = (days + 719468) / 146097 := ⟨_, rfl⟩
  obtain ⟨doe, hdoe⟩ : ∃ e, e = (days + 719468) % 146097 := ⟨_, rfl⟩
  have hdoe₁ : doe < 146097 := by omega
  obtain ⟨yoe, hyoe⟩ : ∃ y, y = (doe - doe / 1460 + doe / 36524 - doe / 146096) / 365 := ⟨_, rfl⟩
  obtain ⟨h₀, h₁, hlow, hhigh⟩ : 0 ≤ yoe ∧ yoe ≤ 399 ∧ 365 * yoe + yoe / 4 - yoe / 100 ≤ doe ∧
      (yoe < 399 → doe < 365 * (yoe + 1) + (yoe + 1) / 4 - (yoe + 1) / 100) :=
    hyoe ▸ yearOfEra_spec (by omega) hdoe₁
  obtain ⟨doy, hdoy⟩ : ∃ y, y = doe - (365 * yoe + yoe / 4 - yoe / 100) := ⟨_, rfl⟩
  obtain ⟨mp, hmp⟩ : ∃ m, m = (5 * doy + 2) / 153 := ⟨_, rfl⟩
  obtain ⟨month, hmonth⟩ : ∃ m, m = if mp < 10 then mp + 3 else mp - 9 := ⟨_, rfl⟩
  have hcivil : civilMonth days = (yoe + era * 400 + if month ≤ 2 then 1 else 0, month) := by
    simp only [civilMonth, ← hera, ← hdoe, ← hyoe, ← hdoy, ← hmp, ← hmonth]
  have hdays : days = era * 146097 + (doy + (365 * yoe + yoe / 4 - yoe / 100)) - 719468 := by omega
  have hera' : (yoe + era * 400) / 400 = era ∧ (yoe + era * 400) % 400 = yoe := by omega
  have hfirst : firstOfMonth (yoe + era * 400 + if month ≤ 2 then 1 else 0) month =
      era * 146097 + ((153 * mp + 2) / 5 + (365 * yoe + yoe / 4 - yoe / 100)) - 719468 := by
    simp only [firstOfMonth]
    grind
  have hmp₀ : 0 ≤ mp ∧ mp ≤ 11 := by
    rcases lt_or_ge yoe 399 with hlt | hge
    · have := hhigh hlt
      omega
    · omega
  have hmonth₀ : 1 ≤ month ∧ month ≤ 12 := by
    split at hmonth <;> omega
  have hlast :
      doy < (153 * mp + 2) / 5 + daysIn (yoe + era * 400 + if month ≤ 2 then 1 else 0) month := by
    rcases lt_or_ge mp 11 with hlt | hge
    · rw [hmonth]
      exact lt_daysIn hmp hmp₀.1 hlt _
    · obtain rfl : mp = 11 := by omega
      obtain rfl : month = 2 := by omega
      exact hdoy ▸ lt_daysIn_february hdoe₁ h₁ hhigh era
  rw [hcivil]
  refine ⟨hmonth₀.1, hmonth₀.2, ?_, ?_⟩ <;> dsimp only
  · rw [hfirst]
    omega
  · rw [firstOfMonth_succ hmonth₀.1 hmonth₀.2, hfirst]
    omega

/-! ## Periods of dates -/

/-- The week a date is in, by the year and the number that ISO 8601 gives it: those of its
Thursday. -/
def isoWeek (days : Int) : Int × Int :=
  let thursday := days - (weekday days + 6) % 7 + 3
  let year := (civilMonth thursday).1
  (year, (thursday - firstOfMonth year 1) / 7 + 1)

/-- Two dates in the same day, ISO week or month. -/
def SamePeriod : Period → Int → Int → Prop
  | .daily, d, e => d = e
  | .weekly, d, e => isoWeek d = isoWeek e
  | .monthly, d, e => civilMonth d = civilMonth e

namespace Period

/-- Periods, counted through. -/
def index : Period → Int → Int
  | .daily, days => days
  | .weekly, days => (days + 3) / 7
  | .monthly, days => 12 * (civilMonth days).1 + ((civilMonth days).2 - 1)

/-- The first date of a period. -/
def first : Period → Int → Int
  | .daily, k => k
  | .weekly, k => 7 * k - 3
  | .monthly, k => firstOfMonth (k / 12) (k % 12 + 1)

theorem first_monthly {year month : Int} (hlow : 1 ≤ month) (hhigh : month ≤ 12) :
    first .monthly (12 * year + (month - 1)) = firstOfMonth year month := by
  rw [first, show (12 * year + (month - 1)) / 12 = year by omega,
    show (12 * year + (month - 1)) % 12 + 1 = month by omega]

/-- Month 13 is the first month of the next year. -/
theorem first_monthly_succ {year month : Int} (hlow : 1 ≤ month) (hhigh : month ≤ 12) :
    first .monthly (12 * year + (month - 1) + 1) = firstOfMonth year (month + 1) := by
  rcases hhigh.lt_or_eq with hlt | rfl
  · rw [show 12 * year + (month - 1) + 1 = 12 * year + (month + 1 - 1) by omega]
    exact first_monthly (by omega) (by omega)
  · rw [show 12 * year + (12 - 1 : Int) + 1 = 12 * (year + 1) + (1 - 1) by omega,
      first_monthly le_rfl (by decide)]
    rfl

theorem first_strictMono (period : Period) : StrictMono period.first := by
  rcases period
  · exact strictMono_id
  · exact fun k k' h ↦ by simp only [first]; omega
  · refine strictMono_int_of_lt_succ fun k ↦ ?_
    have hk : k = 12 * (k / 12) + (k % 12 + 1 - 1) := by omega
    have hlow : 1 ≤ k % 12 + 1 := by omega
    have hhigh : k % 12 + 1 ≤ 12 := by omega
    have hpos : 0 < daysIn (k / 12) (k % 12 + 1) := by
      rw [daysIn]
      split_ifs <;> decide
    rw [hk, first_monthly hlow hhigh, first_monthly_succ hlow hhigh, firstOfMonth_succ hlow hhigh]
    omega

/-- A date is in its period. -/
theorem first_index_le (period : Period) (days : Int) :
    period.first (period.index days) ≤ days ∧ days < period.first (period.index days + 1) := by
  rcases period
  · exact ⟨le_rfl, Int.lt_succ days⟩
  · simp only [first, index]
    omega
  · obtain ⟨hlow, hhigh, hfirst, hnext⟩ := civilMonth_spec days
    rw [index, first_monthly hlow hhigh, first_monthly_succ hlow hhigh]
    exact ⟨hfirst, hnext⟩

theorem galoisConnection (period : Period) : GaloisConnection period.first period.index :=
  Clock.galoisConnection_of_between period.first_strictMono.monotone
  (fun d ↦ (period.first_index_le d).1)
    fun d ↦ (period.first_index_le d).2

/-- The source finds the dates of a period without counting. -/
theorem periodDates_eq (period : Period) (today : Int) :
    periodDates period today =
      (period.first (period.index today), period.first (period.index today + 1)) := by
  rcases period
  · rfl
  · simp only [periodDates, weekday, first, index, Prod.mk.injEq]
    omega
  · obtain ⟨hlow, hhigh, -⟩ := civilMonth_spec today
    rw [index, first_monthly hlow hhigh, first_monthly_succ hlow hhigh]
    rfl

/-- ISO weeks begin on Mondays. -/
theorem isoWeek_eq_iff {d e : Int} : isoWeek d = isoWeek e ↔ (d + 3) / 7 = (e + 3) / 7 := by
  have hthursday : ∀ d : Int, d - (weekday d + 6) % 7 + 3 = 7 * ((d + 3) / 7) := fun d ↦ by
    rw [weekday]
    omega
  simp only [isoWeek, hthursday, Prod.mk.injEq]
  constructor
  · rintro ⟨hyear, hweek⟩
    rw [hyear] at hweek
    omega
  · intro h
    rw [h]
    exact ⟨rfl, rfl⟩

theorem index_eq_iff {period : Period} {d e : Int} :
    period.index d = period.index e ↔ SamePeriod period d e := by
  rcases period
  · rfl
  · exact isoWeek_eq_iff.symm
  · obtain ⟨hlow, hhigh, -⟩ := civilMonth_spec d
    obtain ⟨hlow', hhigh', -⟩ := civilMonth_spec e
    rw [SamePeriod, Prod.ext_iff, index, index]
    omega

end Period

/-! ## Time zones -/

namespace Location

/-- The wall clock of a time zone, in nanoseconds. -/
def clock (loc : Location) : Clock := ⟨fun t ↦ loc.offset t * second, loc.zoneBounds⟩

/-- A time zone, and what is documented about it: `ZoneBounds` is the interval in which the offset
in force is kept, and `Date` is right, or where midnight is skipped, right in one of the two zones
involved. -/
structure Documented (loc : Location) : Prop where
  small : ∀ t, -86400 < loc.offset t ∧ loc.offset t < 86400
  within : ∀ t, Clock.Within (loc.zoneBounds t) t
  constant : ∀ t s, Clock.Within (loc.zoneBounds t) s →
    loc.zoneBounds s = loc.zoneBounds t ∧ loc.offset s = loc.offset t
  long : ∀ t l u, loc.zoneBounds t = (some l, some u) → l + 2 * day ≤ u
  date : ∀ d, loc.clock.wall (loc.midnight d) = d * day ∨
    ∃ t u, (loc.zoneBounds t).2 = some u ∧
      u + loc.offset t * second ≤ d * day ∧ d * day < u + loc.offset u * second ∧
      (loc.midnight d = d * day - loc.offset t * second ∨
        loc.midnight d = d * day - loc.offset u * second)

theorem Documented.steady {loc : Location} (h : loc.Documented) : loc.clock.Steady day where
  small t := by
    have := h.small t
    simp only [clock, day, second]
    omega
  within := h.within
  constant t s hs := ⟨(h.constant t s hs).1, congrArg (· * second) (h.constant t s hs).2⟩
  long := h.long

/-- Midnight is less than a day away from midnight UTC. -/
theorem Documented.midnight_near {loc : Location} (h : loc.Documented) (d : Int) :
    d * day - day < loc.midnight d ∧ loc.midnight d < d * day + day := by
  have hnear : ∀ t, d * day - day < d * day - loc.offset t * second ∧
      d * day - loc.offset t * second < d * day + day := fun t ↦
    ⟨sub_lt_sub_left (h.steady.small t).2 _, (sub_lt_sub_left (h.steady.small t).1 _).trans_eq
      (sub_neg_eq_add _ _)⟩
  rcases h.date d with hwall | ⟨t, u, -, -, -, heq | heq⟩
  · have heq : loc.midnight d = d * day - loc.offset (loc.midnight d) * second :=
      eq_sub_of_add_eq hwall
    have := hnear (loc.midnight d)
    rwa [← heq] at this
  · rw [heq]
    exact hnear t
  · rw [heq]
    exact hnear u

end Location

variable {loc : Location}

/-- `localDayStart` is the earliest instant of the wall clock. -/
theorem localDayStart_eq (loc : Location) (date : Int) :
    localDayStart loc date = loc.clock.earliest (date * day) (loc.midnight date) := rfl

/-- The day starts of a time zone. -/
theorem Location.Documented.begins (h : loc.Documented) :
    loc.clock.Begins day fun date ↦ (localDayStart loc date).getD zeroTime := fun date ↦ by
  obtain ⟨hlow, hhigh⟩ := h.midnight_near date
  obtain ⟨s, hs, hleast⟩ := h.steady.isLeast_earliest hlow hhigh
  simpa only [localDayStart_eq, hs, Option.getD_some] using hleast

/-- **`PeriodBounds` divides time into the periods of the calendar.**  Days start as early as the
local clock allows.  A period has started, and it has not ended unless the local clock has already
shown the next period; it ends when the next one starts; and it is the same period for the same day,
ISO week or month, and only for that. -/
theorem calendar_periods (hloc : loc.Documented) {zones : Zones} {timezone : String}
    (hlocal : timezone ≠ "Local")
    (hzone : zones (if timezone = "" then "UTC" else timezone) = some loc) :
    (∀ date, ∃ s, localDayStart loc date = some s ∧
      IsLeast {t | date * day ≤ t + loc.offset t * second} s) ∧
    ∀ period now, ∃ start stop next, periodBounds zones now period timezone = .ok (start, stop) ∧
      IsLeast {date | localDate loc now ≤ date ∧ ¬ SamePeriod period (localDate loc now) date}
      next ∧
      localDayStart loc next = some stop ∧ start ≤ now ∧
      (stop ≤ now ↔ ∃ t < now, localDate loc t = next) ∧
      ∀ now' start' stop', periodBounds zones now' period timezone = .ok (start', stop') →
        (SamePeriod period next (localDate loc now') → start' = stop) ∧
        ((start, stop) = (start', stop') ↔
          SamePeriod period (localDate loc now) (localDate loc now')) := by
  have hday : 0 < day := by decide
  have hbounds : ∀ period now, periodBounds zones now period timezone =
      .ok ((localDayStart loc (period.first (period.index (localDate loc now)))).getD zeroTime,
        (localDayStart loc (period.first (period.index (localDate loc now) + 1))).getD
        zeroTime) := by
    intro period now
    have htimezone : ¬ (if timezone = "" then "UTC" else timezone) = "Local" := by
      split
      · decide
      · exact hlocal
    simp only [periodBounds, if_neg htimezone, hzone, Period.periodDates_eq]
  have hstart : ∀ date, ∃ s, localDayStart loc date = some s ∧
      IsLeast {t | date * day ≤ t + loc.offset t * second} s := fun date ↦ by
    obtain ⟨hlow, hhigh⟩ := hloc.midnight_near date
    exact hloc.steady.isLeast_earliest hlow hhigh
  refine ⟨hstart, fun period now ↦ ?_⟩
  have hgc := period.galoisConnection
  have hnext := Clock.isLeast_next hgc (localDate loc now)
  simp only [Ne, Period.index_eq_iff] at hnext
  refine ⟨_, _, _, hbounds period now, hnext, ?_, ?_, ?_, fun now' start' stop' hnow' ↦ ?_⟩
  · obtain ⟨s, hs, -⟩ := hstart (period.first (period.index (localDate loc now) + 1))
    rw [hs, Option.getD_some]
  · exact hloc.begins.le hday (hgc.l_u_le _)
  · exact hloc.begins.le_iff_shown hday hloc.steady (period.first_index_le _).2
  · rw [hbounds, Except.ok.injEq] at hnow'
    obtain ⟨rfl, rfl⟩ := Prod.mk.injEq .. ▸ hnow'
    refine ⟨fun hsame ↦ ?_, ?_⟩
    · rw [← Period.index_eq_iff, Clock.index_first hgc period.first_strictMono] at hsame
      rw [hsame]
    · rw [Prod.mk.injEq, ← Period.index_eq_iff]
      exact hloc.begins.bounds_eq_iff hday hloc.steady hgc now now'

/-! ## A zone that changes once -/

/-- A time zone that goes over from one offset to another at an instant. -/
def Location.once (change : Time) (before after : Int) : Location where
  offset t := if t < change then before else after
  zoneBounds t := if t < change then (none, some change) else (some change, none)
  midnight date :=
    if date * day - before * second < change then date * day - before * second
      else date * day - after * second

theorem Location.once_documented {change : Time} {before after : Int}
    (hbefore : -86400 < before ∧ before < 86400) (hafter : -86400 < after ∧ after < 86400) :
    (Location.once change before after).Documented where
  small t := by
    simp only [once]
    split
    · exact hbefore
    · exact hafter
  within t := by
    simp only [once]
    split <;> simp_all [Clock.Within]
  constant t s hs := by
    simp only [once] at hs ⊢
    split at hs
    · rename_i ht
      have hst : s < change := hs.2 _ rfl
      simp only [if_pos ht, if_pos hst, and_self]
    · rename_i ht
      have hst : ¬ s < change := not_lt.mpr (hs.1 _ rfl)
      simp only [if_neg ht, if_neg hst, and_self]
  long t l u hlu := by
    simp only [once] at hlu
    split at hlu <;> cases hlu
  date d := by
    by_cases hfirst : d * day - before * second < change
    · left
      simp only [once, Clock.wall, clock, if_pos hfirst]
      exact sub_add_cancel _ _
    by_cases hsecond : d * day - after * second < change
    · right
      have hbefore' : change - 1 < change := sub_one_lt change
      refine ⟨change - 1, change, by simp [once, hbefore'], ?_, ?_, .inr ?_⟩
      · simpa [once, hbefore'] using le_sub_iff_add_le.mp (not_lt.mp hfirst)
      · simpa [once] using sub_lt_iff_lt_add.mp hsecond
      · simp [once, hfirst]
    · left
      simp only [once, Clock.wall, clock, if_neg hfirst, if_neg hsecond]
      exact sub_add_cancel _ _

/-- Santiago in 2026, where midnight of 6 September does not exist. -/
def Location.santiago : Location := .once (1788667200 * second) (-14400) (-10800)

/-- A database that knows nothing but Santiago. -/
def Zones.santiago : Zones := fun name ↦ if name = "America/Santiago" then some .santiago else none

/-- The week before that day, seen from the noon before it: it begins and ends on Mondays. -/
theorem calendar_periods_sample :
    periodBounds .santiago (1788609600 * second) .weekly "America/Santiago" =
        .ok (1788148800 * second, 1788750000 * second) ∧
      ∃ s, localDayStart .santiago 20702 = some s ∧
        IsLeast {t | 20702 * day ≤ t + Location.santiago.offset t * second} s := by
  have hloc : Location.santiago.Documented := Location.once_documented (by decide) (by decide)
  have hzone :
      Zones.santiago (if "America/Santiago" = "" then "UTC" else "America/Santiago") =
      some .santiago :=
    rfl
  exact ⟨by decide, (calendar_periods hloc (by decide) hzone).1 20702⟩

end Voxeltoad
