import Voxeltoad.Billing.Accounting

/-!
# Calendar periods

`PeriodBounds` of `internal/billing/period.go`: the start and the end of the calendar day, week or
month that an instant falls in, in the time zone of a policy.  The dates are computed first, as
day numbers, and only then turned into instants by `localDayStart`, so that a skipped or repeated
midnight cannot change the dates.

The time-zone database and the two methods of the standard library that read it are not part of
the program: `Location` has them as fields, and a `Zones` maps the names the database knows.
-/

set_option autoImplicit false

namespace Voxeltoad

/-- A `time.Location`: what `Zone`, `ZoneBounds` and `time.Date` answer for it. -/
structure Location where
  /-- The offset in force at an instant, in seconds east of UTC. -/
  offset : Time → Int
  /-- `ZoneBounds`: where the offset in force at an instant begins and ends; `none` is the zero
  time, for an interval without that end. -/
  zoneBounds : Time → Option Time × Option Time
  /-- `time.Date` at midnight of a day, given as days since the Unix epoch. -/
  midnight : Int → Time

/-- `time.LoadLocation`. -/
abbrev Zones := String → Option Location

/-- A time-zone database that knows UTC and nothing else. -/
def Zones.utc : Zones := fun name ↦
  if name = "UTC" then some ⟨fun _ ↦ 0, fun _ ↦ (none, none), fun date ↦ date * 86400000000000⟩
  else none

/-! ## The civil calendar -/

/-- Nanoseconds in a second. -/
def second : Time := 1000000000

/-- Nanoseconds in a day. -/
def day : Time := 86400 * second

/-- The year and month (1–12) of a day, in the proleptic Gregorian calendar.  The computation
counts from 1 March of year 0, so that a leap day is the last day of its year. -/
def civilMonth (days : Int) : Int × Int :=
  let z := days + 719468
  let era := z / 146097
  let doe := z % 146097
  let yoe := (doe - doe / 1460 + doe / 36524 - doe / 146096) / 365
  let doy := doe - (365 * yoe + yoe / 4 - yoe / 100)
  let mp := (5 * doy + 2) / 153
  let month := if mp < 10 then mp + 3 else mp - 9
  (yoe + era * 400 + if month ≤ 2 then 1 else 0, month)

/-- The first day of a month, which may be given as month 13. -/
def firstOfMonth (year month : Int) : Int :=
  let year := if month = 13 then year + 1 else year
  let month := if month = 13 then 1 else month
  let y := if month ≤ 2 then year - 1 else year
  let era := y / 400
  let yoe := y % 400
  let mp := if month > 2 then month - 3 else month + 9
  let doy := (153 * mp + 2) / 5
  let doe := yoe * 365 + yoe / 4 - yoe / 100 + doy
  era * 146097 + doe - 719468

/-- The weekday of a day, Sunday being 0. -/
def weekday (days : Int) : Int := (days + 4) % 7

/-- The dates a period begins and ends with, for an instant whose local date is `today`. -/
def periodDates (period : Period) (today : Int) : Int × Int :=
  match period with
  | .daily => (today, today + 1)
  | .weekly =>
    let start := today - (weekday today + 6) % 7
    (start, start + 7)
  | .monthly =>
    let (year, month) := civilMonth today
    (firstOfMonth year month, firstOfMonth year (month + 1))

/-! ## From dates to instants -/

/-- The first instant of the local day `date` inside the interval of constant offset that `probe`
lies in, if the day begins there. -/
def localDayStartIn (loc : Location) (date : Int) (probe : Time) : Option Time :=
  let (lower, upper) := loc.zoneBounds probe
  let candidate := date * day - loc.offset probe * second
  let candidate := match lower with
    | some l => if candidate < l then l else candidate
    | none => candidate
  match upper with
  | some u => if candidate < u then some candidate else none
  | none => some candidate

/-- `localDayStart` resolves midnight against the adjacent constant-offset intervals.  In a gap the
first valid instant is the transition; in a fold the earlier midnight wins. -/
def localDayStart (loc : Location) (date : Int) : Option Time :=
  let probe := loc.midnight date
  let (start, stop) := loc.zoneBounds probe
  let probes := probe :: ((start.map (· - 1)).toList ++ stop.toList)
  (probes.filterMap (localDayStartIn loc date)).min?

/-- Go's zero `time.Time`: midnight UTC of 1 January of year 1. -/
def zeroTime : Time := -719162 * day

/-- The local date of an instant. -/
def localDate (loc : Location) (now : Time) : Int := (now + loc.offset now * second) / day

/-- `PeriodBounds`.  When no probe of `localDayStart` succeeds the source returns the zero time. -/
def periodBounds (zones : Zones) (now : Time) (period : Period) (timezone : String) :
    Except AccountingError (Time × Time) :=
  let timezone := if timezone = "" then "UTC" else timezone
  if timezone = "Local" then .error (.invalidPolicy "timezone must be explicit")
  else match zones timezone with
    | none => .error (.invalidPolicy ("timezone \"" ++ timezone ++ "\""))
    | some loc =>
      let (start, stop) := periodDates period (localDate loc now)
      .ok ((localDayStart loc start).getD zeroTime, (localDayStart loc stop).getD zeroTime)

end Voxeltoad
