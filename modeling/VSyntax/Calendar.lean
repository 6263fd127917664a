import VSyntax.Numeral

/-!
# Dates and times

Days of the calendar and times of the day, each apart or both together. Only days and times that
there are can be built. A day with a time may say how far its clock is ahead of universal time; it
then stands for an instant, and two that stand for one instant are the same.
-/
namespace VSyntax

/-! ## Days -/

namespace Date

/-- Whether a year has a leap day. -/
def isLeapYear (year : Nat) : Bool := year % 4 == 0 && (year % 100 != 0 || year % 400 == 0)

/-- The number of days of a month. -/
def daysInMonth (year month : Nat) : Nat :=
  if month = 2 then if isLeapYear year then 29 else 28
  else if month = 4 ∨ month = 6 ∨ month = 9 ∨ month = 11 then 30
  else 31

end Date

/-- A day of the calendar. -/
structure Date where
  year : Nat
  month : Nat
  day : Nat
  hasYear : 1 ≤ year ∧ year ≤ 9999
  hasMonth : 1 ≤ month ∧ month ≤ 12
  hasDay : 1 ≤ day ∧ day ≤ Date.daysInMonth year month
  deriving DecidableEq, Repr

namespace Date

/-- The day of the given numbers, if there is one. -/
def of? (year month day : Nat) : Option Date :=
  if h : (1 ≤ year ∧ year ≤ 9999) ∧ (1 ≤ month ∧ month ≤ 12) ∧
      1 ≤ day ∧ day ≤ daysInMonth year month then
    some ⟨year, month, day, h.1, h.2.1, h.2.2⟩
  else none

/-- The days before the first of a year. -/
def daysBeforeYear (year : Nat) : Nat :=
  let past := year - 1
  past * 365 + past / 4 - past / 100 + past / 400

/-- The days of a year before the first of the month after `months` others. -/
def daysBeforeMonth (year : Nat) : Nat → Nat
  | 0 => 0
  | months + 1 => daysBeforeMonth year months + daysInMonth year (months + 1)

/-- The number of a day, the first of January of the year one being the first. -/
def number (d : Date) : Nat :=
  daysBeforeYear d.year + daysBeforeMonth d.year (d.month - 1) + d.day

/-- The numbers of a day. -/
def fields (d : Date) : List Nat := [d.year, d.month, d.day]

end Date

/-! ## Times of the day -/

/-- A time of the day, as a clock shows it, with millionths of a second. -/
structure ClockTime where
  hour : Nat
  minute : Nat
  second : Nat
  micro : Nat
  hasHour : hour < 24
  hasMinute : minute < 60
  hasSecond : second < 60
  hasMicro : micro < 1000000
  deriving DecidableEq, Repr

namespace ClockTime

/-- The time of the given numbers, if there is one. -/
def of? (hour minute second micro : Nat) : Option ClockTime :=
  if h : hour < 24 ∧ minute < 60 ∧ second < 60 ∧ micro < 1000000 then
    some ⟨hour, minute, second, micro, h.1, h.2.1, h.2.2.1, h.2.2.2⟩
  else none

/-- The millionths of a second since midnight. -/
def micros (t : ClockTime) : Nat :=
  ((t.hour * 60 + t.minute) * 60 + t.second) * 1000000 + t.micro

/-- The numbers of a time, without the zeros at the end that need not be told. -/
def fields (t : ClockTime) : List Nat :=
  if t.micro ≠ 0 then [t.hour, t.minute, t.second, t.micro]
  else if t.second ≠ 0 then [t.hour, t.minute, t.second]
  else [t.hour, t.minute]

end ClockTime

/-! ## Both together -/

/-- The minutes by which a clock is ahead of universal time, less than a day. -/
structure Zone where
  minutes : Int
  near : minutes.natAbs < 1440
  deriving DecidableEq, Repr

/-- The zone that is so many minutes ahead, if there is one. -/
def Zone.of? (minutes : Int) : Option Zone :=
  if h : minutes.natAbs < 1440 then some ⟨minutes, h⟩ else none

/-- A time on a day, and the zone of its clock, if told. -/
structure DateTime where
  date : Date
  time : ClockTime
  zone : Option Zone
  deriving DecidableEq, Repr

namespace DateTime

/-- The millionths of a second that the clock has counted since its first day. -/
def shown (t : DateTime) : Int := t.date.number * 86400000000 + t.time.micros

/-- Whether two are the same: those that tell their zones by their instants, those that do not by
what the clocks show. -/
def same (a b : DateTime) : Bool :=
  match a.zone, b.zone with
  | some y, some z => a.shown - y.minutes * 60000000 == b.shown - z.minutes * 60000000
  | none, none => a.shown == b.shown
  | _, _ => false

end DateTime

/-! ## Written forms -/

namespace Calendar

/-- A value of a kind by its numbers and what is told besides. -/
def write (kind : String) (fields : List Nat) (more : String) : String :=
  "datetime." ++ kind ++ "(" ++ ", ".intercalate (fields.map Numeral.nat) ++ more ++ ")"

end Calendar

/-- The written form of a day. -/
def Date.write (d : Date) : String := Calendar.write "date" d.fields ""

/-- The written form of a time of the day. -/
def ClockTime.write (t : ClockTime) : String := Calendar.write "time" t.fields ""

/-- The written form of a zone, by days and seconds. -/
def Zone.write (z : Zone) : String :=
  let days := z.minutes * 60 / 86400
  let seconds := z.minutes * 60 % 86400
  if z.minutes = 0 then "datetime.timezone.utc"
  else
    "datetime.timezone(datetime.timedelta(" ++
      (if days = 0 then "" else "days=" ++ Numeral.int days ++ ", ") ++
      "seconds=" ++ Numeral.int seconds ++ "))"

/-- How many values stand inside each other in the written form of a zone. -/
def Zone.depth (z : Zone) : Nat := if z.minutes = 0 then 1 else 2

/-- The written form of a time on a day. -/
def DateTime.write (t : DateTime) : String :=
  Calendar.write "datetime" (t.date.fields ++ t.time.fields)
    ((t.zone.map fun z => ", tzinfo=" ++ z.write).getD "")

/-- How many values stand inside each other in the written form of a time on a day. -/
def DateTime.depth (t : DateTime) : Nat := 1 + (t.zone.map Zone.depth).getD 0

end VSyntax
