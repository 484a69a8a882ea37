/-
  Moments: days of the calendar, perhaps with a time of day.

  * `Moment.checked` refuses days and times that do not exist, and times of day that are a
    whole day or more away from universal time;
  * `Moment.text` writes a moment.
-/
namespace PrimaryEnergy

/-- A time of day. -/
structure TimeOfDay where
  hour : Nat
  minute : Nat
  second : Nat
  /-- Millionths of a second. -/
  fraction : Nat := 0
  /-- How many minutes it is ahead of universal time, if that is told. -/
  offset : Option Int := none
deriving DecidableEq, Repr

/-- A day of the calendar, perhaps with a time of day. -/
structure Moment where
  year : Nat
  /-- The month, from 1. -/
  month : Nat
  /-- The day of the month, from 1. -/
  day : Nat
  /-- The time of day, if it is told. -/
  time : Option TimeOfDay := none
deriving DecidableEq, Repr

/-- Why there is no such moment. -/
inductive MomentFault where
  /-- There is no year zero. -/
  | year
  | month
  /-- The month has no such day. -/
  | day
  | hour
  | minute
  | second
  /-- The minutes from universal time make up a day or more. -/
  | offset (minutes : Int)
deriving DecidableEq, Repr

/-- A number of minutes as days and seconds. -/
def MomentFault.spanText (minutes : Int) : String :=
  let seconds := minutes % 1440 * 60
  "days=" ++ toString (minutes / 1440) ++
    (if seconds = 0 then "" else ", seconds=" ++ toString seconds)

/-- What a reader is told about it. -/
def MomentFault.message : MomentFault → String
  | year => "year 0 is out of range"
  | month => "month must be in 1..12"
  | day => "day is out of range for month"
  | hour => "hour must be in 0..23"
  | minute => "minute must be in 0..59"
  | second => "second must be in 0..59"
  | offset minutes =>
    "offset must be a timedelta strictly between -timedelta(hours=24) and " ++
      "timedelta(hours=24), not datetime.timedelta(" ++ spanText minutes ++ ")."

namespace Moment

/-- Whether a year has a day more. -/
def isLeap (year : Nat) : Bool := year % 4 = 0 && (year % 100 ≠ 0 || year % 400 = 0)

/-- The number of days of a month. -/
def daysIn (year month : Nat) : Nat :=
  if month = 2 then (if isLeap year then 29 else 28)
  else if month = 4 ∨ month = 6 ∨ month = 9 ∨ month = 11 then 30
  else 31

/-- The first thing that is wrong with a day. -/
def dayFault? (m : Moment) : Option MomentFault :=
  if m.year = 0 then some .year
  else if m.month = 0 ∨ 12 < m.month then some .month
  else if m.day = 0 ∨ daysIn m.year m.month < m.day then some .day
  else none

/-- The first thing that is wrong with a time of day. -/
def timeFault? (t : TimeOfDay) : Option MomentFault :=
  if 23 < t.hour then some .hour
  else if 59 < t.minute then some .minute
  else if 59 < t.second then some .second
  else none

/-- Whether the distance from universal time is a day or more. -/
def offsetFault? (t : TimeOfDay) : Option MomentFault :=
  t.offset.bind fun minutes => if 1440 ≤ minutes.natAbs then some (.offset minutes) else none

/-- The moment, if it exists; the distance from universal time is looked at first. -/
def checked (m : Moment) : Except MomentFault Moment :=
  match (m.time.bind offsetFault?).or (m.dayFault?.or (m.time.bind timeFault?)) with
  | some e => .error e
  | none => .ok m

/-- A number with leading zeros. -/
def padded (width n : Nat) : String :=
  String.ofList (List.replicate (width - n.repr.length) '0') ++ n.repr

/-- The distance from universal time in hours and minutes. -/
def offsetText (minutes : Int) : String :=
  (if minutes < 0 then "-" else "+") ++ padded 2 (minutes.natAbs / 60) ++ ":" ++
    padded 2 (minutes.natAbs % 60)

/-- A time of day. -/
def timeText (t : TimeOfDay) : String :=
  padded 2 t.hour ++ ":" ++ padded 2 t.minute ++ ":" ++ padded 2 t.second ++
    (if t.fraction = 0 then "" else "." ++ padded 6 t.fraction) ++
    (t.offset.map offsetText).getD ""

/-- The moment from the year down. -/
def text (m : Moment) : String :=
  padded 4 m.year ++ "-" ++ padded 2 m.month ++ "-" ++ padded 2 m.day ++
    match m.time with
    | some t => " " ++ timeText t
    | none => ""

end Moment

end PrimaryEnergy
