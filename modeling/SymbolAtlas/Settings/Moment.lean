import SymbolAtlas.Number.Binary

/-!
# Dates and times

A date is `YYYY-MM-DD`. A date with a time has its time after a `T` or blanks, as `H:MM:SS` with a
fraction of the second if there is one, and after that perhaps the distance from universal time: a
`Z`, or a sign with hours and perhaps minutes. With a time, month and day may have one digit.

What has this form need not be in the calendar. The distance is looked at first, and then year,
month, day, hour, minute and second.
-/

namespace SymbolAtlas

/-- A date, with a time of day or without. -/
structure Moment where
  year : Nat
  month : Nat
  day : Nat
  /-- Hour, minute and second. -/
  time : Option (Nat × Nat × Nat)
  /-- Minutes before universal time, negative for places behind it. -/
  zone : Option Int
  deriving DecidableEq, Repr

/-- What is wrong with a moment that is not in the calendar. -/
inductive MomentError where
  | zone (minutes : Int)
  | year (n : Nat)
  | month
  | day
  | hour
  | minute
  | second
  deriving DecidableEq, Repr

namespace Moment

/-- The digits at the start of a text, at least `low` of them and at most `high`. -/
def digits? (low high : Nat) (t : Text) : Option (Nat × Text) :=
  let digits := (t.take high).takeWhile Char.isDigit
  if digits.length < low then none
  else some (Binary.digitsValue digits, t.drop digits.length)

/-- The text after a character that has to come. -/
def after? (c : Char) (t : Text) : Option Text :=
  match t with
  | d :: r => if c == d then some r else none
  | [] => none

/-- Blanks between the parts. -/
def isGap (c : Char) : Bool := c == ' ' || c == '\t'

/-- The distance from universal time at the end of a text. -/
def zone? (t : Text) : Option (Option Int) :=
  match t.dropWhile isGap with
  | [] => if t = [] then some none else none
  | ['Z'] => some (some 0)
  | c :: r => do
    let sign : Int ← if c == '+' then some 1 else if c == '-' then some (-1) else none
    let (hours, r) ← digits? 1 2 r
    if r = [] then return some (sign * (hours * 60 : Nat))
    let (minutes, r) ← digits? 2 2 (← after? ':' r)
    if r = [] then some (some (sign * (hours * 60 + minutes : Nat))) else none

/-- The text after a fraction of a second. -/
def afterFraction (t : Text) : Text :=
  match t with
  | '.' :: r => r.dropWhile Char.isDigit
  | r => r

/-- The time of day, and the distance from universal time, that a text ends with. -/
def time? (t : Text) : Option ((Nat × Nat × Nat) × Option Int) := do
  let (hour, t) ← digits? 1 2 t
  let (minute, t) ← digits? 2 2 (← after? ':' t)
  let (second, t) ← digits? 2 2 (← after? ':' t)
  let zone ← zone? (afterFraction t)
  return ((hour, minute, second), zone)

/-- The text after what divides the time from the date. -/
def afterDate? (t : Text) : Option Text :=
  match t with
  | c :: r =>
    if c == 'T' || c == 't' then some r else if isGap c then some (r.dropWhile isGap) else none
  | [] => none

/-- The moment that a text gives, whether it is in the calendar or not. A date without a time has
at least `width` digits for the month and for the day. -/
def ofText? (width : Nat) (t : Text) : Option Moment := do
  let (year, t) ← digits? 4 4 t
  let start ← after? '-' t
  let (month, t) ← digits? 1 2 start
  let monthWidth := start.length - t.length
  let start ← after? '-' t
  let (day, t) ← digits? 1 2 start
  let dayWidth := start.length - t.length
  if t = [] then
    if monthWidth < width || dayWidth < width then none else return ⟨year, month, day, none, none⟩
  let (time, zone) ← time? (← afterDate? t)
  return ⟨year, month, day, some time, zone⟩

/-- Whether a year has a leap day. -/
def isLeap (year : Nat) : Bool := year % 4 == 0 && (year % 100 != 0 || year % 400 == 0)

/-- The number of days in a month. -/
def daysIn (year month : Nat) : Nat :=
  if month == 2 then if isLeap year then 29 else 28
  else if [4, 6, 9, 11].contains month then 30
  else 31

/-- The number of minutes in a day. -/
def dayMinutes : Nat := 24 * 60

/-- What is wrong with a moment, if it is not in the calendar. -/
def error? (m : Moment) : Option MomentError :=
  let zone := m.zone.getD 0
  let (hour, minute, second) := m.time.getD (0, 0, 0)
  if dayMinutes ≤ zone.natAbs then some (.zone zone)
  else if m.year < 1 then some (.year m.year)
  else if m.month < 1 || 12 < m.month then some .month
  else if m.day < 1 || daysIn m.year m.month < m.day then some .day
  else if 23 < hour then some .hour
  else if 59 < minute then some .minute
  else if 59 < second then some .second
  else none

end Moment

/-- The wording of an error. -/
def MomentError.message : MomentError → String
  | .zone minutes =>
    let days := minutes / Moment.dayMinutes
    let seconds := minutes % Moment.dayMinutes * 60
    let rest := if seconds = 0 then "" else ", seconds=" ++ toString seconds
    "offset must be a timedelta strictly between -timedelta(hours=24) and timedelta(hours=24), " ++
      "not datetime.timedelta(days=" ++ toString days ++ rest ++ ")."
  | .year n => "year " ++ toString n ++ " is out of range"
  | .month => "month must be in 1..12"
  | .day => "day is out of range for month"
  | .hour => "hour must be in 0..23"
  | .minute => "minute must be in 0..59"
  | .second => "second must be in 0..59"

end SymbolAtlas
