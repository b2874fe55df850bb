import StyleTokens.Bits

/-!
Moments of the calendar.

* `Moment`: a date and a time, with its distance from universal time if that is known;
* `MomentError`: which number of a moment is out of range;
* `MomentError.ofNumber?`, `MomentError.ofOffset?`: what is wrong with numbers on their own;
* `Moment.ofFields`: the moment of a list of numbers;
* `Moment.stamp`: the moment as a time stamp with milliseconds;
* `Moment.plain`: the moment as a date and a time of day.
-/

namespace StyleTokens

/-- A date and a time of day. The offset counts minutes east of universal time. -/
structure Moment where
  year : Nat
  month : Nat
  day : Nat
  hour : Nat := 0
  minute : Nat := 0
  second : Nat := 0
  microsecond : Nat := 0
  offset : Option Int := none
  deriving DecidableEq, Repr

/-- Which number of a moment is out of range. All numbers have at most 32 bits, and those with more than
64 are told apart; the days of an offset have at most 32 bits too. -/
inductive MomentError where
  | wide
  | tooGreat
  | tooSmall
  | wideOffset
  | longOffset (days : Int)
  | year (year : Int)
  | month
  | day
  | hour
  | minute
  | second
  | microsecond
  | offset (minutes : Int)
  deriving DecidableEq, Repr

/-- A span of minutes as days and seconds, for messages. -/
def spanText (minutes : Int) : String :=
  let days := minutes / 1440
  let seconds := minutes % 1440 * 60
  "datetime.timedelta(days=" ++ toString days ++
    (if seconds = 0 then "" else ", seconds=" ++ toString seconds) ++ ")"

/-- The words for an error. -/
def MomentError.message : MomentError → String
  | .wide => "Python int too large to convert to C long"
  | .tooGreat => "signed integer is greater than maximum"
  | .tooSmall => "signed integer is less than minimum"
  | .wideOffset => "Python int too large to convert to C int"
  | .longOffset days => "days=" ++ toString days ++ "; must have magnitude <= 999999999"
  | .year y => "year " ++ toString y ++ " is out of range"
  | .month => "month must be in 1..12"
  | .day => "day is out of range for month"
  | .hour => "hour must be in 0..23"
  | .minute => "minute must be in 0..59"
  | .second => "second must be in 0..59"
  | .microsecond => "microsecond must be in 0..999999"
  | .offset minutes =>
    "offset must be a timedelta strictly between -timedelta(hours=24) and " ++
      "timedelta(hours=24), not " ++ spanText minutes ++ "."

/-- What is wrong with a number, whatever it counts. -/
def MomentError.ofNumber? (n : Int) : Option MomentError :=
  if !fitsBits 64 n then some .wide
  else if fitsBits 32 n then none
  else some (if n < 0 then .tooSmall else .tooGreat)

/-- What is wrong with an offset in minutes. -/
def MomentError.ofOffset? (minutes : Int) : Option MomentError :=
  let days := minutes / 1440
  if !fitsBits 32 days then some .wideOffset
  else if 999999999 < days.natAbs then some (.longOffset days)
  else if 1440 ≤ minutes.natAbs then some (.offset minutes)
  else none

namespace Moment

/-- Has the year a 29th of February? -/
def isLeap (year : Nat) : Bool := year % 4 == 0 && (year % 100 != 0 || year % 400 == 0)

/-- The number of days of a month. -/
def daysIn (year month : Nat) : Nat :=
  if month = 2 then (if isLeap year then 29 else 28)
  else if month = 4 ∨ month = 6 ∨ month = 9 ∨ month = 11 then 30
  else 31

/-- The moment of year, month, day, hour, minute, second and microsecond; missing numbers are
zero. The offset is checked first, then the size of all numbers, and then their ranges in turn. -/
def ofFields (fields : List Int) (offset : Option Int) : Except MomentError Moment := do
  let field (i : Nat) : Int := (fields[i]?).getD 0
  if let some e := offset.bind MomentError.ofOffset? then throw e
  if let some e := (fields.take 7).findSome? MomentError.ofNumber? then throw e
  let within (i : Nat) (lo hi : Int) (e : MomentError) : Except MomentError Nat :=
    if lo ≤ field i ∧ field i ≤ hi then .ok (field i).toNat else .error e
  let year ← within 0 1 9999 (.year (field 0))
  let month ← within 1 1 12 .month
  let day ← within 2 1 (daysIn year month) .day
  let hour ← within 3 0 23 .hour
  let minute ← within 4 0 59 .minute
  let second ← within 5 0 59 .second
  let microsecond ← within 6 0 999999 .microsecond
  return { year, month, day, hour, minute, second, microsecond, offset }

/-- The last `width` decimal digits of a number. -/
def padded : (width : Nat) → Nat → List Char
  | 0, _ => []
  | width + 1, n => padded width (n / 10) ++ [Nat.digitChar (n % 10)]

/-- The date. -/
def dateText (m : Moment) : List Char :=
  padded 4 m.year ++ '-' :: padded 2 m.month ++ '-' :: padded 2 m.day

/-- The time of day, to the second. -/
def timeText (m : Moment) : List Char :=
  padded 2 m.hour ++ ':' :: padded 2 m.minute ++ ':' :: padded 2 m.second

/-- The distance from universal time; zero is written as a letter. -/
def offsetText (m : Moment) : List Char :=
  match m.offset with
  | none => []
  | some minutes =>
    if minutes = 0 then ['Z']
    else
      let n := minutes.natAbs
      (if minutes < 0 then '-' else '+') :: padded 2 (n / 60) ++ ':' :: padded 2 (n % 60)

/-- The moment as a time stamp; what is below a millisecond is cut off. -/
def stamp (m : Moment) : String :=
  String.ofList (m.dateText ++ 'T' :: m.timeText ++ '.' :: padded 3 (m.microsecond / 1000) ++
    m.offsetText)

/-- The moment as a date and a time of day. -/
def plain (m : Moment) : String := String.ofList (m.dateText ++ ' ' :: m.timeText)

end Moment

end StyleTokens
