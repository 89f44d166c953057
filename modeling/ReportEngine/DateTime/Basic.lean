/-! Calendar dates with a wall-clock time and no time zone. -/

namespace ReportEngine

namespace DateTime

def isLeapYear (year : Int) : Bool := year % 4 == 0 && (year % 100 != 0 || year % 400 == 0)

def daysInMonth (year : Int) (month : Nat) : Nat :=
  if month = 2 then (if isLeapYear year then 29 else 28)
  else if month = 4 ∨ month = 6 ∨ month = 9 ∨ month = 11 then 30
  else 31

def nanosPerSecond : Nat := 1000000000

/-- A date of the Gregorian calendar, extended to every year in range, and a time of day. A leap second
goes on counting the nanoseconds of the second before it, and any second may have one. -/
def isValid (year : Int) (month day hour minute second nanosecond : Nat) : Bool :=
  -262143 ≤ year && year ≤ 262142 && 1 ≤ month && month ≤ 12 && 1 ≤ day &&
    day ≤ daysInMonth year month && hour < 24 && minute < 60 && second < 60 && nanosecond < 2 * nanosPerSecond

end DateTime

structure DateTime where
  year : Int
  month : Nat
  day : Nat
  hour : Nat
  minute : Nat
  second : Nat
  nanosecond : Nat
  valid : DateTime.isValid year month day hour minute second nanosecond = true
deriving DecidableEq

namespace DateTime

def of? (year : Int) (month day hour minute second nanosecond : Nat) : Option DateTime :=
  if valid : isValid year month day hour minute second nanosecond = true then
    some ⟨year, month, day, hour, minute, second, nanosecond, valid⟩
  else none

/-- The date-time that a clock shows. Its second 60 is a leap second, for which it counts on from 59; it
shows no leap second elsewhere. -/
def ofClock? (year : Int) (month day hour minute second nanosecond : Nat) : Option DateTime :=
  if nanosPerSecond ≤ nanosecond then none
  else if second = 60 then of? year month day hour minute 59 (nanosPerSecond + nanosecond)
  else of? year month day hour minute second nanosecond

def first : DateTime := ⟨1, 1, 1, 0, 0, 0, 0, by decide⟩

instance : Inhabited DateTime := ⟨first⟩

def ordinal (t : DateTime) : Int :=
  (((((t.year * 13 + t.month) * 32 + t.day) * 24 + t.hour) * 60 + t.minute) * 60 + t.second) * (2 * nanosPerSecond : Nat) +
    t.nanosecond

def compare (left right : DateTime) : Ordering := Ord.compare left.ordinal right.ordinal

end DateTime

end ReportEngine
