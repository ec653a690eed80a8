/-!
# Timestamps

Points in time to the second, without a time zone. Years run over the range of a proleptic
calendar, and a minute may end with a leap second.
-/

namespace EntityGraph

/-- Whether a year has a 29th of February. -/
def isLeapYear (year : Int) : Bool :=
  year % 4 == 0 && (year % 100 != 0 || year % 400 == 0)

/-- The number of days of a month. -/
def daysInMonth (year : Int) (month : Nat) : Nat :=
  if month = 2 then (if isLeapYear year then 29 else 28)
  else if month = 4 ∨ month = 6 ∨ month = 9 ∨ month = 11 then 30
  else 31

/-- The years that a timestamp can have. -/
def IsYear (year : Int) : Prop :=
  -262143 ≤ year ∧ year ≤ 262142

instance (year : Int) : Decidable (IsYear year) :=
  inferInstanceAs (Decidable (_ ∧ _))

/-- A day of the calendar. -/
structure Date where
  year : Int
  month : Nat
  day : Nat
  isYear : IsYear year
  isMonth : 1 ≤ month ∧ month ≤ 12
  isDay : 1 ≤ day ∧ day ≤ daysInMonth year month
  deriving DecidableEq

/-- A time of day; the second 60 is a leap second. -/
structure TimeOfDay where
  hour : Nat
  minute : Nat
  second : Nat
  isHour : hour ≤ 23
  isMinute : minute ≤ 59
  isSecond : second ≤ 60
  deriving DecidableEq

/-- A day and a time of that day. -/
structure Timestamp where
  date : Date
  time : TimeOfDay
  deriving DecidableEq

/-- The day with the given number of year, month and day, if the calendar has it. -/
def Date.of? (year : Int) (month day : Nat) : Option Date :=
  if h : IsYear year ∧ (1 ≤ month ∧ month ≤ 12) ∧ 1 ≤ day ∧ day ≤ daysInMonth year month then
    some ⟨year, month, day, h.1, h.2.1, h.2.2⟩
  else none

/-- The time with the given hour, minute and second, if a day has it. -/
def TimeOfDay.of? (hour minute second : Nat) : Option TimeOfDay :=
  if h : hour ≤ 23 ∧ minute ≤ 59 ∧ second ≤ 60 then
    some ⟨hour, minute, second, h.1, h.2.1, h.2.2⟩
  else none

/-- The first second of a day. -/
def TimeOfDay.midnight : TimeOfDay :=
  ⟨0, 0, 0, by decide, by decide, by decide⟩

/-- Days by year, then month, then day. -/
def Date.compare (a b : Date) : Ordering :=
  (Ord.compare a.year b.year).then <| (Ord.compare a.month b.month).then (Ord.compare a.day b.day)

/-- Times by hour, then minute, then second. -/
def TimeOfDay.compare (a b : TimeOfDay) : Ordering :=
  (Ord.compare a.hour b.hour).then <|
    (Ord.compare a.minute b.minute).then (Ord.compare a.second b.second)

/-- Timestamps in the order of time. -/
def Timestamp.compare (a b : Timestamp) : Ordering :=
  (a.date.compare b.date).then (a.time.compare b.time)

end EntityGraph
