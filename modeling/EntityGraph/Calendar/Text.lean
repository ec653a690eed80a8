import EntityGraph.Calendar.Timestamp
import EntityGraph.Text.Blank

/-!
# Texts of timestamps

A timestamp is written as year, month and day joined by hyphens, a space, and hour, minute and
second joined by colons. Reading is more lenient: numbers may lack leading zeros or follow blanks,
the space may be any run of blanks, and a bare date stands for its midnight.
-/

namespace EntityGraph

/-- A number with at least `width` digits. -/
def paddedDigits (width n : Nat) : List Char :=
  let ds := Nat.toDigits 10 n
  List.replicate (width - ds.length) '0' ++ ds

/-- A year: four digits up to 9999, a sign and at least four digits for the others. -/
def yearText (year : Int) : List Char :=
  if 0 ≤ year ∧ year ≤ 9999 then paddedDigits 4 year.toNat
  else (if year < 0 then '-' else '+') :: paddedDigits 4 year.natAbs

/-- The written form of a day. -/
def Date.chars (d : Date) : List Char :=
  yearText d.year ++ '-' :: paddedDigits 2 d.month ++ '-' :: paddedDigits 2 d.day

/-- The written form of a time of day. -/
def TimeOfDay.chars (t : TimeOfDay) : List Char :=
  paddedDigits 2 t.hour ++ ':' :: paddedDigits 2 t.minute ++ ':' :: paddedDigits 2 t.second

/-- The written form of a timestamp. -/
def Timestamp.chars (t : Timestamp) : List Char :=
  t.date.chars ++ ' ' :: t.time.chars

/-- The text of a timestamp. -/
def Timestamp.text (t : Timestamp) : String :=
  String.ofList t.chars

namespace Calendar

/-- The value of a digit list in base ten. -/
def number (ds : List Char) : Nat :=
  ds.foldl (fun n c => 10 * n + (c.toNat - '0'.toNat)) 0

/-- Read one or more of the digits at the start, at most `limit` of them if there is a limit. -/
def readDigits (limit : Option Nat) (s : List Char) : Option (Nat × List Char) :=
  let run := s.takeWhile Char.isDigit
  let ds := match limit with
    | some n => run.take n
    | none => run
  if ds.isEmpty then none else some (number ds, s.drop ds.length)

/-- Read an unsigned number of at most two digits, after any blanks. -/
def readTwo (s : List Char) : Option (Nat × List Char) :=
  readDigits (some 2) (Text.trimStart s)

/-- Read a year after any blanks: up to four digits, or a sign and any number of digits. -/
def readYear (s : List Char) : Option (Int × List Char) :=
  match Text.trimStart s with
  | '-' :: rest => (readDigits none rest).map fun (n, rest) => (-(n : Int), rest)
  | '+' :: rest => (readDigits none rest).map fun (n, rest) => ((n : Int), rest)
  | s => (readDigits (some 4) s).map fun (n, rest) => ((n : Int), rest)

/-- Read the character `c`. -/
def readChar (c : Char) : List Char → Option (List Char)
  | [] => none
  | d :: rest => if d = c then some rest else none

/-- Read a day. -/
def readDate (s : List Char) : Option (Date × List Char) := do
  let (year, s) ← readYear s
  let s ← readChar '-' s
  let (month, s) ← readTwo s
  let s ← readChar '-' s
  let (day, s) ← readTwo s
  let date ← Date.of? year month day
  return (date, s)

/-- Read a time of day. -/
def readTime (s : List Char) : Option (TimeOfDay × List Char) := do
  let (hour, s) ← readTwo s
  let s ← readChar ':' s
  let (minute, s) ← readTwo s
  let s ← readChar ':' s
  let (second, s) ← readTwo s
  let time ← TimeOfDay.of? hour minute second
  return (time, s)

/-- Read a day and a time of day, which end the text. -/
def readTimestamp (s : List Char) : Option Timestamp := do
  let (date, s) ← readDate s
  let (time, s) ← readTime (Text.trimStart s)
  if s.isEmpty then return ⟨date, time⟩ else none

/-- Read a day, which ends the text, as its midnight. -/
def readMidnight (s : List Char) : Option Timestamp := do
  let (date, s) ← readDate s
  if s.isEmpty then return ⟨date, .midnight⟩ else none

end Calendar

/-- Read a full timestamp or a bare date. -/
def Timestamp.parse? (s : String) : Option Timestamp :=
  (Calendar.readTimestamp s.toList).or (Calendar.readMidnight s.toList)

end EntityGraph
