/-!
# Dates and times

Days of the Gregorian calendar from year 1 to year 9999, and moments on them, which may know by how
many minutes their clock differs from universal time.
-/

namespace Chip8.Document

structure Date where
  year : Nat
  month : Nat
  day : Nat
deriving DecidableEq, Repr

structure Moment where
  date : Date
  hour : Nat
  minute : Nat
  second : Nat
  /-- Millionths of a second. -/
  micro : Nat
  /-- The distance from universal time in minutes. -/
  offset : Option Int
deriving DecidableEq, Repr

/-- What a date or a time cannot be. -/
inductive Calendar.Error where
  | year (n : Nat)
  | month
  | day
  | hour
  | minute
  | second
  /-- A clock a whole day or more away from universal time. -/
  | offset (minutes : Int)
deriving DecidableEq, Repr

namespace Date

/-- How many days the years before a year have. -/
def daysBefore (year : Nat) : Nat :=
  let n := year - 1
  365 * n + n / 4 - n / 100 + n / 400

def isLeap (year : Nat) : Bool :=
  year % 4 = 0 && (year % 100 ≠ 0 || year % 400 = 0)

def daysIn (year month : Nat) : Nat :=
  if month = 2 then (if isLeap year then 29 else 28)
  else if month ∈ [4, 6, 9, 11] then 30
  else 31

/-- The number of a day, counted from the first of all. -/
def number (d : Date) : Nat :=
  daysBefore d.year + ((List.range (d.month - 1)).map fun m => daysIn d.year (m + 1)).foldl (· + ·) 0 + d.day

def check (d : Date) : Except Calendar.Error Date :=
  if d.year = 0 ∨ 9999 < d.year then .error (.year d.year)
  else if d.month = 0 ∨ 12 < d.month then .error .month
  else if d.day = 0 ∨ daysIn d.year d.month < d.day then .error .day
  else .ok d

end Date

def Moment.check (m : Moment) : Except Calendar.Error Moment := do
  let minutes := m.offset.getD 0
  if 24 * 60 ≤ minutes ∨ minutes ≤ -(24 * 60) then throw (.offset minutes)
  let _ ← m.date.check
  if 23 < m.hour then throw .hour
  if 59 < m.minute then throw .minute
  if 59 < m.second then throw .second
  return m

/-- A moment in millionths of a second of universal time. There is no answer where the distance from
it is not known. -/
def Moment.instant? (m : Moment) : Option Int :=
  m.offset.map fun offset =>
    (((m.date.number * 24 + m.hour) * 60 + m.minute - offset) * 60 + m.second) * 1000000 + m.micro

/-- Two clocks show the same moment, wherever they stand. -/
def Moment.same (m n : Moment) : Bool :=
  match m.instant?, n.instant? with
  | some a, some b => a = b
  | none, none => m = n
  | _, _ => false

/-- A number filled with zeros to a width. -/
def filled (width n : Nat) : String :=
  let s := toString n
  String.ofList (List.replicate (width - s.length) '0') ++ s

def Date.text (d : Date) : String :=
  filled 4 d.year ++ "-" ++ filled 2 d.month ++ "-" ++ filled 2 d.day

def Date.quoted (d : Date) : String :=
  "datetime.date(" ++ toString d.year ++ ", " ++ toString d.month ++ ", " ++ toString d.day ++ ")"

/-- A time span as whole days and the seconds left over, as it is shown where it is quoted. -/
def spanText (minutes : Int) : String :=
  let days := minutes / (24 * 60)
  let seconds := minutes % (24 * 60) * 60
  let parts :=
    (if days = 0 then [] else ["days=" ++ toString days]) ++
      (if seconds = 0 then [] else ["seconds=" ++ toString seconds])
  "datetime.timedelta(" ++ (if parts.isEmpty then "0" else ", ".intercalate parts) ++ ")"

namespace Moment

def offsetText (minutes : Int) : String :=
  (if minutes < 0 then "-" else "+") ++ filled 2 (minutes.natAbs / 60) ++ ":" ++
    filled 2 (minutes.natAbs % 60)

def text (m : Moment) : String :=
  m.date.text ++ " " ++ filled 2 m.hour ++ ":" ++ filled 2 m.minute ++ ":" ++ filled 2 m.second ++
    (if m.micro = 0 then "" else "." ++ filled 6 m.micro) ++
    (m.offset.map offsetText).getD ""

def quoted (m : Moment) : String :=
  let numbers :=
    [m.date.year, m.date.month, m.date.day, m.hour, m.minute] ++
      (if m.micro ≠ 0 then [m.second, m.micro] else if m.second ≠ 0 then [m.second] else [])
  let zone := match m.offset with
    | none => ""
    | some 0 => ", tzinfo=datetime.timezone.utc"
    | some minutes => ", tzinfo=datetime.timezone(" ++ spanText minutes ++ ")"
  "datetime.datetime(" ++ ", ".intercalate (numbers.map toString) ++ zone ++ ")"

end Moment

def Calendar.Error.message : Calendar.Error → String
  | year n => "year " ++ toString n ++ " is out of range"
  | month => "month must be in 1..12"
  | day => "day is out of range for month"
  | hour => "hour must be in 0..23"
  | minute => "minute must be in 0..59"
  | second => "second must be in 0..59"
  | offset minutes =>
    "offset must be a timedelta strictly between -timedelta(hours=24) and " ++
      "timedelta(hours=24), not " ++ spanText minutes ++ "."

end Chip8.Document
