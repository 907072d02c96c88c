/-
Calendar dates and times of day.
-/

namespace Polyglot

structure Date where
  year : Nat
  month : Nat
  day : Nat
deriving DecidableEq, Repr

namespace Date

def isLeap (year : Nat) : Bool := (year % 4 == 0 && year % 100 != 0) || year % 400 == 0

def monthLengths (year : Nat) : List Nat :=
  [31, if isLeap year then 29 else 28, 31, 30, 31, 30, 31, 31, 30, 31, 30, 31]

def isValid (d : Date) : Bool :=
  decide (1 ≤ d.year) && decide (d.year ≤ 9999) && decide (1 ≤ d.month) && decide (d.month ≤ 12) &&
    decide (1 ≤ d.day) && decide (d.day ≤ (monthLengths d.year).getD (d.month - 1) 0)

/-- Days since the last day before year one. -/
def ordinal (d : Date) : Nat :=
  let past := d.year - 1
  past * 365 + past / 4 - past / 100 + past / 400 + ((monthLengths d.year).take (d.month - 1)).foldl (· + ·) 0 +
    d.day

def padded (width n : Nat) : String :=
  let digits := Nat.toDigits 10 n
  String.ofList (List.replicate (width - digits.length) '0' ++ digits)

def text (d : Date) : String :=
  padded 4 d.year ++ "-" ++ padded 2 d.month ++ "-" ++ padded 2 d.day

def shown (d : Date) : String :=
  "datetime.date(" ++ ", ".intercalate ([d.year, d.month, d.day].map toString) ++ ")"

end Date

/-- A date with a time of day and, where known, its distance from universal time in minutes. -/
structure Moment where
  date : Date
  hour : Nat
  minute : Nat
  second : Nat
  microsecond : Nat
  offset : Option Int
deriving DecidableEq, Repr

namespace Moment

/-- Offsets stay below a day. -/
def isValid (m : Moment) : Bool :=
  m.date.isValid && decide (m.hour < 24) && decide (m.minute < 60) && decide (m.second < 60) &&
    (m.offset.all fun o => decide (o.natAbs < 1440))

/-- Microseconds since the last day before year one, by the clock of the moment's own place. -/
def clock (m : Moment) : Int :=
  (((m.date.ordinal * 24 + m.hour) * 60 + m.minute) * 60 + m.second) * 1000000 + m.microsecond

/-- Two moments with an offset are the same if they are at one instant; without an offset, if the
clock shows the same. -/
def sameness (m : Moment) : Bool × Int :=
  match m.offset with
  | some o => (true, m.clock - o * 60000000)
  | none => (false, m.clock)

def offsetText (offset : Int) : String :=
  (if offset < 0 then "-" else "+") ++ Date.padded 2 (offset.natAbs / 60) ++ ":" ++
    Date.padded 2 (offset.natAbs % 60)

def text (m : Moment) : String :=
  m.date.text ++ " " ++ Date.padded 2 m.hour ++ ":" ++ Date.padded 2 m.minute ++ ":" ++
    Date.padded 2 m.second ++
    (if m.microsecond = 0 then "" else "." ++ Date.padded 6 m.microsecond) ++
    (m.offset.elim "" offsetText)

/-- An offset as it is shown: a number of whole days, rounded down, and the seconds beyond them. -/
def offsetShown (offset : Int) : String :=
  if offset = 0 then "datetime.timezone.utc"
  else
    let days := Int.fdiv offset 1440
    let seconds := Int.fmod offset 1440 * 60
    let parts := (if days = 0 then [] else ["days=" ++ toString days]) ++
      (if seconds = 0 then [] else ["seconds=" ++ toString seconds])
    "datetime.timezone(datetime.timedelta(" ++ ", ".intercalate parts ++ "))"

/-- A moment as it is shown inside a collection: trailing zero seconds are left out. -/
def shown (m : Moment) : String :=
  let small :=
    if m.microsecond ≠ 0 then [m.second, m.microsecond]
    else if m.second ≠ 0 then [m.second] else []
  let fields := [m.date.year, m.date.month, m.date.day, m.hour, m.minute] ++ small
  "datetime.datetime(" ++ ", ".intercalate (fields.map toString) ++
    (m.offset.elim "" fun o => ", tzinfo=" ++ offsetShown o) ++ ")"

end Moment
end Polyglot
