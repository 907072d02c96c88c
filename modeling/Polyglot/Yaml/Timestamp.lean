/-
Dates and moments as they are written in documents.
-/
import Polyglot.Data.Moment

namespace Polyglot
namespace Yaml

/-- The digits of a time of day and, behind them, of its distance from universal time. -/
structure ClockText where
  hour : List Char
  minute : List Char
  second : List Char
  fraction : List Char
  /-- a sign, hours and minutes; the sign alone is missing for universal time itself -/
  zone : Option (Option Bool × List Char × List Char)

structure Timestamp where
  year : List Char
  month : List Char
  day : List Char
  clock : Option ClockText

namespace Timestamp

def isSpace (c : Char) : Bool := c = ' ' || c = '\t'

/-- Between `least` and `most` digits, as many as there are. -/
def digits? (least most : Nat) (s : List Char) : Option (List Char × List Char) :=
  let digits := (s.take most).takeWhile Char.isDigit
  if least ≤ digits.length then some (digits, s.drop digits.length) else none

def char? (c : Char) : List Char → Option (List Char)
  | d :: rest => if d = c then some rest else none
  | [] => none

def zone? (s : List Char) : Option (Option (Option Bool × List Char × List Char)) :=
  match s.dropWhile isSpace with
  | [] => if s.isEmpty then some none else none
  | ['Z'] => some (some (none, [], []))
  | c :: rest =>
      if c = '-' || c = '+' then do
        let (hours, rest) ← digits? 1 2 rest
        match rest with
        | [] => some (some (some (c = '-'), hours, []))
        | ':' :: rest =>
            match ← digits? 2 2 rest with
            | (minutes, []) => some (some (some (c = '-'), hours, minutes))
            | _ => none
        | _ => none
      else none

def clock? (s : List Char) : Option ClockText := do
  let (hour, s) ← digits? 1 2 s
  let (minute, s) ← digits? 2 2 (← char? ':' s)
  let (second, s) ← digits? 2 2 (← char? ':' s)
  let (fraction, s) := match s with
    | '.' :: s => (s.takeWhile Char.isDigit, s.dropWhile Char.isDigit)
    | _ => ([], s)
  return { hour, minute, second, fraction, zone := ← zone? s }

/-- A year of four digits, a month and a day of one or two, and then possibly a time of day behind a
letter T or blanks. -/
def parse? (s : List Char) : Option Timestamp := do
  let (year, s) ← digits? 4 4 s
  let (month, s) ← digits? 1 2 (← char? '-' s)
  let (day, s) ← digits? 1 2 (← char? '-' s)
  match s with
  | [] => some { year, month, day, clock := none }
  | c :: rest =>
      if c = 'T' || c = 't' then return { year, month, day, clock := some (← clock? rest) }
      else if isSpace c then
        return { year, month, day, clock := some (← clock? (rest.dropWhile isSpace)) }
      else none

/-- A plain scalar is taken for a date only with two digits for month and day. -/
def isRecognised (s : List Char) : Bool :=
  match parse? s with
  | some t => t.clock.isSome || (t.month.length == 2 && t.day.length == 2)
  | none => false

def number (digits : List Char) : Nat :=
  digits.foldl (fun n c => n * 10 + (c.toNat - '0'.toNat)) 0

def date (t : Timestamp) : Date :=
  { year := number t.year, month := number t.month, day := number t.day }

end Timestamp

namespace ClockText

def offset (c : ClockText) : Option Int :=
  c.zone.map fun (sign, hours, minutes) =>
    let distance : Int := Timestamp.number hours * 60 + Timestamp.number minutes
    if sign = some true then -distance else distance

/-- Fractions of a second count up to six digits. -/
def moment (c : ClockText) (date : Date) : Moment :=
  let fraction := c.fraction.take 6
  { date,
    hour := Timestamp.number c.hour,
    minute := Timestamp.number c.minute,
    second := Timestamp.number c.second,
    microsecond := Timestamp.number (fraction ++ List.replicate (6 - fraction.length) '0'),
    offset := c.offset }

end ClockText
end Yaml
end Polyglot
