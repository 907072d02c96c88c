/-
Numbers read from text.
-/
import Polyglot.Number.Binary64
import Polyglot.Text.Blank
import Polyglot.Text.DecimalDigit
import Polyglot.Text.Lowercase

namespace Polyglot
namespace Numeral

/-- The value of a digit: decimal digits of any script, then the letters from a to z. -/
def digit? (c : Char) : Option Nat :=
  match Text.decimalDigit? c with
  | some n => some n
  | none =>
      let n := c.toLower.toNat
      if c.toNat < 0x80 && decide (0x61 ≤ n) && decide (n ≤ 0x7A) then some (n - 0x61 + 10) else none

def natural? (base : Nat) (s : List Char) : Option Nat :=
  if s.isEmpty then none
  else
    s.foldl (fun acc c =>
      match acc, digit? c with
      | some n, some d => if d < base then some (n * base + d) else none
      | _, _ => none) (some 0)

def signed : List Char → Bool × List Char
  | '-' :: rest => (true, rest)
  | '+' :: rest => (false, rest)
  | s => (false, s)

def mark? : Nat → Option Char
  | 2 => some 'b'
  | 8 => some 'o'
  | 16 => some 'x'
  | _ => none

def dropMark (base : Nat) : List Char → List Char
  | '0' :: c :: rest => if mark? base = some c.toLower then rest else '0' :: c :: rest
  | s => s

/-- The longest decimal numeral that is read. -/
def maxDecimalDigits : Nat := 4300

/-- An integer with an optional sign and, for base 2, 8 and 16, an optional mark of the base.
Blanks around it do not matter. -/
def integer? (base : Nat) (s : List Char) : Option Int :=
  let (negative, body) := signed (Text.trim Text.isBlank s)
  let digits := dropMark base body
  if base = 10 && decide (maxDecimalDigits < digits.length) then none
  else (natural? base digits).map fun n => if negative then -(n : Int) else n

def isDecimal (c : Char) : Bool := (Text.decimalDigit? c).isSome

/-- An exponent: nothing, or the letter e, an optional sign and digits. -/
def exponent? : List Char → Option Int
  | [] => some 0
  | c :: rest =>
      if c = 'e' || c = 'E' then
        let (negative, digits) := signed rest
        (natural? 10 digits).map fun n => if negative then -(n : Int) else n
      else none

/-- A floating-point number: a word for infinity or not-a-number, or digits with an optional point
and exponent.  Blanks around it do not matter. -/
def float? (s : List Char) : Option Binary64 :=
  let (negative, body) := signed (Text.trim Text.isBlank s)
  let word := body.map Char.toLower
  if word = "inf".toList || word = "infinity".toList then some (.infinite negative)
  else if word = "nan".toList then some .nan
  else
    let whole := body.takeWhile isDecimal
    let rest := body.dropWhile isDecimal
    let (part, rest) :=
      match rest with
      | '.' :: rest => (rest.takeWhile isDecimal, rest.dropWhile isDecimal)
      | _ => ([], rest)
    match natural? 10 (whole ++ part), exponent? rest with
    | some digits, some e => some (.ofDecimal negative digits (e - part.length))
    | _, _ => none

end Numeral
end Polyglot
