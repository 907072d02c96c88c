/-
The text of a floating-point value: the fewest digits that read back to it.
-/
import Polyglot.Number.Binary64

namespace Polyglot

structure Decimal where
  digits : Nat
  scale : Int
deriving DecidableEq, Repr

namespace Decimal

open Binary64 (pow2 pow10)

def readsBack (d : Decimal) (mantissa : Nat) (exponent : Int) : Bool :=
  Binary64.ofDecimal false d.digits d.scale == .finite false mantissa exponent

/-- The least `k` such that `num / den < 10 ^ k`, for a positive quotient. -/
def magnitude (num den : Nat) : Int :=
  if den ≤ num then (Nat.toDigits 10 (num / den)).length
  else
    match (List.range 400).find? fun j => decide (den ≤ num * pow10 (j + 1)) with
    | some j => -(j : Int)
    | none => 0

/-- The neighbour of `num / den` on the grid `10 ^ scale` that reads back; of two the nearer, of two
equally near the even one. -/
def onGrid? (num den mantissa : Nat) (exponent scale : Int) : Option Decimal :=
  let n := num * pow10 (-scale).toNat
  let d := den * pow10 scale.toNat
  let nearest := Binary64.roundDiv n d
  let other := if nearest = n / d then n / d + 1 else n / d
  [{ digits := nearest, scale }, { digits := other, scale }].find? (readsBack · mantissa exponent)

/-- Of the decimals that read back, one with the fewest digits, and among those the nearest. -/
def shortest (mantissa : Nat) (exponent : Int) : Decimal :=
  let num := mantissa * pow2 exponent.toNat
  let den := pow2 (-exponent).toNat
  let k := magnitude num den
  match (List.range 17).findSome? fun (n : Nat) => onGrid? num den mantissa exponent (k - (n + 1)) with
  | some d => d
  | none => { digits := num * Nat.pow 5 (-exponent).toNat, scale := min exponent 0 }

def significant (d : Decimal) : List Char :=
  ((Nat.toDigits 10 d.digits).reverse.dropWhile (· = '0')).reverse

/-- Positional from 10^-4 to below 10^16, always with a point; otherwise with an exponent that has a
sign and at least two digits. -/
def layout (d : Decimal) : String :=
  let digits := d.significant
  let top : Int := (Nat.toDigits 10 d.digits).length + d.scale - 1
  let zeros (n : Int) : List Char := List.replicate n.toNat '0'
  if -4 ≤ top && top < 16 then
    if top < 0 then String.ofList ('0' :: '.' :: zeros (-top - 1) ++ digits)
    else
      let whole := digits.take (top.toNat + 1) ++ zeros (top + 1 - digits.length)
      let part := digits.drop (top.toNat + 1)
      String.ofList (whole ++ '.' :: (if part.isEmpty then ['0'] else part))
  else
    let exponent := Nat.toDigits 10 top.natAbs
    String.ofList
      (digits.take 1 ++ (if digits.length > 1 then '.' :: digits.drop 1 else []) ++
        'e' :: (if top < 0 then '-' else '+') :: zeros (2 - exponent.length) ++ exponent)

end Decimal

namespace Binary64

def text : Binary64 → String
  | nan => "nan"
  | infinite negative => if negative then "-inf" else "inf"
  | finite negative mantissa exponent =>
      let sign := if negative then "-" else ""
      if mantissa = 0 then sign ++ "0.0"
      else sign ++ (Decimal.shortest mantissa exponent).layout

end Binary64
end Polyglot
