/-
Binary floating point with 53 significant bits.

Every operation is the exact result, rounded once: to the nearest value, a half to the even one.
-/

namespace Polyglot

/-- A finite value is `mantissa * 2 ^ exponent` with a sign.  Its exponent is the least that leaves
room for 53 bits, and never below -1074, so equal values of one sign have one form. -/
inductive Binary64 where
  | finite (negative : Bool) (mantissa : Nat) (exponent : Int)
  | infinite (negative : Bool)
  | nan
deriving DecidableEq, Repr

namespace Binary64

def pow2 (n : Nat) : Nat := Nat.pow 2 n

def pow10 (n : Nat) : Nat := Nat.pow 10 n

/-- The quotient of two naturals to the nearest natural, a half to the even one. -/
def roundDiv (num den : Nat) : Nat :=
  let floor := num / den
  let twice := 2 * (num % den)
  if twice < den || (twice == den && floor % 2 == 0) then floor else floor + 1

def round (negative : Bool) (num den : Nat) : Binary64 :=
  if num = 0 then .finite negative 0 (-1074)
  else
    let scaled (e : Int) : Nat × Nat := (num * pow2 (-e).toNat, den * pow2 e.toNat)
    let low : Int := max ((num.log2 : Int) - den.log2 - 53) (-1074)
    let e := if (scaled low).1 / (scaled low).2 < pow2 53 then low else low + 1
    let mantissa := roundDiv (scaled e).1 (scaled e).2
    let (mantissa, e) := if mantissa = pow2 53 then (pow2 52, e + 1) else (mantissa, e)
    if e > 971 then .infinite negative else .finite negative mantissa e

/-- The value nearest to `digits * 10 ^ scale`.  Powers far outside the range are not computed. -/
def ofDecimal (negative : Bool) (digits : Nat) (scale : Int) : Binary64 :=
  let size : Int := (Nat.toDigits 10 digits).length + scale
  if digits = 0 || size < -400 then .finite negative 0 (-1074)
  else if size > 400 then .infinite negative
  else round negative (digits * pow10 scale.toNat) (pow10 (-scale).toNat)

def ofNat (n : Nat) : Binary64 := round false n 1

def toRat? : Binary64 → Option Rat
  | finite negative mantissa exponent =>
      let sign : Int := if negative then -1 else 1
      some (mkRat (sign * (mantissa * pow2 exponent.toNat : Nat)) (pow2 (-exponent).toNat))
  | _ => none

def isNegative : Binary64 → Bool
  | finite negative _ _ => negative
  | infinite negative => negative
  | nan => false

def isZero : Binary64 → Bool
  | finite _ mantissa _ => mantissa == 0
  | _ => false

def neg : Binary64 → Binary64
  | finite negative mantissa exponent => finite (!negative) mantissa exponent
  | infinite negative => infinite (!negative)
  | nan => nan

/-- A sum of zero is negative only if both terms are. -/
def add (x y : Binary64) : Binary64 :=
  match x, y with
  | nan, _ => nan
  | _, nan => nan
  | infinite s, infinite t => if s = t then infinite s else nan
  | infinite s, _ => infinite s
  | _, infinite s => infinite s
  | _, _ =>
      let sum := x.toRat?.getD 0 + y.toRat?.getD 0
      let negative := if sum.num = 0 then x.isNegative && y.isNegative else decide (sum.num < 0)
      round negative sum.num.natAbs sum.den

def mul (x y : Binary64) : Binary64 :=
  let negative := x.isNegative != y.isNegative
  match x, y with
  | nan, _ => nan
  | _, nan => nan
  | infinite _, _ => if y.isZero then nan else infinite negative
  | _, infinite _ => if x.isZero then nan else infinite negative
  | _, _ =>
      let product := x.toRat?.getD 0 * y.toRat?.getD 0
      round negative product.num.natAbs product.den

end Binary64
end Polyglot
