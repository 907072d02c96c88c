/-
Scalars as their tags say they are to be read.
-/
import Polyglot.Data.Scalar
import Polyglot.Number.Numeral
import Polyglot.Text.Base64
import Polyglot.Yaml.Fault
import Polyglot.Yaml.Tag

namespace Polyglot
namespace Yaml

/-- Underscores in numbers are for the eye only. -/
def digitsOf (text : String) : List Char := text.toList.filter (· ≠ '_')

/-- The value of numbers to the base of sixty, highest first. -/
def sixties (parts : List Int) : Int := parts.foldl (fun n part => n * 60 + part) 0

def numberOr {α : Type} (x : Option α) : Except Fault α :=
  match x with
  | some a => .ok a
  | none => .error .notANumber

def magnitude (body : List Char) : Except Fault Int :=
  match body with
  | [] => .error .missingDigits
  | ['0'] => .ok 0
  | '0' :: 'b' :: rest => numberOr (Numeral.integer? 2 rest)
  | '0' :: 'x' :: rest => numberOr (Numeral.integer? 16 rest)
  | '0' :: _ => numberOr (Numeral.integer? 8 body)
  | _ =>
      if body.contains ':' then
        (numberOr ((Text.split ':' body).mapM (Numeral.integer? 10))).map sixties
      else numberOr (Numeral.integer? 10 body)

def toInt (text : String) : Except Fault Int :=
  match digitsOf text with
  | [] => .error .missingDigits
  | s =>
      let (negative, body) := Numeral.signed s
      (magnitude body).map fun n => if negative then -n else n

/-- The sum of parts, lowest first, each worth sixty times the one before it; every product and sum
is rounded. -/
def floatSixties (unit : Nat) (sum : Binary64) : List Binary64 → Except Fault Binary64
  | [] => .ok sum
  | part :: rest =>
      match Binary64.ofNat unit with
      | .finite negative mantissa exponent =>
          floatSixties (unit * 60) (sum.add (part.mul (.finite negative mantissa exponent))) rest
      | _ => .error .numberTooLarge

def toFloat (text : String) : Except Fault Binary64 :=
  match (Text.lowercase (String.ofList (digitsOf text))).toList with
  | [] => .error .missingDigits
  | s => do
      let (negative, body) := Numeral.signed s
      let x ←
        if body = ".inf".toList then pure (.infinite false)
        else if body = ".nan".toList then pure .nan
        else if body.contains ':' then do
          let parts ← numberOr ((Text.split ':' body).mapM Numeral.float?)
          floatSixties 1 (.finite false 0 (-1074)) parts.reverse
        else numberOr (Numeral.float? body)
      return if negative then x.neg else x

def toBool (text : String) : Except Fault Bool :=
  let word := Text.lowercase text
  if ["yes", "true", "on"].contains word then .ok true
  else if ["no", "false", "off"].contains word then .ok false
  else .error .unknownTruth

def toTime (text : String) : Except Fault Scalar :=
  let chars := text.toList
  let body := if chars.getLast? == some '\n' then chars.dropLast else chars
  match Timestamp.parse? body with
  | none => .error .notATimestamp
  | some t =>
      match t.clock with
      | none => if t.date.isValid then .ok (.date t.date) else .error .impossibleTime
      | some clock =>
          let m := clock.moment t.date
          if m.isValid then .ok (.moment m) else .error .impossibleTime

def toBytes (text : String) : Except Fault (List UInt8) :=
  if text.toList.all fun c => decide (c.toNat < 0x80) then
    match Text.Base64.decode? text.toList with
    | some bytes => .ok bytes
    | none => .error .malformed
  else .error .malformed

def toScalar (tag : Tag) (text : String) : Except Fault Scalar :=
  match tag with
  | .null => .ok .null
  | .bool => (toBool text).map .bool
  | .int => (toInt text).map .int
  | .float => (toFloat text).map .float
  | .binary => (toBytes text).map .bytes
  | .timestamp => toTime text
  | .str => .ok (.text text)
  | _ => .error .malformed

end Yaml
end Polyglot
