/-
Texts between quotes, with escapes for what cannot be shown.
-/
import Polyglot.Text.Printable

namespace Polyglot
namespace Text

def hexDigits (upper : Bool) (width n : Nat) : String :=
  let digits := (Nat.toDigits 16 n).map fun d => if upper then d.toUpper else d
  String.ofList (List.replicate (width - digits.length) '0' ++ digits)

namespace Quoted

/-- The quote is single, unless the text holds a single quote and no double one. -/
def quoteFor (s : List Char) : Char :=
  if s.contains '\x27' && !s.contains '"' then '"' else '\x27'

def escape (quote c : Char) : String :=
  if c = quote || c = '\\' then String.ofList ['\\', c]
  else if c = '\n' then "\\n"
  else if c = '\r' then "\\r"
  else if c = '\t' then "\\t"
  else if isPrintable c then String.singleton c
  else if c.toNat ≤ 0xFF then "\\x" ++ hexDigits false 2 c.toNat
  else if c.toNat ≤ 0xFFFF then "\\u" ++ hexDigits false 4 c.toNat
  else "\\U" ++ hexDigits false 8 c.toNat

end Quoted

def quoted (s : String) : String :=
  let quote := Quoted.quoteFor s.toList
  String.singleton quote ++ String.join (s.toList.map (Quoted.escape quote)) ++
    String.singleton quote

def quotedBytes (bytes : List UInt8) : String :=
  let chars := bytes.map fun b => Char.ofNat b.toNat
  let quote := Quoted.quoteFor chars
  let escape (c : Char) : String :=
    if c.toNat < 0x80 then Quoted.escape quote c else "\\x" ++ hexDigits false 2 c.toNat
  "b" ++ String.singleton quote ++ String.join (chars.map escape) ++ String.singleton quote

end Text
end Polyglot
