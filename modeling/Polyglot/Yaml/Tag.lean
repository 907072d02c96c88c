/-
Tags, and the tags that plain scalars have by their form.
-/
import Polyglot.Text.Split
import Polyglot.Yaml.Timestamp

namespace Polyglot
namespace Yaml

inductive Tag where
  | null
  | bool
  | int
  | float
  | binary
  | timestamp
  | omap
  | pairs
  | set
  | str
  | seq
  | map
  | merge
  | value
  | other
deriving DecidableEq, Repr

namespace Tag

def standard : String := "tag:yaml.org,2002:"

def named : List (String × Tag) :=
  [("null", null), ("bool", bool), ("int", int), ("float", float), ("binary", binary),
   ("timestamp", timestamp), ("omap", omap), ("pairs", pairs), ("set", set), ("str", str),
   ("seq", seq), ("map", map), ("merge", merge), ("value", value)]

def ofUri (uri : String) : Tag :=
  ((named.find? fun (name, _) => standard ++ name == uri).map Prod.snd).getD other

/-! ## Forms of plain scalars -/

def dropSign : List Char → List Char
  | '-' :: rest => rest
  | '+' :: rest => rest
  | s => s

def isDigitOrLine (c : Char) : Bool := c.isDigit || c = '_'

/-- A digit, then digits and underscores. -/
def isDigits : List Char → Bool
  | [] => false
  | c :: rest => c.isDigit && rest.all isDigitOrLine

/-- A number below sixty with one or two digits. -/
def isSixtieth : List Char → Bool
  | [c] => c.isDigit
  | [c, d] => '0' ≤ c && c ≤ '5' && d.isDigit
  | _ => false

def isInt (s : List Char) : Bool :=
  match dropSign s with
  | ['0'] => true
  | '0' :: 'b' :: rest => !rest.isEmpty && rest.all fun c => c = '0' || c = '1' || c = '_'
  | '0' :: 'x' :: rest =>
      !rest.isEmpty &&
        rest.all fun c => c.isDigit || ('a' ≤ c && c ≤ 'f') || ('A' ≤ c && c ≤ 'F') || c = '_'
  | '0' :: rest => rest.all fun c => ('0' ≤ c && c ≤ '7') || c = '_'
  | body =>
      match Text.split ':' body with
      | first :: rest => isDigits first && rest.all isSixtieth
      | [] => false

def isExponent : List Char → Bool
  | [] => true
  | e :: sign :: digits =>
      (e = 'e' || e = 'E') && (sign = '-' || sign = '+') && !digits.isEmpty &&
        digits.all Char.isDigit
  | _ => false

def isFraction (s : List Char) : Bool := isExponent (s.dropWhile isDigitOrLine)

def isFloat (s : List Char) : Bool :=
  let before := s.takeWhile (· ≠ '.')
  match s.dropWhile (· ≠ '.') with
  | [] => false
  | _ :: after =>
      let body := dropSign before
      match Text.split ':' body with
      | [whole] =>
          if whole.isEmpty then
            (before.isEmpty && after.head?.any Char.isDigit && isFraction after) ||
              ["inf", "Inf", "INF"].contains (String.ofList after) ||
              (before.isEmpty && ["nan", "NaN", "NAN"].contains (String.ofList after))
          else isDigits whole && isFraction after
      | first :: rest => isDigits first && rest.all isSixtieth && after.all isDigitOrLine
      | [] => false

def truths : List String :=
  ["yes", "Yes", "YES", "no", "No", "NO", "true", "True", "TRUE", "false", "False", "FALSE", "on",
   "On", "ON", "off", "Off", "OFF"]

def voids : List String := ["~", "null", "Null", "NULL", ""]

/-- The tag of a plain scalar by its form; a line feed at its end does not count. -/
def ofPlain (text : String) : Tag :=
  let chars := text.toList
  let body := if chars.length > 1 && chars.getLast? == some '\n' then chars.dropLast else chars
  let form := String.ofList body
  if truths.contains form then bool
  else if isFloat body then float
  else if isInt body then int
  else if form == "<<" then merge
  else if voids.contains form then null
  else if Timestamp.isRecognised body then timestamp
  else if form == "=" then value
  else str

end Tag
end Yaml
end Polyglot
