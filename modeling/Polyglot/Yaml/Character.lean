/-
Character classes of YAML text.
-/

namespace Polyglot
namespace Yaml

def isAllowed (c : Char) : Bool :=
  c = '\t' || c = '\n' || c = '\r' || c = '\x85' || (' ' ≤ c && c ≤ '~') ||
    (decide (0xA0 ≤ c.toNat) && decide (c.toNat ≤ 0xFFFD)) || decide (0x10000 ≤ c.toNat)

def isBreak (c : Char) : Bool := c = '\n' || c = '\x85' || c = '\u2028' || c = '\u2029'

/-- A line break in a scalar: the first two are one and the same. -/
def foldBreak (c : Char) : Char := if c = '\x85' then '\n' else c

def isSpace (c : Char) : Bool := c = ' ' || c = '\t'

def isGap (c : Char) : Bool := isSpace c || isBreak c

/-- Nothing or a character of a class comes next. -/
def endsAt (p : Char → Bool) : List Char → Bool
  | [] => true
  | c :: _ => p c

/-- A line that opens with three dashes or three dots divides documents. -/
def isDivider (mark : Char) (s : List Char) : Bool :=
  match s with
  | a :: b :: c :: rest => a = mark && b = mark && c = mark && endsAt isGap rest
  | _ => false

def atDivider (s : List Char) : Bool := isDivider '-' s || isDivider '.' s

def isWord (c : Char) : Bool := c.isAlphanum || c = '-' || c = '_'

def isTagCharacter (c : Char) : Bool := c.isAlphanum || "-;/?:@&=+$,_.!~*'()[]".toList.contains c

def hexValue? (c : Char) : Option Nat :=
  if c.isDigit then some (c.toNat - '0'.toNat)
  else if 'a' ≤ c && c ≤ 'f' then some (c.toNat - 'a'.toNat + 10)
  else if 'A' ≤ c && c ≤ 'F' then some (c.toNat - 'A'.toNat + 10)
  else none

/-- Every way to end a line becomes one line feed. -/
def unifyBreaks : List Char → List Char
  | [] => []
  | '\r' :: '\n' :: rest => '\n' :: unifyBreaks rest
  | c :: rest => (if c = '\r' then '\n' else c) :: unifyBreaks rest

end Yaml
end Polyglot
