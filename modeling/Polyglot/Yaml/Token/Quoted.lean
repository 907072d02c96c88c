/-
Scalars in quotes.

A reader of one character at a time.  Blanks are held back until it is known whether a line ends
after them; a single line break becomes a space, further ones stand for themselves.
-/
import Polyglot.Yaml.Character
import Polyglot.Yaml.Fault

namespace Polyglot
namespace Yaml

/-- What has been read since the last character of the text proper: blanks on one line, or line
breaks, of which a first one that is a line feed is folded.  The latest stands first. -/
inductive Gap where
  | none
  | blanks (spaces : List Char)
  | lines (first : Char) (more : List Char)
  | joined (more : List Char)

namespace Gap

/-- The text that a gap stands for, latest character first. -/
def text : Gap → List Char
  | none => []
  | blanks spaces => spaces
  | lines first more =>
      if first ≠ '\n' then more ++ [first] else if more.isEmpty then [' '] else more
  | joined more => more

def addSpace (c : Char) : Gap → Gap
  | none => blanks [c]
  | blanks spaces => blanks (c :: spaces)
  | gap => gap

def addBreak (c : Char) : Gap → Gap
  | none => lines (foldBreak c) []
  | blanks _ => lines (foldBreak c) []
  | lines first more => lines first (foldBreak c :: more)
  | joined more => joined (foldBreak c :: more)

end Gap

namespace Quoted

inductive Mode where
  | text (gap : Gap)
  /-- after a single quote inside single quotes -/
  | quote
  /-- after a backslash inside double quotes -/
  | escape
  /-- inside a code of hexadecimal digits -/
  | code (left value : Nat)

def named? : Char → Option Char
  | '0' => some '\x00'
  | 'a' => some '\x07'
  | 'b' => some '\x08'
  | 't' => some '\t'
  | '\t' => some '\t'
  | 'n' => some '\n'
  | 'v' => some '\x0b'
  | 'f' => some '\x0c'
  | 'r' => some '\r'
  | 'e' => some '\x1b'
  | ' ' => some ' '
  | '"' => some '"'
  | '\\' => some '\\'
  | '/' => some '/'
  | 'N' => some '\x85'
  | '_' => some '\xa0'
  | 'L' => some '\u2028'
  | 'P' => some '\u2029'
  | _ => none

def codeLength? : Char → Option Nat
  | 'x' => some 2
  | 'u' => some 4
  | 'U' => some 8
  | _ => none

/-- The character with a given code.  A code that only halves a character has no text of its own
and is replaced. -/
def ofCode (n : Nat) : Except Fault Char :=
  if 0x7FFFFFFF < n then .error .characterTooLarge
  else if 0x10FFFF < n then .error .noSuchCharacter
  else if 0xD800 ≤ n && n < 0xE000 then .ok '\uFFFD'
  else .ok (Char.ofNat n)

/-- Reads the text after an opening quote up to the closing one.  `read` holds what was read, latest
first; the result is the text and what follows the closing quote. -/
def scan (double : Bool) (mode : Mode) (read : List Char) :
    List Char → Except Fault (String × List Char)
  | [] =>
      match mode with
      | .quote => .ok (String.ofList read.reverse, [])
      | _ => .error .malformed
  | c :: rest =>
      match mode with
      | .quote =>
          if c = '\x27' then scan double (.text .none) (c :: read) rest
          else .ok (String.ofList read.reverse, c :: rest)
      | .escape =>
          match named? c, codeLength? c with
          | some named, _ => scan double (.text .none) (named :: read) rest
          | none, some length => scan double (.code length 0) read rest
          | none, none =>
              if isBreak c && !atDivider rest then scan double (.text (.joined [])) read rest
              else .error .malformed
      | .code left value =>
          match hexValue? c with
          | none => .error .malformed
          | some digit =>
              if left ≤ 1 then
                match ofCode (value * 16 + digit) with
                | .ok char => scan double (.text .none) (char :: read) rest
                | .error fault => .error fault
              else scan double (.code (left - 1) (value * 16 + digit)) read rest
      | .text gap =>
          if isSpace c then scan double (.text (gap.addSpace c)) read rest
          else if isBreak c then
            if atDivider rest then .error .malformed
            else scan double (.text (gap.addBreak c)) read rest
          else if double then
            if c = '"' then .ok (String.ofList (gap.text ++ read).reverse, rest)
            else if c = '\\' then scan double .escape (gap.text ++ read) rest
            else scan double (.text .none) (c :: (gap.text ++ read)) rest
          else if c = '\x27' then scan double .quote (gap.text ++ read) rest
          else scan double (.text .none) (c :: (gap.text ++ read)) rest

end Quoted
end Yaml
end Polyglot
