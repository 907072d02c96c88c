/-
Anchors, aliases, tags and directives.
-/
import Polyglot.Number.Numeral
import Polyglot.Yaml.Character
import Polyglot.Yaml.Fault
import Polyglot.Yaml.Token

namespace Polyglot
namespace Yaml
namespace Property

/-- A blank, a line break or nothing comes next. -/
def isClosed (s : List Char) : Bool := endsAt (fun c => c = ' ' || isBreak c) s

def name (s : List Char) : Except Fault (String × List Char) :=
  let word := s.takeWhile isWord
  let rest := s.dropWhile isWord
  if word.isEmpty then .error .malformed
  else if endsAt (fun c => isGap c || "?:,]\x7d%@\x60".toList.contains c) rest then
    .ok (String.ofList word, rest)
  else .error .malformed

/-- Adds bytes, latest first, as UTF-8 text to what was read. -/
def decode (read : List Char) (bytes : List Nat) : Except Fault (List Char) :=
  match String.fromUTF8? ⟨(bytes.reverse.map UInt8.ofNat).toArray⟩ with
  | some s => .ok (s.toList.reverse ++ read)
  | none => .error .malformed

def uriEnd (read : List Char) (bytes : List Nat) (rest : List Char) :
    Except Fault (String × List Char) := do
  let read ← decode read bytes
  if read.isEmpty then .error .malformed else return (String.ofList read.reverse, rest)

/-- Reads the characters of a tag.  Bytes written in hexadecimal are held back until their run
ends. -/
def uri (read : List Char) (bytes : List Nat) : List Char → Except Fault (String × List Char)
  | [] => uriEnd read bytes []
  | '%' :: a :: b :: rest =>
      match hexValue? a, hexValue? b with
      | some high, some low => uri read ((high * 16 + low) :: bytes) rest
      | _, _ => .error .malformed
  | '%' :: _ => .error .malformed
  | c :: rest =>
      if isTagCharacter c then
        match decode read bytes with
        | .ok read => uri (c :: read) [] rest
        | .error fault => .error fault
      else uriEnd read bytes (c :: rest)

/-- A tag's handle: a lone sign before a blank, or a word between two signs. -/
def handle (s : List Char) : Except Fault (String × List Char) :=
  match s with
  | '!' :: ' ' :: rest => .ok ("!", ' ' :: rest)
  | '!' :: rest =>
      match rest.dropWhile isWord with
      | '!' :: after => .ok ("!" ++ String.ofList (rest.takeWhile isWord) ++ "!", after)
      | _ => .error .malformed
  | _ => .error .malformed

/-- The tag behind its sign: in full between angle brackets, the sign alone, or with a handle, which
is the sign alone unless another sign follows in the same word. -/
def tag (s : List Char) : Except Fault (TagText × List Char) := do
  let (tag, rest) ←
    match s with
    | '<' :: rest => do
        match ← uri [] [] rest with
        | (suffix, '>' :: rest) => pure ({ handle := none, suffix : TagText }, rest)
        | _ => .error .malformed
    | _ =>
        if endsAt isGap s then pure ({ handle := none, suffix := "!" : TagText }, s)
        else do
          let word := s.takeWhile fun c => !(c = ' ' || isBreak c)
          let (handle, rest) ← if word.contains '!' then handle ('!' :: s) else pure ("!", s)
          let (suffix, rest) ← uri [] [] rest
          pure ({ handle := some handle, suffix : TagText }, rest)
  if isClosed rest then return (tag, rest) else .error .malformed

def number (s : List Char) : Except Fault (Nat × List Char) :=
  let digits := s.takeWhile Char.isDigit
  if digits.isEmpty then .error .malformed
  else if Numeral.maxDecimalDigits < digits.length then .error .versionTooLong
  else .ok (digits.foldl (fun n c => n * 10 + (c.toNat - '0'.toNat)) 0, s.dropWhile Char.isDigit)

def version (s : List Char) : Except Fault (Directive × List Char) := do
  let (major, rest) ← number (s.dropWhile (· = ' '))
  match rest with
  | '.' :: rest =>
      let (_, rest) ← number rest
      if isClosed rest then return (.version major, rest) else .error .malformed
  | _ => .error .malformed

def tagDirective (s : List Char) : Except Fault (Directive × List Char) := do
  let (handle, rest) ← handle (s.dropWhile (· = ' '))
  match rest with
  | ' ' :: rest =>
      let (start, rest) ← uri [] [] (rest.dropWhile (· = ' '))
      if isClosed rest then return (.tag handle start, rest) else .error .malformed
  | _ => .error .malformed

def directive (s : List Char) : Except Fault (Directive × List Char) := do
  let word := s.takeWhile isWord
  let rest := s.dropWhile isWord
  if word.isEmpty || !isClosed rest then .error .malformed
  else
    let (directive, rest) ←
      if word = "YAML".toList then version rest
      else if word = "TAG".toList then tagDirective rest
      else pure (.reserved, rest.dropWhile fun c => !isBreak c)
    let rest := rest.dropWhile (· = ' ')
    let rest := match rest with
      | '#' :: _ => rest.dropWhile fun c => !isBreak c
      | _ => rest
    match rest with
    | [] => return (directive, [])
    | c :: rest => if isBreak c then return (directive, rest) else .error .malformed

end Property
end Yaml
end Polyglot
