/-
Literal and folded scalars: blocks of indented lines.
-/
import Polyglot.Yaml.Character
import Polyglot.Yaml.Fault

namespace Polyglot
namespace Yaml
namespace Block

inductive Chomping where
  | strip
  | clip
  | keep
deriving DecidableEq

structure Header where
  chomping : Chomping := .clip
  increment : Option Nat := none

def chomping? : Char → Option Chomping
  | '+' => some .keep
  | '-' => some .strip
  | _ => none

/-- An increment is a digit other than zero. -/
def increment? (c : Char) : Option (Except Fault Nat) :=
  if c = '0' then some (.error .malformed)
  else if c.isDigit then some (.ok (c.toNat - '0'.toNat))
  else none

/-- The two indicators of a header, in either order. -/
def indicators (s : List Char) : Except Fault (Header × List Char) :=
  match s with
  | [] => .ok ({}, [])
  | c :: rest =>
      match chomping? c, increment? c with
      | some chomping, _ =>
          match rest with
          | d :: rest' =>
              match increment? d with
              | some n => do pure ({ chomping, increment := some (← n) }, rest')
              | none => .ok ({ chomping }, rest)
          | [] => .ok ({ chomping }, rest)
      | none, some n => do
          let n ← n
          match rest with
          | d :: rest' =>
              match chomping? d with
              | some chomping => pure ({ chomping, increment := some n }, rest')
              | none => pure ({ increment := some n }, rest)
          | [] => pure ({ increment := some n }, rest)
      | none, none => .ok ({}, s)

/-- The rest of a header's line: blanks and a comment. -/
def headerLine (s : List Char) : Except Fault (List Char) :=
  if !endsAt (fun c => c = ' ' || isBreak c) s then .error .malformed
  else
    let s := s.dropWhile (· = ' ')
    let s := match s with
      | '#' :: _ => s.dropWhile fun c => !isBreak c
      | _ => s
    match s with
    | [] => .ok []
    | c :: rest => if isBreak c then .ok rest else .error .malformed

/-- The empty lines before the first line of text, latest first, and the widest indentation among
them and it. -/
structure Margin where
  breaks : List Char
  column : Nat
  widest : Nat
  rest : List Char

def margin (breaks : List Char) (column widest : Nat) : List Char → Margin
  | [] => { breaks, column, widest, rest := [] }
  | c :: rest =>
      if c = ' ' then margin breaks (column + 1) (max widest (column + 1)) rest
      else if isBreak c then margin (foldBreak c :: breaks) 0 widest rest
      else { breaks, column, widest, rest := c :: rest }

/-- Where the reader of the lines stands: inside a line, or in the margin before the next, with the
break that ended the last line and the empty lines since then, latest first. -/
inductive Mode where
  | line (leads : Bool)
  | margin (column : Nat) (ended : Option Char) (leads : Bool) (breaks : List Char)

/-- What joins two lines, latest character first: in a folded block a single line feed between two
lines that both begin with text becomes a space. -/
def joint (folded : Bool) (ended : Option Char) (leads next : Bool) (breaks : List Char) :
    List Char :=
  match ended with
  | none => breaks
  | some br =>
      if folded && br = '\n' && leads && next then (if breaks.isEmpty then [' '] else breaks)
      else breaks ++ [br]

def finish (chomping : Chomping) (read : List Char) : Mode → String
  | .line _ => String.ofList read.reverse
  | .margin _ ended _ breaks =>
      let ends := if chomping = .strip then [] else ended.toList
      let more := if chomping = .keep then breaks else []
      String.ofList (more ++ ends ++ read).reverse

def lines (folded : Bool) (chomping : Chomping) (indent : Nat) (mode : Mode) (read : List Char) :
    List Char → String × List Char
  | [] => (finish chomping read mode, [])
  | c :: rest =>
      match mode with
      | .line leads =>
          if isBreak c then
            lines folded chomping indent (.margin 0 (some (foldBreak c)) leads []) read rest
          else lines folded chomping indent (.line leads) (c :: read) rest
      | .margin column ended leads breaks =>
          if c = ' ' && decide (column < indent) then
            lines folded chomping indent (.margin (column + 1) ended leads breaks) read rest
          else if isBreak c then
            lines folded chomping indent (.margin 0 ended leads (foldBreak c :: breaks)) read rest
          else if column = indent then
            let next := !isSpace c
            lines folded chomping indent (.line next)
              (c :: (joint folded ended leads next breaks ++ read)) rest
          else (finish chomping read mode, c :: rest)

/-- Reads a block after its first character.  `least` is the least indentation that its lines may
have; without an increment the first line of text decides. -/
def scan (folded : Bool) (least : Nat) (s : List Char) : Except Fault (String × List Char) := do
  let (header, s) ← indicators s
  let s ← headerLine s
  match header.increment with
  | some n => return lines folded header.chomping (least + n - 1) (.margin 0 none true []) [] s
  | none =>
      let m := margin [] 0 0 s
      return lines folded header.chomping (max least m.widest)
        (.margin m.column none true m.breaks) [] m.rest

end Block
end Yaml
end Polyglot
