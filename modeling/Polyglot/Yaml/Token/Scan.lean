/-
From text to tokens.

Block structure is read off the columns at which tokens begin.  A mapping key is only known as one
when its colon comes, so the place where a key could have begun is kept as a pending key, and the
tokens that open the mapping and the key are put in there later.
-/
import Polyglot.Yaml.Token.Block
import Polyglot.Yaml.Token.Plain
import Polyglot.Yaml.Token.Property

namespace Polyglot
namespace Yaml

structure Position where
  index : Nat := 0
  line : Nat := 0
  column : Nat := 0

namespace Position

/-- A byte order mark takes no column. -/
def advance (p : Position) (c : Char) : Position :=
  if isBreak c then { index := p.index + 1, line := p.line + 1, column := 0 }
  else
    { p with index := p.index + 1, column := if c = '\uFEFF' then p.column else p.column + 1 }

end Position

/-- A place where a key may have begun: the number of tokens before it, and whether nothing but a
key can stand there. -/
structure PendingKey where
  token : Nat
  required : Bool
  position : Position

/-- The state of a scan.  Columns of the open blocks and pending keys of the enclosing brackets
stand innermost first, tokens latest first. -/
structure Scan where
  rest : List Char
  position : Position := {}
  indents : List Nat := []
  keyAllowed : Bool := true
  pending : Option PendingKey := none
  outer : List (Option PendingKey) := []
  tokens : List Token := []

namespace Scan

/-- Inside brackets, columns do not matter. -/
def inFlow (s : Scan) : Bool := !s.outer.isEmpty

def push (s : Scan) (t : Token) : Scan := { s with tokens := t :: s.tokens }

def moveTo (s : Scan) (rest : List Char) : Scan :=
  let passed := s.rest.take (s.rest.length - rest.length)
  { s with rest, position := passed.foldl Position.advance s.position }

/-- The token `t` takes the next `n` characters. -/
def take (s : Scan) (n : Nat) (t : Token) : Scan := (s.moveTo (s.rest.drop n)).push t

def dropPending (s : Scan) : Except Fault Scan :=
  match s.pending with
  | some { required := true, .. } => .error .malformed
  | _ => .ok { s with pending := none }

def savePending (s : Scan) : Except Fault Scan :=
  if s.keyAllowed then do
    let required := !s.inFlow && s.indents.head? == some s.position.column
    let s ← s.dropPending
    return { s with pending := some { token := s.tokens.length, required, position := s.position } }
  else .ok s

/-- A key stands on one line and is at most 1024 characters long. -/
def isStale (here : Position) (key : PendingKey) : Bool :=
  key.position.line != here.line || decide (1024 < here.index - key.position.index)

def staleFault (here : Position) (key : Option PendingKey) : Bool :=
  key.any fun key => isStale here key && key.required

def dropStale (s : Scan) : Except Fault Scan :=
  let fresh (key : Option PendingKey) := key.filter fun key => !isStale s.position key
  if (s.pending :: s.outer).any (staleFault s.position) then .error .malformed
  else .ok { s with pending := fresh s.pending, outer := s.outer.map fresh }

/-- Closes the blocks that a predicate on their columns does not keep. -/
def close (keeps : Nat → Bool) (s : Scan) : Scan :=
  if s.inFlow then s
  else
    let closed := s.indents.takeWhile fun column => !keeps column
    { s with
      indents := s.indents.dropWhile fun column => !keeps column,
      tokens := List.replicate closed.length .blockEnd ++ s.tokens }

/-- Whether a block at a column would be a new one. -/
def isDeeper (s : Scan) (column : Nat) : Bool := s.indents.head?.all fun open_ => decide (open_ < column)

/-- Opens a block at the current column if it is a new one. -/
def openBlock (s : Scan) (t : Token) : Scan :=
  if s.isDeeper s.position.column then
    { s with indents := s.position.column :: s.indents, tokens := t :: s.tokens }
  else s

/-- Skips blanks, comments and line breaks; after a line break outside brackets a key may begin. -/
def skip (flow comment : Bool) (p : Position) (keyAllowed : Bool) :
    List Char → List Char × Position × Bool
  | [] => ([], p, keyAllowed)
  | c :: rest =>
      if isBreak c then skip flow false (p.advance c) (keyAllowed || !flow) rest
      else if comment || c = ' ' then skip flow comment (p.advance c) keyAllowed rest
      else if c = '#' then skip flow true (p.advance c) keyAllowed rest
      else (c :: rest, p, keyAllowed)

def toNextToken (s : Scan) : Scan :=
  let (rest, position, keyAllowed) := skip s.inFlow false s.position s.keyAllowed s.rest
  { s with rest, position, keyAllowed }

def between (s : Scan) : Except Fault Scan := do
  let s ← (s.close fun _ => false).dropPending
  return { s with keyAllowed := false }

def openFlow (s : Scan) (t : Token) : Except Fault Scan := do
  let s ← s.savePending
  return { s.take 1 t with keyAllowed := true, pending := none, outer := s.pending :: s.outer }

def closeFlow (s : Scan) (t : Token) : Except Fault Scan :=
  match s.outer with
  | [] => .error .malformed
  | pending :: outer => .ok { s.take 1 t with keyAllowed := false, pending, outer }

def flowEntry (s : Scan) : Except Fault Scan := do
  let s ← s.dropPending
  return { s.take 1 .flowEntry with keyAllowed := true }

def blockEntry (s : Scan) : Except Fault Scan := do
  if !s.inFlow && !s.keyAllowed then .error .malformed
  let s := if s.inFlow then s else s.openBlock .blockSequenceStart
  let s ← s.dropPending
  return { s.take 1 .blockEntry with keyAllowed := true }

def explicitKey (s : Scan) : Except Fault Scan := do
  if !s.inFlow && !s.keyAllowed then .error .malformed
  let s := if s.inFlow then s else s.openBlock .blockMappingStart
  let s ← s.dropPending
  return { s.take 1 .key with keyAllowed := !s.inFlow }

/-- Puts tokens in where the pending key began. -/
def insertAt (s : Scan) (key : PendingKey) (ts : List Token) : Scan :=
  let after := s.tokens.length - key.token
  { s with tokens := s.tokens.take after ++ ts.reverse ++ s.tokens.drop after }

/-- A colon turns the pending key into a key; without one it stands for itself. -/
def mappingValue (s : Scan) : Except Fault Scan := do
  match s.pending with
  | some key =>
      let opens := !s.inFlow && s.isDeeper key.position.column
      let s := s.insertAt key (if opens then [.blockMappingStart, .key] else [.key])
      let indents := if opens then key.position.column :: s.indents else s.indents
      return { s.take 1 .value with keyAllowed := false, pending := none, indents }
  | none =>
      if !s.inFlow && !s.keyAllowed then .error .malformed
      let s := if s.inFlow then s else s.openBlock .blockMappingStart
      return { s.take 1 .value with keyAllowed := !s.inFlow }

/-- A token that may be a key, read by `reader` from the text behind its first `n` characters. -/
def node {α : Type} (s : Scan) (n : Nat) (reader : List Char → Except Fault (α × List Char))
    (token : α → Token) : Except Fault Scan := do
  let s ← s.savePending
  let (a, rest) ← reader (s.rest.drop n)
  return { (s.moveTo rest).push (token a) with keyAllowed := false }

def blockScalar (s : Scan) (folded : Bool) : Except Fault Scan := do
  let s ← s.dropPending
  let least := s.indents.head?.elim 1 (· + 1)
  let (text, rest) ← Block.scan folded least (s.rest.drop 1)
  return { (s.moveTo rest).push (.scalar text false) with keyAllowed := true }

def plainScalar (s : Scan) : Except Fault Scan := do
  let s ← s.savePending
  let r := Plain.scan s.inFlow (s.indents.head?.elim 0 (· + 1)) [] .none 0 s.rest
  return { (s.moveTo r.rest).push (.scalar r.text true) with keyAllowed := r.crossed }

def isIndicator (c : Char) : Bool := "-?:,[]\x7b\x7d#&*!|>'\"%@\x60".toList.contains c

def opensPlain (s : Scan) (c : Char) (rest : List Char) : Bool :=
  !(isGap c || isIndicator c) ||
    (!endsAt isGap rest && (c = '-' || (!s.inFlow && (c = '?' || c = ':'))))

def token (s : Scan) (c : Char) (rest : List Char) : Except Fault Scan := do
  let first := s.position.column == 0
  let apart := endsAt isGap rest
  if c = '%' && first then
    let s ← s.between
    let (d, rest) ← Property.directive rest
    return (s.moveTo rest).push (.directive d)
  else if first && isDivider '-' s.rest then return (← s.between).take 3 .documentStart
  else if first && isDivider '.' s.rest then return (← s.between).take 3 .documentEnd
  else if c = '[' then s.openFlow .flowSequenceStart
  else if c = '\x7b' then s.openFlow .flowMappingStart
  else if c = ']' then s.closeFlow .flowSequenceEnd
  else if c = '\x7d' then s.closeFlow .flowMappingEnd
  else if c = ',' then s.flowEntry
  else if c = '-' && apart then s.blockEntry
  else if c = '?' && (s.inFlow || apart) then s.explicitKey
  else if c = ':' && (s.inFlow || apart) then s.mappingValue
  else if c = '*' then s.node 1 Property.name .alias
  else if c = '&' then s.node 1 Property.name .anchor
  else if c = '!' then s.node 1 Property.tag .tag
  else if c = '|' && !s.inFlow then s.blockScalar false
  else if c = '>' && !s.inFlow then s.blockScalar true
  else if c = '\x27' then s.node 1 (Quoted.scan false (.text .none) []) (.scalar · false)
  else if c = '"' then s.node 1 (Quoted.scan true (.text .none) []) (.scalar · false)
  else if s.opensPlain c rest then s.plainScalar
  else .error .malformed

/-- The tokens that are settled: those before the first place that may still become a key. -/
def settled (s : Scan) : List Token :=
  let keys := (s.pending :: s.outer).filterMap fun key => key.map (·.token)
  s.tokens.reverse.take (keys.foldl min s.tokens.length)

/-- Reads up to `n` tokens, and the end of the text: the tokens of the text and the fault that
ended them, if one did. -/
def run : Nat → Scan → List Token × Option Fault
  | 0, s => (s.settled, some .malformed)
  | n + 1, s =>
      match s.toNextToken.dropStale with
      | .error fault => (s.settled, some fault)
      | .ok fresh =>
          match fresh.rest with
          | [] =>
              match fresh.between with
              | .ok last => ((last.push .streamEnd).tokens.reverse, none)
              | .error fault => (s.settled, some fault)
          | c :: rest =>
              let kept column := decide (column ≤ fresh.position.column)
              match (fresh.close kept).token c rest with
              | .error fault => (s.settled, some fault)
              | .ok next => run n next

end Scan

/-- The tokens of a text.  A byte order mark in front of it does not count.  Every token takes a
character, so there are no more tokens than characters. -/
def Token.scan (text : List Char) : List Token × Option Fault :=
  match text with
  | '\uFEFF' :: rest => Scan.run (rest.length + 1) { rest, position := { index := 1 } }
  | _ => Scan.run (text.length + 1) { rest := text }

end Yaml
end Polyglot
