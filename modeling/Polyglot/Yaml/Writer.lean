/-
Texts as scalars of a document, and tables and lists of them.

A text is written plain if it reads back as that text, else in single quotes, and in double quotes
where escapes are needed.  Lines are folded at blanks once they are wider than `width`.
-/
import Polyglot.Table
import Polyglot.Text.Quoted
import Polyglot.Yaml.Character
import Polyglot.Yaml.Tag

namespace Polyglot
namespace Yaml
namespace Writer

def width : Nat := 80

inductive Style where
  | plain
  | single
  | double
deriving DecidableEq, Repr

def isVisible (c : Char) : Bool := ' ' ≤ c && c ≤ '~'

def isOpening (c : Char) : Bool := "#,[]\x7b\x7d&*!|>'\"%@\x60".toList.contains c

def startsDivider (s : List Char) : Bool :=
  List.isPrefixOf "---".toList s || List.isPrefixOf "...".toList s

/-- No colon before a blank, and no number sign behind one. -/
def isSteady (blankBefore : Bool) : List Char → Bool
  | [] => true
  | c :: rest =>
      !(c = ':' && endsAt isGap rest) && !(c = '#' && blankBefore) && isSteady (isGap c) rest

/-- Whether a text may be written without quotes, as far as its characters go. -/
def allowsPlain (s : List Char) : Bool :=
  match s with
  | [] => false
  | c :: rest =>
      s.all isVisible && c ≠ ' ' && s.getLast? ≠ some ' ' && !startsDivider s && !isOpening c &&
        !((c = '?' || c = '-') && endsAt isGap rest) && isSteady true s

/-- No blank next to a line break. -/
def isTight : List Char → Bool
  | ' ' :: '\n' :: _ => false
  | '\n' :: ' ' :: _ => false
  | _ :: rest => isTight rest
  | [] => true

def allowsSingle (s : List Char) : Bool := (s.all fun c => isVisible c || c = '\n') && isTight s

def style (s : String) : Style :=
  if allowsPlain s.toList && Tag.ofPlain s = .str then .plain
  else if allowsSingle s.toList then .single
  else .double

def newline (indent : Nat) : List Char := '\n' :: List.replicate indent ' '

/-- How far a scalar may be folded: not at all, or onto lines with an indentation. -/
abbrev Fold := Option Nat

/-- A blank on its own, in a line that is wide enough, is where a line may end. -/
def foldsAt (fold : Fold) (afterSpace : Bool) (column : Nat) (rest : List Char) : Option Nat :=
  match fold with
  | some indent =>
      if !afterSpace && rest.head? ≠ some ' ' && decide (width < column) then some indent else none
  | none => none

def plain (fold : Fold) (afterSpace : Bool) (column : Nat) : List Char → List Char
  | [] => []
  | c :: rest =>
      match if c = ' ' then foldsAt fold afterSpace column rest else none with
      | some indent => newline indent ++ plain fold true indent rest
      | none => c :: plain fold (c = ' ') (column + 1) rest

/-- Inside single quotes a quote is written twice and a run of line breaks with one more. -/
def single (fold : Fold) (first afterSpace afterBreak : Bool) (column : Nat) :
    List Char → List Char
  | [] => []
  | c :: rest =>
      if c = '\n' then
        let indent := fold.getD 0
        let breaks := if afterBreak then ['\n'] else ['\n', '\n']
        if rest.head? = some '\n' then breaks ++ single fold false false true 0 rest
        else breaks ++ List.replicate indent ' ' ++ single fold false false false indent rest
      else if c = '\x27' then c :: c :: single fold false false false (column + 2) rest
      else
        let inner := c = ' ' && !first && !rest.isEmpty
        match if inner then foldsAt fold afterSpace column rest else none with
        | some indent => newline indent ++ single fold false true false indent rest
        | none => c :: single fold false (c = ' ') false (column + 1) rest

def letter? (c : Char) : Option Char :=
  [('\x00', '0'), ('\x07', 'a'), ('\x08', 'b'), ('\t', 't'), ('\n', 'n'), ('\x0b', 'v'),
   ('\x0c', 'f'), ('\r', 'r'), ('\x1b', 'e'), ('"', '"'), ('\\', '\\'), ('\x85', 'N'),
   ('\xa0', '_'), ('\u2028', 'L'), ('\u2029', 'P')].lookup c

def escape? (c : Char) : Option (List Char) :=
  match letter? c with
  | some letter => some ['\\', letter]
  | none =>
      if isVisible c then none
      else if c.toNat ≤ 0xFF then some ("\\x" ++ Text.hexDigits true 2 c.toNat).toList
      else if c.toNat ≤ 0xFFFF then some ("\\u" ++ Text.hexDigits true 4 c.toNat).toList
      else some ("\\U" ++ Text.hexDigits true 8 c.toNat).toList

/-- Inside double quotes a line may end before a blank or behind an escape; a backslash marks the
break, and another one a blank that would be lost at the start of the next line. -/
def double (fold : Fold) (first afterEscape : Bool) (column : Nat) : List Char → List Char
  | [] => []
  | c :: rest =>
      let inner := !first && !rest.isEmpty
      match escape? c with
      | some escape =>
          let column := column + escape.length
          match if inner && decide (width + 1 < column) then fold else none with
          | some indent =>
              let guarded := rest.head? = some ' '
              escape ++ '\\' :: newline indent ++ (if guarded then ['\\'] else []) ++
                double fold false true (if guarded then indent + 1 else indent) rest
          | none => escape ++ double fold false true column rest
      | none =>
          let breaks := inner && (c = ' ' || afterEscape) && decide (width < column)
          match if breaks then fold else none with
          | some indent =>
              let guarded := c = ' '
              '\\' :: newline indent ++ (if guarded then ['\\'] else []) ++
                c :: double fold false false ((if guarded then indent + 1 else indent) + 1) rest
          | none => c :: double fold false false (column + 1) rest

def scalar (fold : Fold) (column : Nat) (s : String) : List Char :=
  match style s with
  | .plain => plain fold false column s.toList
  | .single => '\x27' :: single fold true false false (column + 1) s.toList ++ ['\x27']
  | .double => '"' :: double fold true false (column + 1) s.toList ++ ['"']

/-- A key shorter than this stands on one line with its value. -/
def keyLimit : Nat := 123

def isSimpleKey (s : String) : Bool :=
  decide (s.length < keyLimit) && !s.isEmpty && !s.toList.any isBreak

def listItem (column : Nat) (s : String) : List Char :=
  List.replicate column ' ' ++ '-' :: ' ' :: scalar (some (column + 2)) (column + 2) s ++ ['\n']

def tableEntry (column : Nat) (entry : String × String) : List Char :=
  let (key, value) := entry
  let indent := column + 2
  let margin := List.replicate column ' '
  if isSimpleKey key then
    let written := scalar none column key
    margin ++ written ++ ':' :: ' ' :: scalar (some indent) (column + written.length + 2) value ++
      ['\n']
  else
    margin ++ '?' :: ' ' :: scalar (some indent) indent key ++
      '\n' :: margin ++ ':' :: ' ' :: scalar (some indent) indent value ++ ['\n']

def insertSorted (entry : String × String) : Table String String → Table String String
  | [] => [entry]
  | e :: rest =>
      if entry.1.toList < e.1.toList then entry :: e :: rest else e :: insertSorted entry rest

def sorted (t : Table String String) : Table String String :=
  t.foldl (fun acc entry => insertSorted entry acc) []

def list (column : Nat) (key : String) (items : List String) : List Char :=
  List.replicate column ' ' ++ key.toList ++
    (if items.isEmpty then ": []\n".toList else ':' :: '\n' :: items.flatMap (listItem column))

def table (column : Nat) (key : String) (entries : Table String String) : List Char :=
  List.replicate column ' ' ++ key.toList ++
    (if entries.isEmpty then ": \x7b\x7d\n".toList
     else ':' :: '\n' :: (sorted entries).flatMap (tableEntry (column + 2)))

end Writer
end Yaml
end Polyglot
