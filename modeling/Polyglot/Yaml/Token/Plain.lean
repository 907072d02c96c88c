/-
Scalars without quotes.
-/
import Polyglot.Yaml.Token.Quoted

namespace Polyglot
namespace Yaml
namespace Plain

/-- Inside brackets these characters end a plain scalar. -/
def isFlowStop (c : Char) : Bool := ",?[]\x7b\x7d".toList.contains c

def isFlowIndicator (c : Char) : Bool := ",[]\x7b\x7d".toList.contains c

/-- Whether a plain scalar ends before `c`, given what follows it. -/
def stops (flow : Bool) (c : Char) (rest : List Char) : Bool :=
  isGap c || (c = ':' && endsAt (fun d => isGap d || (flow && isFlowIndicator d)) rest) ||
    (flow && isFlowStop c)

structure Result where
  text : String
  rest : List Char
  /-- a line ended after the last character of the text -/
  crossed : Bool

def finish (read : List Char) (gap : Gap) (rest : List Char) : Result :=
  { text := String.ofList read.reverse, rest, crossed := gap matches .lines _ _ }

/-- Reads a plain scalar.  Outside brackets a line that is indented less than `indent` ends it;
`column` counts the blanks since the last line break. -/
def scan (flow : Bool) (indent : Nat) (read : List Char) (gap : Gap) (column : Nat) :
    List Char → Result
  | [] => finish read gap []
  | c :: rest =>
      if c = ' ' then scan flow indent read (gap.addSpace c) (column + 1) rest
      else if isBreak c then
        let gap := gap.addBreak c
        if atDivider rest then finish read gap rest else scan flow indent read gap 0 rest
      else
        let opens := !(gap matches .none)
        let outdented := (gap matches .lines _ _) && !flow && decide (column < indent)
        if (opens && c = '#') || outdented || stops flow c rest then finish read gap (c :: rest)
        else scan flow indent (c :: (gap.text ++ read)) .none 0 rest

end Plain
end Yaml
end Polyglot
