/-
What a registry is for: parsers, highlight configurations and significant lines.
-/
import Polyglot.Highlight
import Polyglot.Registry.Load
import Polyglot.Tree.Walk

namespace Polyglot
namespace Registry

def makeParser (packages : Packages) (language : Language) : Action Registry Grammar := do
  let grammar ← grammar packages language
  let _ ← Action.ofExcept (Row.guarded language [.value] .unbindable grammar.parser)
  Action.say (.parserCreated language)
  return grammar

def configureHighlight {σ : Type} (h : Highlight) (names : List String) : Action σ Highlight := do
  let h := h.configure names
  Action.say (.highlightConfigured h.mappedCount h.indices.length)
  return h

def makeHighlight (packages : Packages) (language : Language) (names : Option (List String)) :
    Action Registry Highlight := do
  let grammar ← grammar packages language
  let highlights ← highlightQuery packages language
  let injections ← injectionQuery packages language
  let locals ← localsQuery packages language
  let compiled ← Action.ofExcept (Row.guarded language Raised.Group.all .invalidQuery
    (Highlight.compile grammar (Highlight.combine injections locals highlights)))
  let h ← match names with
    | some names => configureHighlight compiled names
    | none => pure compiled
  Action.say (.highlightCreated language h.captures.length)
  return h

def classify (language : Language) (c : Cursor) : Action Registry (Walk × Cursor) := do
  let row ← rowAction language
  let walked := Walk.tree row.effectiveLineLists [] c
  Action.say (.linesClassified walked.1.lines.length language)
  return walked

end Registry
end Polyglot
