/-
Rows of the language table.
-/
import Polyglot.Language

namespace Polyglot

/-- The node kinds that steer the line classifier: the children of `expand` kinds are walked, the
lines of `ignore` kinds are never marked. -/
structure LineLists where
  expand : List String
  ignore : List String
deriving DecidableEq, Repr

namespace LineLists

/-- The lists of every language without lists of its own: only the root's children are seen. -/
def default : LineLists := { expand := ["source_file"], ignore := ["source_file"] }

end LineLists

/-- What the table says of one language: how files, grammar and queries are found. -/
structure Row where
  language : Language
  name : String
  extensions : List String
  grammarModule : String
  grammarFunction : String := "language"
  highlightQueries : List String := ["highlights.scm"]
  injectionQueries : List String := []
  localsQueries : List String := []
  lineLists : Option LineLists := none
deriving DecidableEq, Repr

namespace Row

def effectiveLineLists (row : Row) : LineLists := row.lineLists.getD LineLists.default

end Row
end Polyglot
