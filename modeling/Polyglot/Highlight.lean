/-
Highlight configurations: the captures of a compiled query and the styles they map to.
-/
import Polyglot.Grammar.Package
import Polyglot.Text.Split

namespace Polyglot

/-- A compiled query: the text it was compiled from, the names of its captures, and for each capture
the place of the recognised name it maps to. -/
structure Highlight where
  source : String
  captures : List String
  indices : List (Option Nat)
deriving DecidableEq, Repr

namespace Highlight

def defaultNames : List String :=
  ["attribute", "comment", "constant", "constant.builtin", "constructor", "embedded", "escape",
   "function", "function.builtin", "function.method", "keyword", "label", "module", "number",
   "operator", "property", "punctuation", "punctuation.bracket", "punctuation.delimiter",
   "string", "string.special", "tag", "type", "type.builtin", "variable", "variable.builtin",
   "variable.parameter"]

/-- Queries stand in the order of their precedence; empty ones are left out. -/
def combine (injections locals highlights : String) : String :=
  "\n".intercalate ([injections, locals, highlights].filter fun part => !part.isEmpty)

/-- A compiled query maps no capture before it is configured. -/
def compile (grammar : Grammar) (source : String) : Except Raised Highlight :=
  (grammar.compile source).map fun captures =>
    { source, captures, indices := captures.map fun _ => none }

def parts (name : String) : List (List Char) := Text.split '.' name.toList

/-- The best match so far: its place, and the number of its parts. -/
structure Match where
  index : Option Nat := none
  size : Nat := 0

/-- Looks through names, the first of which has the place `index`, for a longer match than `best`. -/
def bestMatch (capture : List (List Char)) (index : Nat) (best : Match) :
    List (List (List Char)) → Match
  | [] => best
  | name :: rest =>
      if best.size < name.length && name.isPrefixOf capture then
        bestMatch capture (index + 1) { index := some index, size := name.length } rest
      else bestMatch capture (index + 1) best rest

/-- The place of the recognised name with the most parts that begin the capture; of several the
first. -/
def indexOf (names : List String) (capture : String) : Option Nat :=
  (bestMatch (parts capture) 0 {} (names.map parts)).index

def configure (h : Highlight) (names : List String) : Highlight :=
  { h with indices := h.captures.map (indexOf names) }

def mappedCount (h : Highlight) : Nat := h.indices.countP Option.isSome

end Highlight
end Polyglot
