/-
What the program says while it works.
-/
import Polyglot.Data.Scalar
import Polyglot.Language
import Polyglot.Text.Quoted

namespace Polyglot

inductive Layer where
  | project
  | user
deriving DecidableEq, Repr

inductive Level where
  | debug
  | warning
deriving DecidableEq, Repr

inductive Notice where
  | grammarLoaded (rowName moduleName : String)
  | parserCreated (language : Language)
  | highlightCreated (language : Language) (captures : Nat)
  | highlightConfigured (mapped total : Nat)
  | linesClassified (lines : Nat) (language : Language)
  | aliasIgnored (ext name : String)
  | sectionIgnored (name : String) (kind : Kind)
  | extensionsIgnored (kind : Kind)
  | namesIgnored (kind : Kind)
  | fileSkipped (layer : Layer)
  | fileNotMapping (layer : Layer)
deriving DecidableEq, Repr

namespace Notice

def level : Notice → Level
  | grammarLoaded _ _ => .debug
  | parserCreated _ => .debug
  | highlightCreated _ _ => .debug
  | highlightConfigured _ _ => .debug
  | linesClassified _ _ => .debug
  | _ => .warning

/-- The text of a notice, given the places of the files and the text of what was wrong with one. -/
def message (place : Layer → String) (problem : String) : Notice → String
  | grammarLoaded rowName moduleName => "Loaded " ++ rowName ++ " grammar from " ++ moduleName
  | parserCreated language => "Created " ++ language.name ++ " parser"
  | highlightCreated language captures =>
      "Created " ++ language.name ++ " highlight config with " ++ toString captures ++ " captures"
  | highlightConfigured mapped total =>
      "Configured highlights: " ++ toString mapped ++ " of " ++ toString total ++ " captures mapped"
  | linesClassified lines language =>
      "Classified " ++ toString lines ++ " significant lines for " ++ language.name
  | aliasIgnored ext name =>
      "Ignoring alias " ++ ext ++ ": unknown language " ++ Text.quoted name
  | sectionIgnored name kind =>
      "Ignoring " ++ name ++ " section: expected a mapping, got " ++ kind.name
  | extensionsIgnored kind =>
      "Ignoring languages.extensions: expected a mapping, got " ++ kind.name
  | namesIgnored kind => "Ignoring highlight.names: expected a list, got " ++ kind.name
  | fileSkipped layer => "Skipping config " ++ place layer ++ ": " ++ problem
  | fileNotMapping layer => "Skipping config " ++ place layer ++ ": top level is not a mapping"

end Notice
end Polyglot
