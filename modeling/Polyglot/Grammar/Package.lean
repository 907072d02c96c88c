/-
Grammar packages: what a row's grammar and queries are taken from.
-/
import Polyglot.Grammar.Raised
import Polyglot.Language.Row
import Polyglot.Table

namespace Polyglot

/-- A grammar, with what the parser library makes of it: a parser that is bound to it, and for each
query text the names of the captures, in their order. -/
structure Grammar where
  name : Option String
  parser : Except Raised Unit := .ok ()
  compile : String → Except Raised (List String) := fun _ => .ok []

/-- What a module holds under a name: a function, with the grammar that is made of what it returns,
or something that cannot be called. -/
inductive Attribute where
  | value
  | function (returned : Except Raised Grammar)

namespace Attribute

def call : Attribute → Except Raised Grammar
  | value => .error .badType
  | function returned => returned

end Attribute

/-- A module that may hold grammars and, if it is a package, query files. -/
structure Package where
  importFault : Option Raised := none
  attributes : Table String (Except Raised Attribute) := []
  files : Table String (Except Raised String) := []
  holdsFiles : Bool := true

namespace Package

def lookup (p : Package) (name : String) : Except Raised Attribute :=
  (Table.find? p.attributes name).getD (.error .noAttribute)

/-- No file can have a name with a zero character. -/
def read (p : Package) (file : String) : Except Raised String :=
  if !p.holdsFiles then .error .badType
  else if file.toList.contains '\x00' then .error .badValue
  else (Table.find? p.files file).getD (.error .noFile)

end Package

abbrev Packages := Table String Package

namespace Grammar

/-- How a row disagrees with the packages that exist, with the exception that shows it. -/
inductive Problem where
  | unavailable (rowName moduleName function : String) (cause : Raised)
  | incompatible (rowName : String) (cause : Raised)
  | queryMissing (file moduleName : String) (cause : Raised)
  | unbindable (cause : Raised)
  | invalidQuery (cause : Raised)
deriving DecidableEq, Repr

structure Fault where
  language : Language
  problem : Problem
deriving DecidableEq, Repr

namespace Fault

def cause (fault : Fault) : Raised :=
  match fault.problem with
  | .unavailable _ _ _ cause => cause
  | .incompatible _ cause => cause
  | .queryMissing _ _ cause => cause
  | .unbindable cause => cause
  | .invalidQuery cause => cause

def message (fault : Fault) : String :=
  match fault.problem with
  | .unavailable rowName moduleName function _ =>
      "Grammar not available for " ++ rowName ++ ": " ++ moduleName ++ "." ++ function
  | .incompatible rowName cause => "Incompatible grammar for " ++ rowName ++ ": " ++ cause.text
  | .queryMissing file moduleName _ => "Query file " ++ file ++ " not found in " ++ moduleName
  | .unbindable cause =>
      "Cannot bind " ++ fault.language.name ++ " grammar to parser: " ++ cause.text
  | .invalidQuery cause =>
      "Invalid highlight query for " ++ fault.language.name ++ ": " ++ cause.text

end Fault
end Grammar
end Polyglot
