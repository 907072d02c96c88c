/-
Grammars and queries from packages.
-/
import Polyglot.Action
import Polyglot.Registry

namespace Polyglot
namespace Row

/-- What is wrong with the name of a row's module: it is empty, or relative to another module. -/
def nameFault? (row : Row) : Option Raised :=
  match row.grammarModule.toList with
  | [] => some .badValue
  | c :: _ => if c = '.' then some .badType else none

def package (packages : Packages) (row : Row) : Except Raised Package :=
  match row.nameFault? with
  | some e => .error e
  | none =>
      match Table.find? packages row.grammarModule with
      | none => .error .noModule
      | some package =>
          match package.importFault with
          | some e => .error e
          | none => .ok package

/-- A step behind a handler.  Exceptions of the groups that it names become faults of the grammar;
all others pass. -/
def guarded {α : Type} (language : Language) (groups : List Raised.Group)
    (problem : Raised → Grammar.Problem) (x : Except Raised α) : Except Fault α :=
  x.mapError fun e =>
    if e.group ∈ groups then .grammar { language, problem := problem e } else .raised e

def loadGrammar (packages : Packages) (row : Row) : Except Fault Grammar := do
  let held ←
    guarded row.language [.importing, .lookup]
      (.unavailable row.name row.grammarModule row.grammarFunction)
      (row.package packages >>= fun package => package.lookup row.grammarFunction)
  guarded row.language [.value] (.incompatible row.name) held.call

def readQuery (packages : Packages) (row : Row) (file : String) : Except Fault String :=
  guarded row.language [.importing, .system] (.queryMissing file row.grammarModule)
    (row.package packages >>= fun package => package.read file)

def readQueries (packages : Packages) (row : Row) (files : List String) : Except Fault String :=
  (files.mapM (readQuery packages row)).map "\n".intercalate

end Row

namespace Registry

def rowAction (language : Language) : Action Registry Row := do
  let r ← Action.state
  Action.ofExcept ((r.row language).mapError .registry)

def grammar (packages : Packages) (language : Language) : Action Registry Grammar := do
  let row ← rowAction language
  let r ← Action.state
  match Table.find? r.grammars language with
  | some grammar => return grammar
  | none =>
      let grammar ← Action.ofExcept (row.loadGrammar packages)
      Action.replace { r with grammars := Table.insert r.grammars language grammar }
      Action.say (.grammarLoaded row.name row.grammarModule)
      return grammar

def highlightQuery (packages : Packages) (language : Language) : Action Registry String := do
  let row ← rowAction language
  let r ← Action.state
  match Table.find? r.queries language with
  | some query => return query
  | none =>
      let query ← Action.ofExcept (row.readQueries packages row.highlightQueries)
      Action.replace { r with queries := Table.insert r.queries language query }
      return query

def injectionQuery (packages : Packages) (language : Language) : Action Registry String := do
  let row ← rowAction language
  Action.ofExcept (row.readQueries packages row.injectionQueries)

def localsQuery (packages : Packages) (language : Language) : Action Registry String := do
  let row ← rowAction language
  Action.ofExcept (row.readQueries packages row.localsQueries)

end Registry
end Polyglot
