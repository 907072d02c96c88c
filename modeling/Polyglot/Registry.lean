/-
Registries: which language an extension belongs to, and what is known of each language.

A registry keeps the grammars and highlight queries it has loaded.
-/
import Polyglot.Grammar.Package
import Polyglot.Path
import Polyglot.Registry.Fault
import Polyglot.Table

namespace Polyglot

structure Registry where
  rows : Table Language Row := []
  routes : Table String Language := []
  grammars : Table Language Grammar := []
  queries : Table Language String := []

namespace Registry

def empty : Registry := {}

def isEmpty (r : Registry) : Bool := r.rows.isEmpty

def size (r : Registry) : Nat := r.rows.length

def languages (r : Registry) : List Language := Table.keys r.rows

def contains (r : Registry) (language : Language) : Bool := Table.contains r.rows language

/-! ## Registration -/

/-- The first extension of a row that belongs to another language, and that language. -/
def conflict? (r : Registry) (row : Row) : Option (String × Language) :=
  row.extensions.findSome? fun ext =>
    match Table.find? r.routes (Text.dropDot ext) with
    | some owner => if owner = row.language then none else some (ext, owner)
    | none => none

def route (routes : Table String Language) (extensions : List String) (language : Language) :
    Table String Language :=
  extensions.foldl (fun acc ext => Table.insert acc (Text.dropDot ext) language) routes

def register (r : Registry) (row : Row) : Except Fault Registry :=
  match r.conflict? row with
  | some (ext, owner) => .error (.registerTaken ext owner row.language)
  | none =>
      .ok { r with
        rows := Table.insert r.rows row.language row,
        routes := route r.routes row.extensions row.language }

def unregister (r : Registry) (language : Language) : Option Registry :=
  if r.contains language then
    some {
      rows := Table.erase r.rows language,
      routes := r.routes.filter fun e => e.2 ≠ language,
      grammars := Table.erase r.grammars language,
      queries := Table.erase r.queries language }
  else none

def row (r : Registry) (language : Language) : Except Fault Row :=
  match Table.find? r.rows language with
  | some row => .ok row
  | none => .error (.noRow language)

def addAlias (r : Registry) (ext : String) (language : Language) : Except Fault Registry := do
  let _ ← r.row language
  let ext := Text.dropDot ext
  match Table.find? r.routes ext with
  | some owner =>
      if owner = language then return { r with routes := Table.insert r.routes ext language }
      else .error (.aliasTaken ext owner language)
  | none => return { r with routes := Table.insert r.routes ext language }

/-! ## Look-up -/

def identify (r : Registry) (path : String) : Option Language :=
  (Path.extension? path).bind (Table.find? r.routes)

def isSupported (r : Registry) (path : String) : Bool := (r.identify path).isSome

def rowOfPath (r : Registry) (path : String) : Option Row :=
  (r.identify path).bind (Table.find? r.rows)

def lineLists (r : Registry) (language : Language) : Except Fault LineLists :=
  (r.row language).map Row.effectiveLineLists

end Registry
end Polyglot
