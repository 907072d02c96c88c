/-
Configurations: extra extensions for languages, and the highlight names that are styled.
-/
import Polyglot.Data.Value
import Polyglot.Highlight
import Polyglot.Language.Builtin
import Polyglot.Notice
import Polyglot.Yaml.Writer

namespace Polyglot

structure Config where
  extensions : Table String String := []
  names : List String := Highlight.defaultNames
deriving DecidableEq, Repr

namespace Config

/-! ## Validity -/

inductive Problem where
  | unknownLanguage (name ext : String)
  | builtinExtension (ext : String) (owner : Language) (name : String)
  | noNames
  | blankName
deriving DecidableEq, Repr

namespace Problem

def message : Problem → String
  | unknownLanguage name ext =>
      "Unknown language '" ++ name ++ "' for extension '" ++ ext ++ "'. Valid: " ++
        ", ".intercalate (Language.all.map Language.name)
  | builtinExtension ext owner name =>
      "Extension '" ++ ext ++ "' is built in for " ++ owner.name ++ ", cannot alias to " ++ name
  | noNames => "highlight.names must not be empty"
  | blankName => "highlight.names must not contain blank names"

end Problem

def builtinRoutes : Table String Language :=
  Table.ofList (Row.builtin.flatMap fun row => row.extensions.map fun ext => (ext, row.language))

def entryProblem? (ext name : String) : Option Problem :=
  match Language.ofName? name with
  | none => some (.unknownLanguage name ext)
  | some language =>
      match Table.find? builtinRoutes ext with
      | some owner => if owner = language then none else some (.builtinExtension ext owner name)
      | none => none

/-- What is wrong with the extensions: the first entry whose language is unknown or that takes a
built-in extension away. -/
def extensionsProblem? (c : Config) : Option Problem :=
  c.extensions.findSome? fun (ext, name) => entryProblem? ext name

def namesProblem? (c : Config) : Option Problem :=
  if c.names.isEmpty then some .noNames
  else if c.names.any fun name => (Text.strip name).isEmpty then some .blankName
  else none

def problem? (c : Config) : Option Problem := c.extensionsProblem? <|> c.namesProblem?

/-! ## Data -/

def textKey (s : String) : Scalar := .text s

/-- A section of the data; what is not a table is ignored. -/
def sectionOf (data : Section) (name : String) : Section × List Notice :=
  match Table.find? data (textKey name) with
  | none => ([], [])
  | some (.map entries) => (entries, [])
  | some v => if v.isVoid then ([], []) else ([], [.sectionIgnored name v.kind])

def extensionsOf (languages : Section) : Section × List Notice :=
  match Table.find? languages (textKey "extensions") with
  | none => ([], [])
  | some (.map entries) => (entries, [])
  | some v => if v.isVoid then ([], []) else ([], [.extensionsIgnored v.kind])

/-- The highlight names; an empty list counts as none. -/
def namesOf (highlight : Section) : Option (List Value) × List Notice :=
  match Table.find? highlight (textKey "names") with
  | none => (none, [])
  | some (.scalar .null) => (none, [])
  | some (.list []) => (none, [])
  | some (.list items) => (some items, [])
  | some v => (none, [.namesIgnored v.kind])

/-- Reads a configuration from data.  Dots in front of an extension do not count, and keys and names
of any kind are taken as text. -/
def ofSection (data : Section) : Config × List Notice :=
  let (languages, n1) := sectionOf data "languages"
  let (highlight, n2) := sectionOf data "highlight"
  let (extensions, n3) := extensionsOf languages
  let (names, n4) := namesOf highlight
  ({ extensions := Table.ofList (extensions.map fun (k, v) => (Text.dropDots k.plain, v.plain)),
     names := (names.map (·.map Value.plain)).getD Highlight.defaultNames },
   n1 ++ n2 ++ n3 ++ n4)

def toSection (c : Config) : Section :=
  [(textKey "languages",
    .map [(textKey "extensions",
      .map (c.extensions.map fun (ext, name) => (textKey ext, .scalar (.text name))))]),
   (textKey "highlight",
    .map [(textKey "names", .list (c.names.map fun name => .scalar (.text name)))])]

def document (c : Config) : String :=
  String.ofList
    ("highlight:\n".toList ++ Yaml.Writer.list 2 "names" c.names ++ "languages:\n".toList ++
      Yaml.Writer.table 2 "extensions" c.extensions)

/-! ## Lists in one text -/

/-- Entries `extension=language` between commas.  Items without a sign or an extension are passed
over. -/
def parseExtensions (value : String) : Table String String :=
  Table.ofList ((Text.fields ',' value).filterMap fun item =>
    match Text.cut? '=' item with
    | none => none
    | some (ext, name) =>
        let ext := Text.dropDots (Text.strip ext)
        if ext.isEmpty then none else some (ext, Text.strip name))

def parseNames (value : String) : List String :=
  ((Text.fields ',' value).map Text.strip).filter fun name => !name.isEmpty

end Config
end Polyglot
