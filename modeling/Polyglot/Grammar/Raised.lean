/-
Exceptions: what an import, a call or a read can end in.
-/

namespace Polyglot

inductive Raised.Group where
  | importing
  | lookup
  | value
  | system
  | other
deriving DecidableEq, Repr

/-- An exception: the name of its class, its group, and what it says where it is quoted. -/
structure Raised where
  name : String
  group : Raised.Group
  text : String := ""
deriving DecidableEq, Repr

namespace Raised

def Group.all : List Group := [.importing, .lookup, .value, .system, .other]

def noModule : Raised := { name := "ModuleNotFoundError", group := .importing }

def noAttribute : Raised := { name := "AttributeError", group := .lookup }

def noFile : Raised := { name := "FileNotFoundError", group := .system }

def badValue : Raised := { name := "ValueError", group := .value }

def badType : Raised := { name := "TypeError", group := .other }

end Raised
end Polyglot
