/-
Nodes: the tree of a document before its scalars are converted.
-/
import Polyglot.Table
import Polyglot.Yaml.Fault
import Polyglot.Yaml.Tag
import Polyglot.Yaml.Token

namespace Polyglot
namespace Yaml

/-- A node with its tag.  An alias is a copy of the node it names; inside that node itself it is
`again`. -/
inductive Node where
  | scalar (tag : Tag) (text : String)
  | sequence (tag : Tag) (items : List Node)
  | mapping (tag : Tag) (entries : List (Node × Node))
  | again (isMapping : Bool)

namespace Node

def tag? : Node → Option Tag
  | scalar tag _ => some tag
  | sequence tag _ => some tag
  | mapping tag _ => some tag
  | again _ => none

def empty : Node := scalar .null ""

end Node

/-- The anchors seen so far, those of nodes that are still open, and the meaning of tag handles. -/
structure Scope where
  handles : Table String String
  closed : Table String Node := []
  opened : Table String Bool := []

namespace Scope

def standardHandles : Table String String := [("!", "!"), ("!!", Tag.standard)]

def declares (s : Scope) (name : String) : Bool :=
  Table.contains s.closed name || Table.contains s.opened name

def enter (s : Scope) (name : Option String) (mapping : Bool) : Scope :=
  match name with
  | some name => { s with opened := (name, mapping) :: s.opened }
  | none => s

def leave (s : Scope) (name : Option String) (node : Node) : Scope :=
  match name with
  | some name =>
      { s with opened := Table.erase s.opened name, closed := Table.insert s.closed name node }
  | none => s

def resolve? (s : Scope) (name : String) : Option Node :=
  match Table.find? s.closed name with
  | some node => some node
  | none => (Table.find? s.opened name).map Node.again

/-- The full tag, or the lone sign that asks for the tag by form. -/
def uri? (s : Scope) (t : TagText) : Option String :=
  match t.handle with
  | none => some t.suffix
  | some handle => (Table.find? s.handles handle).map (· ++ t.suffix)

end Scope

structure Properties where
  anchor : Option String := none
  uri : Option String := none

namespace Properties

def isEmpty (p : Properties) : Bool := p.anchor.isNone && p.uri.isNone

/-- Without a tag, or with the sign alone, a node has the tag that its form gives it. -/
def isOpen (p : Properties) : Bool := p.uri.all (· == "!")

def collectionTag (p : Properties) (usual : Tag) : Tag :=
  if p.isOpen then usual else p.uri.elim usual Tag.ofUri

def scalarTag (p : Properties) (plain : Bool) (text : String) : Tag :=
  match p.uri with
  | none => if plain then Tag.ofPlain text else .str
  | some uri => if uri == "!" then Tag.ofPlain text else Tag.ofUri uri

end Properties
end Yaml
end Polyglot
