/-
Scalars: the values that can be keys.
-/
import Polyglot.Data.Moment
import Polyglot.Number.Shortest
import Polyglot.Text.Quoted

namespace Polyglot

inductive Scalar where
  | null
  | bool (b : Bool)
  | int (n : Int)
  | float (x : Binary64)
  | text (s : String)
  | date (d : Date)
  | moment (m : Moment)
  | bytes (b : List UInt8)

namespace Scalar

/-- What makes two keys the same: numbers are compared by value, whatever their kind, and truth
values count as one and zero. -/
inductive Key where
  | null
  | number (q : Rat)
  | infinite (negative : Bool)
  | nan
  | text (s : String)
  | date (d : Date)
  | moment (sameness : Bool × Int)
  | bytes (b : List UInt8)
deriving DecidableEq

def key : Scalar → Key
  | null => .null
  | bool b => .number (if b then 1 else 0)
  | int n => .number n
  | float (.infinite negative) => .infinite negative
  | float .nan => .nan
  | float x => .number (x.toRat?.getD 0)
  | text s => .text s
  | date d => .date d
  | moment m => .moment m.sameness
  | bytes b => .bytes b

instance : BEq Scalar := ⟨fun a b => a.key == b.key⟩

/-- Nothing, zero and the empty text stand for a missing value. -/
def isVoid : Scalar → Bool
  | null => true
  | bool b => !b
  | int n => n == 0
  | float x => x.isZero
  | text s => s.isEmpty
  | date _ => false
  | moment _ => false
  | bytes b => b.isEmpty

def plain : Scalar → String
  | null => "None"
  | bool b => if b then "True" else "False"
  | int n => toString n
  | float x => x.text
  | text s => s
  | date d => d.text
  | moment m => m.text
  | bytes b => Text.quotedBytes b

/-- A scalar inside a collection: texts stand in quotes, dates and moments are spelled out. -/
def shown : Scalar → String
  | text s => Text.quoted s
  | date d => d.shown
  | moment m => m.shown
  | s => s.plain

end Scalar

/-- The kinds of values, by the names that warnings give them. -/
inductive Kind where
  | null
  | bool
  | int
  | float
  | text
  | date
  | moment
  | bytes
  | list
  | map
  | set
  | pair
deriving DecidableEq, Repr

namespace Kind

def name : Kind → String
  | null => "NoneType"
  | bool => "bool"
  | int => "int"
  | float => "float"
  | text => "str"
  | date => "date"
  | moment => "datetime"
  | bytes => "bytes"
  | list => "list"
  | map => "dict"
  | set => "set"
  | pair => "tuple"

end Kind

namespace Scalar

def kind : Scalar → Kind
  | null => .null
  | bool _ => .bool
  | int _ => .int
  | float _ => .float
  | text _ => .text
  | date _ => .date
  | moment _ => .moment
  | bytes _ => .bytes

end Scalar
end Polyglot
