/-
Tables that remember the order in which their keys arrived.
-/

namespace Polyglot

/-- A table holds one entry per key, in the order in which the keys first arrived. -/
abbrev Table (κ α : Type) := List (κ × α)

namespace Table

variable {κ α : Type} [BEq κ]

def find? (t : Table κ α) (k : κ) : Option α := List.lookup k t

def contains (t : Table κ α) (k : κ) : Bool := (find? t k).isSome

def keys (t : Table κ α) : List κ := List.map Prod.fst t

/-- A key that is present keeps its place and its spelling and takes the new value; a new key goes
to the end. -/
def insert : Table κ α → κ → α → Table κ α
  | [], k, v => [(k, v)]
  | (k', v') :: rest, k, v =>
      if k' == k then (k', v) :: rest else (k', v') :: insert rest k v

def erase (t : Table κ α) (k : κ) : Table κ α := List.filter (fun e => !(e.1 == k)) t

def update (t u : Table κ α) : Table κ α := List.foldl (fun acc e => insert acc e.1 e.2) t u

def ofList (entries : List (κ × α)) : Table κ α := update [] entries

end Table
end Polyglot
