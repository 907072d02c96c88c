/-
Cutting texts at a character.
-/

namespace Polyglot
namespace Text

/-- The pieces between the separators: one more piece than there are separators. -/
def split (sep : Char) : List Char → List (List Char)
  | [] => [[]]
  | c :: rest =>
      if c = sep then [] :: split sep rest
      else
        match split sep rest with
        | piece :: pieces => (c :: piece) :: pieces
        | [] => [[c]]

def fields (sep : Char) (s : String) : List String := (split sep s.toList).map String.ofList

/-- Cuts at the first separator, if there is one. -/
def cut? (sep : Char) (s : String) : Option (String × String) :=
  match s.toList.dropWhile (· ≠ sep) with
  | [] => none
  | _ :: after => some (String.ofList (s.toList.takeWhile (· ≠ sep)), String.ofList after)

def dropDots (s : String) : String := String.ofList (s.toList.dropWhile (· = '.'))

/-- Drops one dot at the front, if there is one. -/
def dropDot (s : String) : String :=
  match s.toList with
  | '.' :: rest => String.ofList rest
  | _ => s

end Text
end Polyglot
