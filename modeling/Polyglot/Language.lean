/-
The closed set of languages.
-/
import Polyglot.Text.Blank
import Polyglot.Text.Lowercase

namespace Polyglot

/-- A language is chosen once per file and is then the key to its grammar, queries and lists. -/
inductive Language where
  | rust
  | go
  | javascript
  | jsx
  | typescript
  | tsx
  | python
deriving DecidableEq, Repr

namespace Language

def all : List Language := [rust, go, javascript, jsx, typescript, tsx, python]

def name : Language → String
  | rust => "rust"
  | go => "go"
  | javascript => "javascript"
  | jsx => "jsx"
  | typescript => "typescript"
  | tsx => "tsx"
  | python => "python"

def tag (l : Language) : String := "Language." ++ l.name.map Char.toUpper

/-- Blanks around a name and the case of its letters do not matter. -/
def ofName? (s : String) : Option Language :=
  let wanted := Text.lowercase (Text.strip s)
  all.find? (·.name == wanted)

end Language
end Polyglot
