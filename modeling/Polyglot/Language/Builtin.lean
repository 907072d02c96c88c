/-
The languages that are known from the start.
-/
import Polyglot.Language.Row

namespace Polyglot
namespace Row

/-- Items of interest live in impl blocks and traits; imports and comments never count. -/
def rust : Row where
  language := .rust
  name := "Rust"
  extensions := ["rs"]
  grammarModule := "tree_sitter_rust"
  lineLists := some {
    expand := ["source_file", "impl_item", "trait_item", "declaration_list"],
    ignore := ["source_file", "use_declaration", "line_comment"] }

/-- Type declarations are opened down to the methods of an interface. -/
def go : Row where
  language := .go
  name := "Go"
  extensions := ["go"]
  grammarModule := "tree_sitter_go"
  lineLists := some {
    expand :=
      ["source_file", "type_declaration", "type_spec", "interface_type", "method_spec_list"],
    ignore := ["source_file", "comment", "line_comment"] }

def javascript : Row where
  language := .javascript
  name := "JavaScript"
  extensions := ["js"]
  grammarModule := "tree_sitter_javascript"

/-- The patterns for tags come before the plain ones, so tags win. -/
def jsx : Row where
  language := .jsx
  name := "JSX"
  extensions := ["jsx"]
  grammarModule := "tree_sitter_javascript"
  highlightQueries := ["highlights-jsx.scm", "highlights.scm"]

def typescript : Row where
  language := .typescript
  name := "TypeScript"
  extensions := ["ts"]
  grammarModule := "tree_sitter_typescript"
  grammarFunction := "language_typescript"

def tsx : Row where
  language := .tsx
  name := "TSX"
  extensions := ["tsx"]
  grammarModule := "tree_sitter_typescript"
  grammarFunction := "language_tsx"

def python : Row where
  language := .python
  name := "Python"
  extensions := ["py"]
  grammarModule := "tree_sitter_python"

def builtin : List Row := [rust, go, javascript, jsx, typescript, tsx, python]

end Row
end Polyglot
