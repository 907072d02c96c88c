/-
Documents: text read as one value.
-/
import Polyglot.Yaml.Node.Parse
import Polyglot.Yaml.Token.Scan
import Polyglot.Yaml.Value

namespace Polyglot
namespace Yaml

/-- Reads the one document of a text; a text without a document is null. -/
def read (text : String) : Except Fault Value :=
  let chars := unifyBreaks text.toList
  if chars.all isAllowed then
    let (tokens, fault) := Token.scan chars
    match Node.ofTokens tokens with
    | .error .malformed => .error .malformed
    | .error .exhausted => .error (fault.getD .malformed)
    | .ok none => .ok (.scalar .null)
    | .ok (some node) =>
        match node.toValue 0 with
        | .ok v => .ok v
        | .error (_, fault) => .error fault
  else .error .malformed

end Yaml
end Polyglot
