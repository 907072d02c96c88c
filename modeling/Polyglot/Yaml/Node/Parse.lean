/-
From tokens to the node of a document.

Each reader returns a result together with the tokens behind it.  The readers call each other to a
bounded depth, and the bound is the number of tokens times the calls between two of them.
-/
import Polyglot.Yaml.Node

namespace Polyglot
namespace Yaml
namespace Node

/-- Why no node was read: the tokens are in no order that a document has, or they ran out. -/
inductive Stop where
  | malformed
  | exhausted
deriving DecidableEq, Repr

/-- A result, and the scope and the tokens behind it. -/
structure Read (α : Type) where
  result : α
  scope : Scope
  rest : List Token

namespace Read

def put {α β : Type} (r : Read α) (b : β) : Read β := { r with result := b }

/-- The end of a node, which takes its anchor. -/
def close {α : Type} (r : Read α) (p : Properties) (node : Node) : Read Node :=
  { result := node, scope := r.scope.leave p.anchor node, rest := r.rest }

end Read

/-- An anchor and a tag, in either order. -/
def properties (scope : Scope) : List Token → Option Properties × List Token
  | .anchor name :: .tag t :: rest =>
      ((scope.uri? t).map fun uri => { anchor := some name, uri := some uri }, rest)
  | .tag t :: .anchor name :: rest =>
      ((scope.uri? t).map fun uri => { anchor := some name, uri := some uri }, rest)
  | .anchor name :: rest => (some { anchor := some name }, rest)
  | .tag t :: rest => ((scope.uri? t).map fun uri => { uri := some uri }, rest)
  | ts => (some {}, ts)

/-- Where a node stands: which collections may begin there, and which tokens say that the node is
left out. -/
structure Place where
  block : Bool
  indentless : Bool
  ends : List Token

namespace Place

def blockItem : Place := ⟨true, false, [.blockEntry, .blockEnd]⟩
def indentlessItem : Place := ⟨true, false, [.blockEntry, .key, .value, .blockEnd]⟩
def blockPart : Place := ⟨true, true, [.key, .value, .blockEnd]⟩
def document : Place :=
  ⟨true, false, [.documentStart, .documentEnd, .streamEnd]⟩
def bareDocument : Place := ⟨true, false, []⟩
def flowItem : Place := ⟨false, false, []⟩
def sequenceKey : Place := ⟨false, false, [.value, .flowEntry, .flowSequenceEnd]⟩
def sequenceValue : Place := ⟨false, false, [.flowEntry, .flowSequenceEnd]⟩
def mappingKey : Place := ⟨false, false, [.value, .flowEntry, .flowMappingEnd]⟩
def mappingValue : Place := ⟨false, false, [.flowEntry, .flowMappingEnd]⟩

end Place

def ofScalar (p : Properties) (plain : Bool) (text : String) (scope : Scope) (rest : List Token) :
    Read Node :=
  let node := scalar (p.scalarTag plain text) text
  { result := node, scope := scope.leave p.anchor node, rest }

/-- A node of nothing but its properties, if it has any. -/
def bare (p : Properties) (scope : Scope) (ts : List Token) : Except Stop (Read Node) :=
  if p.isEmpty then .error .malformed else .ok (ofScalar p true "" scope ts)

mutual

def parse : Nat → Place → Scope → List Token → Except Stop (Read Node)
  | 0, _, _, _ => .error .malformed
  | n + 1, place, scope, ts =>
      match ts with
      | [] => .error .exhausted
      | .alias name :: rest =>
          match scope.resolve? name with
          | some node => .ok { result := node, scope, rest }
          | none => .error .malformed
      | ts =>
          match properties scope ts with
          | (none, _) => .error .malformed
          | (some p, ts) =>
              if p.anchor.any scope.declares then .error .malformed
              else content n place p scope ts

def content : Nat → Place → Properties → Scope → List Token → Except Stop (Read Node)
  | 0, _, _, _, _ => .error .malformed
  | n + 1, place, p, scope, ts =>
      match ts with
      | [] => .error .exhausted
      | .scalar text plain :: rest => .ok (ofScalar p plain text scope rest)
      | .flowSequenceStart :: rest => do
          let r ← flowItems n (scope.enter p.anchor false) rest
          return r.close p (sequence (p.collectionTag .seq) r.result)
      | .flowMappingStart :: rest => do
          let r ← flowPairs n (scope.enter p.anchor true) rest
          return r.close p (mapping (p.collectionTag .map) r.result)
      | .blockSequenceStart :: rest =>
          if place.block then do
            let r ← blockItems n (scope.enter p.anchor false) rest
            return r.close p (sequence (p.collectionTag .seq) r.result)
          else bare p scope (.blockSequenceStart :: rest)
      | .blockMappingStart :: rest =>
          if place.block then do
            let r ← blockPairs n (scope.enter p.anchor true) rest
            return r.close p (mapping (p.collectionTag .map) r.result)
          else bare p scope (.blockMappingStart :: rest)
      | .blockEntry :: rest =>
          if place.indentless then do
            let r ← indentlessItems n (scope.enter p.anchor false) (.blockEntry :: rest)
            return r.close p (sequence (p.collectionTag .seq) r.result)
          else bare p scope (.blockEntry :: rest)
      | other => bare p scope other

/-- Reads a node that may be left out. -/
def item : Nat → Place → Scope → List Token → Except Stop (Read Node)
  | 0, _, _, _ => .error .malformed
  | n + 1, place, scope, ts =>
      match ts with
      | [] => .error .exhausted
      | t :: rest =>
          if place.ends.contains t then .ok { result := .empty, scope, rest := t :: rest }
          else parse n place scope (t :: rest)

def valueOf : Nat → Place → Scope → List Token → Except Stop (Read Node)
  | 0, _, _, _ => .error .malformed
  | n + 1, place, scope, ts =>
      match ts with
      | [] => .error .exhausted
      | .value :: rest => item n place scope rest
      | other => .ok { result := .empty, scope, rest := other }

def pair : Nat → Place → Place → Scope → List Token → Except Stop (Read (Node × Node))
  | 0, _, _, _, _ => .error .malformed
  | n + 1, keyPlace, valuePlace, scope, ts => do
      let k ← item n keyPlace scope ts
      let v ← valueOf n valuePlace k.scope k.rest
      return v.put (k.result, v.result)

def blockItems : Nat → Scope → List Token → Except Stop (Read (List Node))
  | 0, _, _ => .error .malformed
  | n + 1, scope, ts =>
      match ts with
      | [] => .error .exhausted
      | .blockEntry :: rest => do
          let first ← item n .blockItem scope rest
          let more ← blockItems n first.scope first.rest
          return more.put (first.result :: more.result)
      | .blockEnd :: rest => .ok { result := [], scope, rest }
      | _ => .error .malformed

/-- Reads the items of a block sequence that is not indented; it ends before any other token. -/
def indentlessItems : Nat → Scope → List Token → Except Stop (Read (List Node))
  | 0, _, _ => .error .malformed
  | n + 1, scope, ts =>
      match ts with
      | [] => .error .exhausted
      | .blockEntry :: rest => do
          let first ← item n .indentlessItem scope rest
          let more ← indentlessItems n first.scope first.rest
          return more.put (first.result :: more.result)
      | other => .ok { result := [], scope, rest := other }

def blockPairs : Nat → Scope → List Token → Except Stop (Read (List (Node × Node)))
  | 0, _, _ => .error .malformed
  | n + 1, scope, ts =>
      match ts with
      | [] => .error .exhausted
      | .key :: rest => do
          let first ← pair n .blockPart .blockPart scope rest
          let more ← blockPairs n first.scope first.rest
          return more.put (first.result :: more.result)
      | .blockEnd :: rest => .ok { result := [], scope, rest }
      | _ => .error .malformed

/-- Reads items between brackets, at the opening one or behind a comma.  A key makes an item of one
pair. -/
def flowItems : Nat → Scope → List Token → Except Stop (Read (List Node))
  | 0, _, _ => .error .malformed
  | n + 1, scope, ts =>
      match ts with
      | [] => .error .exhausted
      | .flowSequenceEnd :: rest => .ok { result := [], scope, rest }
      | .key :: rest => do
          let first ← pair n .sequenceKey .sequenceValue scope rest
          let more ← moreItems n first.scope first.rest
          return more.put (mapping .map [first.result] :: more.result)
      | ts => do
          let first ← parse n .flowItem scope ts
          let more ← moreItems n first.scope first.rest
          return more.put (first.result :: more.result)

def moreItems : Nat → Scope → List Token → Except Stop (Read (List Node))
  | 0, _, _ => .error .malformed
  | n + 1, scope, ts =>
      match ts with
      | [] => .error .exhausted
      | .flowSequenceEnd :: rest => .ok { result := [], scope, rest }
      | .flowEntry :: rest => flowItems n scope rest
      | _ => .error .malformed

/-- Reads pairs between braces, at the opening one or behind a comma.  A node without the sign of a
key is a key without a value. -/
def flowPairs : Nat → Scope → List Token → Except Stop (Read (List (Node × Node)))
  | 0, _, _ => .error .malformed
  | n + 1, scope, ts =>
      match ts with
      | [] => .error .exhausted
      | .flowMappingEnd :: rest => .ok { result := [], scope, rest }
      | .key :: rest => do
          let first ← pair n .mappingKey .mappingValue scope rest
          let more ← morePairs n first.scope first.rest
          return more.put (first.result :: more.result)
      | ts => do
          let first ← parse n .flowItem scope ts
          let more ← morePairs n first.scope first.rest
          return more.put ((first.result, .empty) :: more.result)

def morePairs : Nat → Scope → List Token → Except Stop (Read (List (Node × Node)))
  | 0, _, _ => .error .malformed
  | n + 1, scope, ts =>
      match ts with
      | [] => .error .exhausted
      | .flowMappingEnd :: rest => .ok { result := [], scope, rest }
      | .flowEntry :: rest => flowPairs n scope rest
      | _ => .error .malformed

end

/-- How deep the readers go: between two tokens a pair reads its key, the key is a node, and the
node has contents. -/
def depthOf (ts : List Token) : Nat := 5 * ts.length + 5

/-- The directives before a document: one version at most, of the first major number, and one
meaning for each handle. -/
structure Prologue where
  versioned : Bool := false
  handles : Table String String := []

def prologue (p : Prologue) : List Token → Except Stop (Table String String × List Token)
  | .directive d :: rest =>
      match d with
      | .version major =>
          if p.versioned || major ≠ 1 then .error .malformed
          else prologue { p with versioned := true } rest
      | .tag handle start =>
          if Table.contains p.handles handle then .error .malformed
          else prologue { p with handles := Table.insert p.handles handle start } rest
      | .reserved => prologue p rest
  | ts => .ok (p.handles ++ Scope.standardHandles, ts)

def epilogue : List Token → Except Stop Unit
  | [] => .error .exhausted
  | .documentEnd :: rest => epilogue rest
  | .streamEnd :: _ => .ok ()
  | _ => .error .malformed

def ofTokens (ts : List Token) : Except Stop (Option Node) := do
  match ts with
  | [] => .error .exhausted
  | .streamEnd :: _ => return none
  | t :: rest =>
      if t matches .directive _ | .documentStart then
        let (handles, ts) ← prologue {} (t :: rest)
        match ts with
        | .documentStart :: rest =>
            match rest with
            | .directive _ :: _ => .error .malformed
            | _ =>
                let r ← item (depthOf rest) .document { handles } rest
                epilogue r.rest
                return some r.result
        | [] => .error .exhausted
        | _ => .error .malformed
      else
        let r ← parse (depthOf (t :: rest)) .bareDocument { handles := Scope.standardHandles } (t :: rest)
        epilogue r.rest
        return some r.result

end Node
end Yaml
end Polyglot
