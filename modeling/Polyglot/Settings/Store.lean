/-
Where configuration comes from: two files and the environment.
-/
import Polyglot.Action
import Polyglot.Config
import Polyglot.Yaml.Document

namespace Polyglot

inductive File where
  | absent
  | text (s : String)
  | undecodable
  | directory
  /-- its directory is itself a file, so it cannot exist -/
  | blocked
  /-- it may be written but not read -/
  | sealed
  /-- it takes every text and holds none -/
  | sink
  /-- its directory does not even tell whether it exists -/
  | hidden
deriving DecidableEq, Repr

namespace File

/-- Why a file cannot be opened for writing. -/
def refusal? : File → Option FileFault
  | blocked => some .occupied
  | directory => some .directory
  | hidden => some .forbidden
  | _ => none

def written (s : String) : File → File
  | sealed => .sealed
  | sink => .sink
  | _ => .text s

end File

/-- A file that holds bytes: a text, if the bytes are one in UTF-8. -/
def File.ofBytes (bytes : ByteArray) : File :=
  match String.fromUTF8? bytes with
  | some s => .text s
  | none => .undecodable

inductive Room where
  | ample
  | upTo (characters : Nat)
  | closed
deriving DecidableEq, Repr

structure Store where
  project : File := .absent
  user : File := .absent
  room : Room := .ample
deriving DecidableEq, Repr

namespace Store

def file (s : Store) : Layer → File
  | .project => s.project
  | .user => s.user

def put (s : Store) (layer : Layer) (file : File) : Store :=
  match layer with
  | .project => { s with project := file }
  | .user => { s with user := file }

/-- Writes a text to the place of a file, and tells what went wrong.  Opening a file empties it, so
where there is no room for the whole text its beginning is left. -/
def write (s : Store) (layer : Layer) (text : String) : Store × Option FileFault :=
  let file := s.file layer
  match file.refusal?, s.room with
  | some fault, _ => (s, some fault)
  | none, .closed => (s, some .forbidden)
  | none, .ample => (s.put layer (file.written text), none)
  | none, .upTo n =>
      if decide (text.length ≤ n) || file = .sink then (s.put layer (file.written text), none)
      else (s.put layer (file.written (String.ofList (text.toList.take n))), some .full)

def text? (s : Store) (layer : Layer) : Option String :=
  match s.file layer with
  | .text t => some t
  | _ => none

end Store

structure Environment where
  extensions : Option String := none
  names : Option String := none
deriving DecidableEq, Repr

namespace Environment

/-- The data that the variables stand for; an empty variable counts as unset. -/
def data (e : Environment) : Section :=
  let languages : Section :=
    match e.extensions.filter (!·.isEmpty) with
    | some value =>
        let entries := (Config.parseExtensions value).map fun (ext, name) =>
          (Config.textKey ext, Value.scalar (.text name))
        [(Config.textKey "languages", .map [(Config.textKey "extensions", .map entries)])]
    | none => []
  let highlight : Section :=
    match e.names.filter (!·.isEmpty) with
    | some value =>
        let items := (Config.parseNames value).map fun name => Value.scalar (.text name)
        [(Config.textKey "highlight", .map [(Config.textKey "names", .list items)])]
    | none => []
  languages ++ highlight

end Environment

/-- The data of one file.  A file that is no document is passed over, and so is a document that is
no table; a void document says nothing. -/
def File.data (layer : Layer) : File → Except Fault (Section × List Notice)
  | .absent | .blocked | .sink => .ok ([], [])
  | .directory | .sealed => .ok ([], [.fileSkipped layer])
  | .undecodable => .error (.file .undecodable)
  | .hidden => .error (.file .forbidden)
  | .text s =>
      match Yaml.read s with
      | .error .malformed => .ok ([], [.fileSkipped layer])
      | .error fault => .error (.document fault)
      | .ok (.map entries) => .ok (entries, [])
      | .ok v => if v.isVoid then .ok ([], []) else .ok ([], [.fileNotMapping layer])

end Polyglot
