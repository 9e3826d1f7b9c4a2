import AsmServer.Workspace.Sources

/-!
# Reading real files

A path is followed through the directories one component at a time, so `..` leads
out of a directory only if that directory exists. Directories exist because of the
files below them. Only regular files count as existing sources; reading anything
else fails, and so does reading bytes that are no text.
-/

namespace AsmServer

/-- Why a file cannot be read. -/
inductive ReadError where
  | notFound
  | isADirectory
  | notADirectory
  | invalidData
  deriving DecidableEq, Repr

namespace FileSystem

/-- What a path leads to. -/
inductive Node where
  | directory (place : List Text)
  | file (data : FileData)

/-- Regular files by the names on the way from the root. -/
abbrev Files := List (List Text × FileData)

/-- What is at a place: a file, or a directory if the place is the root or above a
file. -/
def node? (files : Files) (place : List Text) : Option Node :=
  match files.lookup place with
  | some data => some (.file data)
  | none =>
    if place = [] || files.any (fun (file, _) => place.isPrefixOf file) then
      some (.directory place)
    else none

/-- Follow one component from a node. -/
def follow (files : Files) (node : Node) (component : Path.Component) : Except ReadError Node :=
  match node with
  | .file _ => .error .notADirectory
  | .directory place =>
    let next :=
      match component with
      | .root => []
      | .here => place
      | .up => place.dropLast
      | .name text => place ++ [text]
    match node? files next with
    | some node => .ok node
    | none => .error .notFound

/-- What a path leads to. A path that ends with a slash or a dot leads to a
directory. -/
def locate (files : Files) (path : Text) : Except ReadError Node := do
  let node ← (Path.components path).foldlM (follow files) (.directory [])
  if (path.splitOn '/').getLast?.any Path.isVacant && path ≠ [] then
    follow files node .here
  else return node

/-- Whether a path leads to a regular file. -/
def isFile (files : Files) (path : Text) : Bool :=
  match locate files path with
  | .ok (.file _) => true
  | _ => false

/-- The text of the file that a path leads to. -/
def read (files : Files) (path : Text) : Except ReadError Text :=
  match locate files path with
  | .ok (.file (.text text)) => .ok text
  | .ok (.file .binary) => .error .invalidData
  | .ok (.directory _) => .error .isADirectory
  | .error error => .error error

end FileSystem

end AsmServer
