import AsmServer.Uri.Basic

/-!
# Where texts come from

The text of a file is looked for in two places: among the buffers that the editor
holds open, and on the disk. The disk is a finite set of regular files, each known
by the components of its path; a file whose bytes are no text exists but cannot be
read.
-/

namespace AsmServer

/-- A document as the editor holds it. -/
structure Document where
  uri : Uri
  version : Int
  text : Text
  deriving DecidableEq, Repr

/-- What a file holds. -/
inductive FileData where
  | text (text : Text)
  | binary
  deriving DecidableEq, Repr

/-- The regular files by the components of their paths. -/
abbrev Disk := List (List Path.Component × FileData)

namespace Disk

/-- What the file at a path holds, if there is a file. -/
def file? (disk : Disk) (path : Text) : Option FileData := disk.lookup (Path.components path)

/-- Remove the file at a path. -/
def delete (disk : Disk) (path : Text) : Disk :=
  disk.filter fun (file, _) => file ≠ Path.components path

/-- Give the file at a path new contents. -/
def write (disk : Disk) (path : Text) (data : FileData) : Disk :=
  (Path.components path, data) :: disk.delete path

end Disk

/-- The open buffers, one for each URI. -/
abbrev Buffers := List Document

namespace Buffers

/-- The buffer of a document. -/
def find? (buffers : Buffers) (uri : Uri) : Option Document := List.find? (·.uri == uri) buffers

/-- Close a buffer. -/
def erase (buffers : Buffers) (uri : Uri) : Buffers := buffers.filter (·.uri ≠ uri)

/-- Open a buffer, in place of the one of the same URI. -/
def insert (buffers : Buffers) (document : Document) : Buffers :=
  document :: buffers.erase document.uri

end Buffers

/-- Everything a registry reads from. -/
structure Sources where
  disk : Disk := []
  buffers : Buffers := []

namespace Sources

/-- What the disk holds for a document. -/
def file? (sources : Sources) (uri : Uri) : Option FileData :=
  uri.platformPath.toOption.bind sources.disk.file?

/-- The text that the disk holds for a document. -/
def read? (sources : Sources) (uri : Uri) : Option Text :=
  match sources.file? uri with
  | some (.text text) => some text
  | _ => none

end Sources

end AsmServer
