import AsmServer.Uri.Percent
import AsmServer.Path

/-!
# File URIs

A file is known by one canonical URI. Its path is rooted and has neither empty
segments nor `.` and `..`, a drive letter in front is lower case, and everything
outside a fixed set of characters is percent-encoded, so that all spellings of a
path give the same key. URIs of other schemes, such as unsaved buffers, keep their
text and have only their escapes made uniform.
-/

namespace AsmServer

/-- A URI, used as the identity of a document. -/
structure Uri where
  text : Text
  deriving DecidableEq, Repr

instance : Ord Uri := ⟨fun a b => compare a.text b.text⟩

/-- Why a URI has no answer to a question about it. -/
inductive UriError where
  | notAFile (uri : Uri)
  | invalid (uri : Uri)
  deriving DecidableEq, Repr

/-- Wording of an error. -/
def UriError.message : UriError → Text
  | notAFile uri => "not a file URI: ".toList ++ uri.text
  | invalid uri => "invalid URI: ".toList ++ uri.text

namespace Uri

/-- What every canonical file URI starts with. -/
def fileScheme : Text := "file://".toList

/-- Whether a rooted path starts with a drive letter and a colon. -/
def hasDrive : Text → Bool
  | '/' :: letter :: ':' :: _ => letter.isAlpha
  | _ => false

/-- Lower-case the drive letter of a rooted path. -/
def lowerDrive : Text → Text
  | '/' :: letter :: ':' :: rest =>
    if letter.isAlpha then '/' :: Text.lowerChar letter :: ':' :: rest
    else '/' :: letter :: ':' :: rest
  | path => path

/-- Follow one segment down a list of names, the innermost first. Climbing above
the root stays at the root. -/
def followSegment (names : List Text) (segment : Text) : List Text :=
  if Path.isVacant segment then names
  else if segment = ['.', '.'] then names.tail
  else segment :: names

/-- The rooted path without empty segments, `.` and `..`. -/
def collapse (path : Text) : Text :=
  match (path.splitOn '/').foldl followSegment [] with
  | [] => ['/']
  | names => names.reverse.flatMap ('/' :: ·)

/-- Canonical form of a path: slashes, rooted, collapsed, drive in lower case. -/
def canonicalPath (path : Text) : Text := lowerDrive (collapse (Text.slashed path))

/-- The canonical URI of a path. -/
def ofPath (path : Text) : Uri := ⟨fileScheme ++ Percent.encode (canonicalPath path)⟩

/-- The path of a decoded URI with the file scheme. The local host may be named. -/
def filePath? (decoded : Text) : Option Text :=
  match Text.afterLead? fileScheme decoded with
  | some rest => some ((Text.afterLead? "localhost".toList rest).getD rest)
  | none => Text.afterLead? "file:".toList decoded

/-- The canonical URI of any spelling. -/
def ofText (raw : Text) : Uri :=
  let decoded := Percent.decode raw
  match filePath? decoded with
  | some path => ofPath path
  | none => ⟨Percent.encode decoded⟩

/-- Whether the URI names a file. -/
def isFile (uri : Uri) : Bool := fileScheme.isPrefixOf uri.text

/-- The path of a file URI, with a slash in front. -/
def decodedPath (uri : Uri) : Except UriError Text :=
  match Text.afterLead? fileScheme uri.text with
  | some rest => .ok (Percent.decode rest)
  | none => .error (.notAFile uri)

/-- The path to open the file by: no slash stands before a drive letter. -/
def platformPath (uri : Uri) : Except UriError Text := do
  let path ← uri.decodedPath
  return if hasDrive path then path.tail else path

/-- The directory that holds the file. -/
def parentDir (uri : Uri) : Except UriError Text := do
  let path ← uri.platformPath
  return (Path.parent? path).getD ['/']

/-- The decoded text after the last slash. -/
def fileName (uri : Uri) : Text := Text.takeEndWhile (· ≠ '/') (Percent.decode uri.text)

/-- Whether the path ends with `name` at the boundary of a segment. The assembler
names files as the include directives do, so this finds the file meant. -/
def endsWithPath (uri : Uri) (name : Text) : Bool :=
  let tail := Path.dropHere (Text.slashed name)
  if tail = [] then false
  else
    match uri.decodedPath with
    | .error _ => false
    | .ok path =>
      match Text.beforeTail? tail path with
      | some before => before = [] || before.getLast? = some '/'
      | none => false

end Uri

end AsmServer
