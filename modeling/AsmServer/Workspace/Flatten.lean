import AsmServer.Assembly.Run
import AsmServer.Workspace.Registry

/-!
# Flattening the include tree

The assembler gets the includes as a map from names to texts. The name of a file is
its include name seen from the directory of the including file's name, with every
detour resolved, so that `sub/a.h` including `b.h` yields `sub/b.h`. The tree is
walked depth first, and of two files with one name the first counts. A file without
a text is left out with everything it would include.

A file that includes itself, directly or through others, makes the walk fail at the
include that closes the cycle.
-/

namespace AsmServer

/-- Why a project cannot be assembled. -/
inductive ProjectError where
  | noEntry
  | entryNotLoaded (uri : Uri)
  /-- The files along the cycle, the first again at the end, and the include that
  closes it. -/
  | includeCycle (chain : List Uri) (file : Uri) (range : Range)
  deriving DecidableEq, Repr

/-- Wording of the error. -/
def ProjectError.message : ProjectError → Text
  | noEntry => "project has no entry file".toList
  | entryNotLoaded uri => "entry file has no content: ".toList ++ uri.text
  | includeCycle chain _ _ =>
    "include cycle: ".toList ++ Text.join " -> ".toList (chain.map Uri.fileName)

namespace Registry

/-- The name under which an include is handed over, where `dir` is the directory of
the including file's name. An absolute name stays as it is. -/
def includeKey (dir name : Text) : Text :=
  let name := Text.slashed name
  if Path.isAbsolute name then name
  else (Path.Descent.ofComponents (Path.components (Path.append dir name))).toText

/-- The directory of a name. -/
def keyDir (key : Text) : Text := (Path.parent? key).getD []

/-- Follow one edge of the file `uri`, where `stack` leads from the entry file to it
and `descend` walks the files below. -/
def followEdge (r : Registry)
    (descend : Uri → Text → List Uri → Assembly.Includes → Except ProjectError Assembly.Includes)
    (uri : Uri) (dir : Text) (stack : List Uri) (includes : Assembly.Includes)
    (edge : Dependency) : Except ProjectError Assembly.Includes :=
  if edge.uri ∈ stack then
    .error (.includeCycle (stack.dropWhile (· ≠ edge.uri) ++ [edge.uri]) uri edge.range)
  else
    match (r.find? edge.uri).bind (·.contents?) with
    | none => .ok includes
    | some text =>
      let key := includeKey dir edge.name
      descend edge.uri (keyDir key) (stack ++ [edge.uri]) (includes.insertNew key text)

/-- Add everything below the file `uri`, at most `depth` files deep. -/
def walk (r : Registry) : Nat → Uri → Text → List Uri → Assembly.Includes →
    Except ProjectError Assembly.Includes
  | 0, _, _, _, includes => .ok includes
  | depth + 1, uri, dir, stack, includes =>
    match r.find? uri with
    | none => .ok includes
    | some file => file.dependencies.foldlM (r.followEdge (r.walk depth) uri dir stack) includes

/-- The includes below the entry file. The files on the way to a file are all
different, so the tree is no deeper than there are files. -/
def flatten (r : Registry) : Except ProjectError Assembly.Includes :=
  match r.entryFile? with
  | none => .error .noEntry
  | some entry => r.walk r.files.length entry.uri [] [entry.uri] []

end Registry

end AsmServer
