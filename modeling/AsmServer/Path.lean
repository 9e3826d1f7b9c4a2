import AsmServer.Text.Basic

/-!
# File paths

Paths are texts with slashes between their components. Repeated slashes, a slash
at the end and every `.` but a leading one are spelling only: two paths are the
same when their components are. Taking the parent keeps the spelling of what
remains.

A path that climbs with `..` is resolved by its text alone. `Descent` is the
outcome: a number of steps up, then names down.
-/

namespace AsmServer

namespace Path

/-- A component of a path, in the order in which paths sort. -/
inductive Component where
  | root
  | here
  | up
  | name (text : Text)
  deriving DecidableEq, Ord, Repr

/-- Whether the path starts at the root. -/
def isAbsolute (path : Text) : Bool := path.head? = some '/'

/-- Whether the text between two slashes is no component. -/
def isVacant (segment : Text) : Bool := segment = [] || segment = ['.']

/-- The component between two slashes, if it is one. -/
def Component.ofSegment? (segment : Text) : Option Component :=
  if isVacant segment then none
  else if segment = ['.', '.'] then some .up
  else some (.name segment)

/-- The components of a path. -/
def components (path : Text) : List Component :=
  let segments := path.splitOn '/'
  let first :=
    if isAbsolute path then [.root]
    else if segments.head? = some ['.'] then [.here]
    else []
  first ++ segments.filterMap Component.ofSegment?

/-- The path `other` as seen from `base`; an absolute path is itself. -/
def append (base other : Text) : Text :=
  if isAbsolute other then other
  else if base = [] ∨ base.getLast? = some '/' then base ++ other
  else base ++ '/' :: other

/-- Drop the segments at the end that are no components. -/
def dropVacantEnd (segments : List Text) : List Text :=
  (segments.reverse.dropWhile isVacant).reverse

/-- The path without its last component. The root and the empty path have no
parent; the parent of a lone component is the empty path. -/
def parent? (path : Text) : Option Text :=
  let (first, body) : Text × Text :=
    if isAbsolute path then (['/'], path.tail)
    else if (path.splitOn '/').head? = some ['.'] then (['.'], path.tail)
    else ([], path)
  match dropVacantEnd (body.splitOn '/') with
  | [] => if first = ['.'] then some [] else none
  | segments => some (first ++ Text.join ['/'] (dropVacantEnd segments.dropLast))

/-- The name of the file a path points at. -/
def fileName? (path : Text) : Option Text :=
  match (components path).getLast? with
  | some (.name text) => some text
  | _ => none

/-- What follows the last dot of the file name. A dot in front starts a hidden
name and no extension. -/
def extension? (path : Text) : Option Text := do
  let (before, after) ← Text.cutAtLast? ['.'] (← fileName? path)
  if before = [] then none else some after

/-- Drop every leading `./`. -/
def dropHere : Text → Text
  | '.' :: '/' :: rest => dropHere rest
  | path => path

/-- Steps up and names down, without any detour. -/
structure Descent where
  ups : Nat
  names : List Text
  deriving DecidableEq, Repr

namespace Descent

/-- Follow one component; the root and `.` lead nowhere new. -/
def follow (path : Descent) : Component → Descent
  | .root => path
  | .here => path
  | .up =>
    if path.names = [] then { path with ups := path.ups + 1 }
    else { path with names := path.names.dropLast }
  | .name text => { path with names := path.names ++ [text] }

/-- Follow all components from where one stands. -/
def ofComponents (components : List Component) : Descent := components.foldl follow ⟨0, []⟩

/-- Spelling of a descent. -/
def toText (path : Descent) : Text :=
  Text.join ['/'] (List.replicate path.ups ['.', '.'] ++ path.names)

end Descent

end Path

end AsmServer
