import AsmServer.Path
import AsmServer.Catalog

/-!
# Assembly directories

The assembler sees a fresh directory that holds the entry file and every include
under its name. Names may climb with `..`, so the entry lies as many levels deep as
the highest climb needs, and every name then stays inside. Names that lead to no
file below, absolute ones among them, are left out.

The directory is a tree of files in directories. Making a directory or writing a
file fails as the file system would fail; nothing is written after a failure.
-/

namespace AsmServer

/-- Why a directory or a file cannot be made. -/
inductive FileError where
  | isDirectory
  | fileExists
  | notADirectory
  | nulInName
  deriving DecidableEq, Repr

/-- Wording of the failure. -/
def FileError.message : FileError → Text
  | isDirectory => "Is a directory (os error 21)".toList
  | fileExists => "File exists (os error 17)".toList
  | notADirectory => "Not a directory (os error 20)".toList
  | nulInName => "file name contained an unexpected NUL byte".toList

/-- A place in a tree: the names on the way from its root. -/
abbrev Place := List Text

/-- Directories and files; the root is a directory. A file written again counts by
its newest text. -/
structure FileTree where
  directories : List Place := []
  files : List (Place × Text) := []

namespace FileTree

/-- Whether a directory is at the place. -/
def isDirectory (tree : FileTree) (place : Place) : Bool :=
  place = [] || place ∈ tree.directories

/-- The text of the file at the place. -/
def file? (tree : FileTree) (place : Place) : Option Text := tree.files.lookup place

/-- Whether a file stands at a place above this one. -/
def isBlocked (tree : FileTree) (place : Place) : Bool :=
  tree.files.any fun (file, _) => file.isPrefixOf place && file ≠ place

/-- Whether a name on the way cannot be a file name. -/
def hasNul (place : Place) : Bool := place.any ('\x00' ∈ ·)

/-- The places from below the root down to this one. -/
def ancestors (place : Place) : List Place := (List.range place.length).map (place.take <| · + 1)

/-- Make a directory and all directories above it. -/
def makeDirectory (tree : FileTree) (place : Place) : Except FileError FileTree :=
  if hasNul place then .error .nulInName
  else if (tree.file? place).isSome then .error .fileExists
  else if tree.isBlocked place then .error .notADirectory
  else
    .ok { tree with
      directories :=
        tree.directories ++ (ancestors place).filter (!tree.isDirectory ·) }

/-- Write a file into a directory that is there. -/
def write (tree : FileTree) (place : Place) (text : Text) : Except FileError FileTree :=
  if hasNul place then .error .nulInName
  else if tree.isDirectory place then .error .isDirectory
  else if tree.isBlocked place then .error .notADirectory
  else .ok { tree with files := (place, text) :: tree.files }

end FileTree

namespace Assembly

/-- The name under which the entry file is written. -/
def entryName : Text := "__entry__.asm".toList

/-- The include files by name. -/
abbrev Includes := Catalog Text Text

/-- Where an include goes, seen from the entry file; nowhere if its name is
absolute or leads back to where it starts. -/
def target? (name : Text) : Option Path.Descent :=
  if Path.isAbsolute name then none
  else
    let descent := Path.Descent.ofComponents (Path.components name)
    if descent = ⟨0, []⟩ then none else some descent

/-- How deep the entry file must lie for every include to stay inside. -/
def depth (includes : Includes) : Nat :=
  (includes.keys.filterMap target?).foldl (fun depth target => max depth target.ups) 0

/-- The directory of the entry file: levels `d0`, `d1` and so on. -/
def workPlace (depth : Nat) : Place :=
  (List.range depth).map fun level => 'd' :: (toString level).toList

/-- The place of a target seen from `work`, unless it lies above the root. -/
def placeOf? (work : Place) (target : Path.Descent) : Option Place :=
  if target.ups ≤ work.length then
    some (work.take (work.length - target.ups) ++ target.names)
  else none

/-- The directory that holds a place. A place that is reached by climbing alone
lies in the directory one step short of it. -/
def holder (work : Place) (target : Path.Descent) (place : Place) : Place :=
  if target.names = [] then work.take (work.length - (target.ups - 1)) else place.dropLast

/-- A directory in preparation: the tree and the directories to search, in the
order of their paths and as first spelled. -/
structure Layout where
  tree : FileTree := {}
  searchDirs : Catalog (List Path.Component) Text := []

/-- Write one include, and search its directory from now on. -/
def Layout.addInclude (work : Place) (layout : Layout) (name text : Text) :
    Except FileError Layout := do
  match target? name with
  | none => return layout
  | some target =>
    match placeOf? work target with
    | none => return layout
    | some place =>
      let tree ← layout.tree.makeDirectory (holder work target place)
      let tree ← tree.write place text
      let searchDirs :=
        match Path.parent? name with
        | none | some [] => layout.searchDirs
        | some dir => layout.searchDirs.insertNew (Path.components dir) dir
      return { tree, searchDirs }

/-- Lay out the entry file and all includes. -/
def Layout.of (source : Text) (includes : Includes) : Except FileError Layout := do
  let work := workPlace (depth includes)
  let tree ← FileTree.makeDirectory {} work
  let tree ← tree.write (work ++ [entryName]) source
  includes.foldlM (fun layout (name, text) => layout.addInclude work name text) { tree }

end Assembly

end AsmServer
