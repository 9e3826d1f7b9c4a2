/-!
# Catalogs

A catalog is a finite map kept as a list of entries in increasing order of their
keys, so that listing it is reading it. Every change goes through `alter`, which
puts a new key in its place and leaves the spelling of a present key alone.
-/

namespace AsmServer

/-- Entries in increasing order of their keys, one for each key. -/
abbrev Catalog (κ α : Type) := List (κ × α)

namespace Catalog

variable {κ α : Type} [Ord κ]

/-- Give `key` the value that `change` makes of its present value, if any. -/
def alter (key : κ) (change : Option α → α) : Catalog κ α → Catalog κ α
  | [] => [(key, change none)]
  | (k, value) :: rest =>
    match compare key k with
    | .lt => (key, change none) :: (k, value) :: rest
    | .eq => (k, change (some value)) :: rest
    | .gt => (k, value) :: alter key change rest

/-- Add `value` under `key`, unless the key has a value already. -/
def insertNew (key : κ) (value : α) (catalog : Catalog κ α) : Catalog κ α :=
  alter key (·.getD value) catalog

/-- The value under `key`. -/
def find? (key : κ) (catalog : Catalog κ α) : Option α :=
  (List.find? (fun entry => compare key entry.1 == .eq) catalog).map (·.2)

/-- The keys, in order. -/
def keys (catalog : Catalog κ α) : List κ := catalog.map (·.1)

/-- The catalog of a list of entries; of entries with one key the first counts. -/
def ofList (entries : List (κ × α)) : Catalog κ α :=
  entries.foldl (fun catalog (key, value) => insertNew key value catalog) []

end Catalog

end AsmServer
