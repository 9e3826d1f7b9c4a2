import AsmServer.Json.Form
import AsmServer.Uri.Url
import AsmServer.Workspace.Project

/-!
# Links

Every include edge of a document is a link over the argument of its directive. The
entry files of a workspace are links too, without a place of their own. All of them have
targets, so resolving a link changes nothing but the spelling of its target.
-/

namespace AsmServer

/-- A link in a document. -/
structure DocumentLink where
  range : Range := {}
  target : Text
  tooltip? : Option Text := none
  deriving DecidableEq, Repr

namespace DocumentLink

/-- The form of a link. -/
def form : Json.Form :=
  .needs "range" Json.rangeForm <| .allows "target" .text <| .allows "tooltip" .text <|
    .allows "data" .any .object

/-- The target of a link in the spelling of URLs. -/
def settleTarget : Text × Json → Text × Json
  | (name, .str url) =>
    if name = "target".toList then (name, .str (((Url.read? url).map Url.text).getD url))
    else (name, .str url)
  | other => other

/-- A link that comes back from the editor. -/
def resolve (link : Json) : Json := .obj ((form.members link).map settleTarget)

end DocumentLink

/-- The link of an include edge. -/
def Dependency.link? (edge : Dependency) : Option DocumentLink :=
  edge.uri.url?.map fun url => ⟨edge.range, url, some edge.name⟩

/-- The links of a document. -/
def Project.links (p : Project) (uri : Uri) : List DocumentLink :=
  match p.registry.find? uri with
  | none => []
  | some file => file.dependencies.filterMap Dependency.link?

/-- The entry file of every project. -/
def entryLinks (projects : List Project) : List DocumentLink :=
  projects.filterMap fun p => (p.registry.entry?.bind Uri.url?).map fun url => { target := url }

end AsmServer
