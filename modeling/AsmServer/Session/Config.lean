import AsmServer.Json
import AsmServer.Path
import AsmServer.Workspace.Debouncer

/-!
# Configuration

A session is configured with the delay of updates, the assembler to run and the
words to offer in upper case. Editors change the last two while the session runs,
through settings in a section of their own. Settings of another shape are ignored.
-/

namespace AsmServer

/-- Which words completion offers in upper case. -/
structure CasePreference where
  instructions : Bool := false
  pseudoOps : Bool := false
  registers : Bool := false
  deriving DecidableEq, Repr

namespace CasePreference

/-- Upper case for every word. -/
def all : CasePreference := ⟨true, true, true⟩

/-- Add what a name in the settings stands for; other names stand for nothing. -/
def add (prefer : CasePreference) (name : Text) : CasePreference :=
  if name = "instructions".toList then { prefer with instructions := true }
  else if name = "pseudoops".toList then { prefer with pseudoOps := true }
  else if name = "registers".toList then { prefer with registers := true }
  else if name = "all".toList then all
  else prefer

/-- The preference that the settings list by name. -/
def ofNames (names : List Text) : CasePreference := names.foldl add {}

end CasePreference

/-- The configuration of a session. -/
structure Config where
  /-- Milliseconds that updates are held back. -/
  delay : Nat := defaultDelay
  /-- The assembler to run. -/
  assembler : Text := "dasm".toList
  prefer : CasePreference := {}
  deriving DecidableEq, Repr

namespace Settings

/-- The section of the settings that is for this server. -/
def sectionName : Text := "vscode-dasm".toList

/-- A member of that section. -/
def member? (settings : Json) (name : String) : Option Json :=
  (settings.field? sectionName).bind (Json.field? name.toList)

/-- The preferred case, if the settings list it. Items that are no strings are
passed over. -/
def prefer? (settings : Json) : Option CasePreference :=
  ((member? settings "preferUppercase").bind Json.items?).map fun items =>
    .ofNames (items.filterMap Json.text?)

/-- The assembler, if the settings name one. -/
def assembler? (settings : Json) : Option Text := do
  let path := Text.trim (← (← member? settings "dasmPath").text?)
  if path = [] then none else some path

end Settings

/-- Take over the settings: the new configuration, and the assembler if it is another
one than before. -/
def Config.apply (config : Config) (settings : Json) : Config × Option Text :=
  let config := { config with prefer := (Settings.prefer? settings).getD config.prefer }
  match Settings.assembler? settings with
  | none => (config, none)
  | some path =>
    if Path.components path = Path.components config.assembler then (config, none)
    else ({ config with assembler := path }, some path)

end AsmServer
