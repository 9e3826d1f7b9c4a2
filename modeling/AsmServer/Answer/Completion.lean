import AsmServer.Answer.Hover
import AsmServer.Json.Form
import AsmServer.Session.Config

/-!
# Completion

Completion offers every word of the language, in the case that the configuration
prefers, and every symbol of the latest assembly. An item carries a payload that
says what it stands for. Resolving an item reads the payload back and fills in the
texts about it; an item without a payload of this form stays as it is, but for what no
item has.
-/

namespace AsmServer

/-- What a completion item stands for. -/
inductive CompletionTarget where
  | instruction (name : Text)
  | pseudoOp (name : Text)
  | register (name : Text)
  | symbol (name : Text) (value : Int)
  | label (name : Text) (value : Int)
  deriving DecidableEq, Repr

namespace CompletionTarget

/-- The payload of a target: an object that names its type. -/
def toJson (target : CompletionTarget) : Json :=
  let named (type : String) (name : Text) : List (Text × Json) :=
    [("type".toList, .str type.toList), ("name".toList, .str name)]
  match target with
  | instruction name => .obj (named "instruction" name)
  | pseudoOp name => .obj (named "pseudoOp" name)
  | register name => .obj (named "register" name)
  | symbol name value => .obj (named "symbol" name ++ [("value".toList, .int value)])
  | label name value => .obj (named "label" name ++ [("value".toList, .int value)])

/-- Whether a value is a signed number of 64 bits. -/
def isValue (value : Int) : Bool := -(Text.bound63 : Int) ≤ value && value < Text.bound63

/-- The value that a target carries. -/
def value? (json : Json) : Option Int := json.int?.filter isValue

/-- A word of the language, by its type. -/
def ofWord? (type name : Text) : Option CompletionTarget :=
  if type = "instruction".toList then some (.instruction name)
  else if type = "pseudoOp".toList then some (.pseudoOp name)
  else if type = "register".toList then some (.register name)
  else none

/-- A name of the program, by its type. -/
def ofName? (type name : Text) (value : Int) : Option CompletionTarget :=
  if type = "symbol".toList then some (.symbol name value)
  else if type = "label".toList then some (.label name value)
  else none

/-- The target that a payload stands for. Members of an object that are not needed are of
no account. An array lists the type, the name and the value without their names, and
nothing else. -/
def ofJson? : Json → Option CompletionTarget
  | .arr [.str type, .str name] => ofWord? type name
  | .arr [.str type, .str name, value] => do ofName? type name (← value? value)
  | payload => do
    let type ← (← payload.field? "type".toList).text?
    let name ← (← payload.field? "name".toList).text?
    (ofWord? type name).or do
      ofName? type name (← value? (← payload.field? "value".toList))

/-- The paragraphs about a pseudo-op, and its other names. -/
def pseudoOpText (op : PseudoOp) : Text :=
  let others :=
    if op.otherNames = [] then []
    else "\n\nAlso: `".toList ++ Text.join "`, `".toList op.otherNames ++ "`".toList
  Text.join "\n\n".toList op.documentation ++ others

/-- Detail and documentation of a target, if it is known. -/
def describe? : CompletionTarget → Option (Text × Text)
  | instruction name =>
    (Language.instruction? name).map fun i => (i.description, i.group ++ " instruction".toList)
  | pseudoOp name => (Language.pseudoOp? name).map fun op => (op.description, pseudoOpText op)
  | register name =>
    (Language.register? name).map fun register =>
      (register.description, Text.ofNat 10 register.bits ++ "-bit register".toList)
  | symbol name value =>
    some ("Symbol ".toList ++ name ++ " with value ".toList ++ Text.ofInt value, valueText value)
  | label name value =>
    some ("Label ".toList ++ name ++ " at address ".toList ++ Text.ofInt value, valueText value)

end CompletionTarget

/-- The documentation of an item. -/
inductive Documentation where
  | plain (text : Text)
  | markup (kind text : Text)
  deriving DecidableEq, Repr

namespace Documentation

/-- Documentation in Markdown. -/
def markdown (text : Text) : Documentation := markup "markdown".toList text

/-- The form of documentation. -/
def form : Json.Form :=
  .either .text <| .needs "kind" .text <| .needs "value" .text .object

/-- Documentation as a value. -/
def toJson : Documentation → Json
  | plain text => .str text
  | markup kind text => .obj [("kind".toList, .str kind), ("value".toList, .str text)]

/-- The documentation that a value stands for. -/
def ofJson? : Json → Option Documentation
  | .str text => some (.plain text)
  | json => do
    let kind ← (← json.field? "kind".toList).text?
    let text ← (← json.field? "value".toList).text?
    some (.markup kind text)

end Documentation

/-- An item offered to complete a word. -/
structure CompletionItem where
  label : Text
  /-- The kind that the editor shows. -/
  kind? : Option Int := none
  detail? : Option Text := none
  documentation? : Option Documentation := none
  /-- The payload. -/
  data? : Option Json := none
  /-- Members that are passed through. -/
  others : List (Text × Json) := []

namespace CompletionItem

/-- Kind of a label: function. -/
def functionKind : Nat := 3

/-- Kind of a register: variable. -/
def variableKind : Nat := 6

/-- Kind of a mnemonic or pseudo-op: keyword. -/
def keywordKind : Nat := 14

/-- Kind of a value: constant. -/
def constantKind : Nat := 21

/-- An item for a target. -/
def of (label : Text) (kind : Int) (target : CompletionTarget) : CompletionItem :=
  { label, kind? := some kind, data? := some target.toJson }

/-- A word of the language in the preferred case. -/
def cased (uppercase : Bool) (name : Text) : Text :=
  if uppercase then Text.upper name else Text.lower name

/-- The item of a symbol. -/
def ofSymbol (symbol : Symbol) : CompletionItem :=
  if symbol.isLabel then of symbol.name functionKind (.label symbol.name symbol.value)
  else of symbol.name constantKind (.symbol symbol.name symbol.value)

/-- Every item: instructions, pseudo-ops under all their names, registers, symbols. -/
def all (result? : Option AssemblyResult) (prefer : CasePreference) : List CompletionItem :=
  (Language.instructions.map fun i =>
      of (cased prefer.instructions i.name) keywordKind (.instruction i.name)) ++
    (Language.pseudoOps.flatMap fun op => op.names.map fun name =>
      of (cased prefer.pseudoOps name) keywordKind (.pseudoOp op.name)) ++
    (Language.registers.map fun register =>
      of (cased prefer.registers register.name) variableKind (.register register.name)) ++
    ((result?.map (·.symbols)).getD []).map ofSymbol

/-! ## Items as values -/

/-- The form of an edit. -/
def editForm : Json.Form := .needs "range" Json.rangeForm <| .needs "newText" .text .object

/-- The form of an edit that either inserts or replaces. -/
def insertForm : Json.Form :=
  .needs "newText" .text <| .needs "insert" Json.rangeForm <|
    .needs "replace" Json.rangeForm .object

/-- The form of an item. -/
def form : Json.Form :=
  .allows "label" .text <|
  .allows "labelDetails" (.allows "detail" .text <| .allows "description" .text .object) <|
  .allows "kind" .any <|
  .allows "detail" .text <|
  .allows "documentation" Documentation.form <|
  .allows "deprecated" .any <|
  .allows "preselect" .any <|
  .allows "sortText" .text <|
  .allows "filterText" .text <|
  .allows "insertText" .text <|
  .allows "insertTextFormat" .any <|
  .allows "insertTextMode" .any <|
  .allows "textEdit" (.either editForm insertForm) <|
  .allows "additionalTextEdits" (.list editForm) <|
  .allows "command" (.needs "title" .text <| .needs "command" .text <|
    .allows "arguments" (.list .any) .object) <|
  .allows "commitCharacters" (.list .text) <|
  .allows "data" .any <|
  .allows "tags" (.list .any) .object

/-- Members that an item has of its own. -/
def ownMembers : List Text :=
  ["label", "kind", "detail", "documentation", "data"].map String.toList

/-- The item that a value stands for. -/
def ofJson (json : Json) : CompletionItem :=
  let members := form.members json
  { label := ((members.lookup "label".toList).bind Json.text?).getD []
    kind? := (members.lookup "kind".toList).bind Json.int?
    detail? := (members.lookup "detail".toList).bind Json.text?
    documentation? := (members.lookup "documentation".toList).bind Documentation.ofJson?
    data? := members.lookup "data".toList
    others := members.filter (!ownMembers.contains ·.1) }

/-- An item as a value. -/
def toJson (item : CompletionItem) : Json :=
  .obj ([("label".toList, .str item.label)] ++
    (item.kind?.map fun kind => ("kind".toList, .int kind)).toList ++
    (item.detail?.map fun detail => ("detail".toList, .str detail)).toList ++
    (item.documentation?.map fun text => ("documentation".toList, text.toJson)).toList ++
    (item.data?.map fun data => ("data".toList, data)).toList ++ item.others)

/-! ## Resolving -/

/-- Fill in the texts about an item. -/
def resolve (item : CompletionItem) : CompletionItem :=
  match (item.data?.bind CompletionTarget.ofJson?).bind CompletionTarget.describe? with
  | none => item
  | some (detail, text) =>
    { item with detail? := some detail, documentation? := some (.markdown text) }

end CompletionItem

end AsmServer
