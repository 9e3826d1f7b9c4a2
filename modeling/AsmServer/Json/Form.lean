import AsmServer.Json
import AsmServer.Range

/-!
# Forms of JSON values

The editor sends back values that it was given before, or that it made itself. Such a
value has a form, and what the form does not name is dropped from it: members of an
object that are unknown, and members that are null. An object may also be given as the
list of its members in their order.
-/

namespace AsmServer

namespace Json

/-- A form of values. An object is described by its members, one after the other. -/
inductive Form where
  | any
  | text
  | list (item : Form)
  /-- The second form is for values that the first does not fit. -/
  | either (first second : Form)
  /-- An object without further members. -/
  | object
  /-- An object with a member, and with those that the rest describes. -/
  | member (name : Text) (isNeeded : Bool) (value rest : Form)
  deriving Repr, Inhabited

/-- A member that must not be absent. -/
def Form.needs (name : String) (value rest : Form) : Form := .member name.toList true value rest

/-- A member that may be absent. -/
def Form.allows (name : String) (value rest : Form) : Form := .member name.toList false value rest

/-- Take the member `name` from an object, or the next from a list of members. Null counts
as absent. -/
def takeMember? (name : Text) : Json → Option (Option Json × Json)
  | arr (null :: rest) => some (none, arr rest)
  | arr (value :: rest) => some (some value, arr rest)
  | obj fields =>
    match fields.lookup name with
    | some null => some (none, obj fields)
    | value? => some (value?, obj fields)
  | _ => none

/-- What a value is in a form that fits it. -/
def Form.settle? : Form → Json → Option Json
  | any, json => some json
  | text, str t => some (str t)
  | list item, arr items => (items.mapM item.settle?).map arr
  | either first second, json => (first.settle? json).or (second.settle? json)
  | object, obj _ => some (obj [])
  | object, arr [] => some (obj [])
  | member name isNeeded value rest, json => do
    let (given?, others) ← json.takeMember? name
    let obj fields ← rest.settle? others | none
    match given? with
    | none => if isNeeded then none else some (obj fields)
    | some given => return obj ((name, ← value.settle? given) :: fields)
  | _, _ => none

/-- The members of a value in a form, if it fits. -/
def Form.members (form : Form) (json : Json) : List (Text × Json) :=
  match form.settle? json with
  | some (obj fields) => fields
  | _ => []

/-- The form of a place in a document. -/
def positionForm : Form := .needs "line" .any <| .needs "character" .any .object

/-- The form of a range in a document. -/
def rangeForm : Form := .needs "start" positionForm <| .needs "end" positionForm .object

end Json

end AsmServer
