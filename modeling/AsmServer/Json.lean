import AsmServer.Text.Basic

/-!
# JSON values

Settings and the payloads of completion items arrive as JSON of any shape. They
are read by questions that answer `none` when the value has another shape.
-/

namespace AsmServer

/-- A JSON value. A number with a fraction or an exponent is a decimal: it keeps
its written form, and no question below reads it as an integer. -/
inductive Json where
  | null
  | bool (value : Bool)
  | int (value : Int)
  | decimal (written : Text)
  | str (value : Text)
  | arr (items : List Json)
  | obj (fields : List (Text × Json))
  deriving Inhabited

namespace Json

/-- The member `name` of an object. -/
def field? (name : Text) : Json → Option Json
  | obj fields => fields.lookup name
  | _ => none

/-- The text of a string. -/
def text? : Json → Option Text
  | str value => some value
  | _ => none

/-- The value of an integer. -/
def int? : Json → Option Int
  | int value => some value
  | _ => none

/-- The items of an array. -/
def items? : Json → Option (List Json)
  | arr items => some items
  | _ => none

end Json

end AsmServer
