/-
This file holds the tree of a JSON value.
-/

namespace LightList

inductive Json.Number where
  | integer (value : Int)
  | float (value : Float)

/-- The members of an object keep the order in which they are written. -/
inductive Json where
  | null
  | boolean (value : Bool)
  | number (value : Json.Number)
  | string (value : String)
  | array (items : List Json)
  | object (members : List (String × Json))

namespace Json

def ofId (id : Int64) : Json := .number (.integer id.toInt)

def ofFloat (value : Float) : Json := .number (.float value)

def ofText? : Option String → Json
  | none => .null
  | some text => .string text

end Json

end LightList
