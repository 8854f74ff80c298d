/-
Values of attributes.

A value is null, a truth value, a 64-bit integer, a binary64 number or a
text. Outlines write a text in double quotes and every other value as a
bare token; `ofToken?` says which value a token stands for. A token with
a point or an `e` in it can only be a binary64 number, so that `1e3` is
never an integer.
-/
import TaskTree.Number.Shortest
import TaskTree.Text.Escape

namespace TaskTree.Outline

/-- The value of an attribute. -/
inductive Literal where
  | null
  | bool (value : Bool)
  | int (value : Int64)
  | float (value : Float)
  | text (value : String)
  deriving DecidableEq

namespace Literal

/-- Whether a character makes a token a binary64 number. -/
def marksFloat (c : Char) : Bool := c = '.' || c = 'e' || c = 'E'

/-- The value that a bare token stands for. -/
def ofToken? (token : List Char) : Option Literal :=
  if token = ['t', 'r', 'u', 'e'] then some (.bool true)
  else if token = ['f', 'a', 'l', 's', 'e'] then some (.bool false)
  else if token = ['n', 'u', 'l', 'l'] then some .null
  else if token.any marksFloat then (Numeral.read token).map fun n =>
    .float n.toFloat
  else (readInt64 token).map .int

/-- The name of a value's type. -/
def typeName : Literal → String
  | .null => "null"
  | .bool _ => "boolean"
  | .int _ => "integer"
  | .float _ => "float"
  | .text _ => "string"

/-- Whether the value is null. -/
def isNull : Literal → Bool
  | .null => true
  | _ => false

/-- The truth value, if it is one. -/
def bool? : Literal → Option Bool
  | .bool value => some value
  | _ => none

/-- The integer, if it is one. -/
def int? : Literal → Option Int64
  | .int value => some value
  | _ => none

/-- The number as binary64; an integer is rounded to the nearest. -/
def float? : Literal → Option Float
  | .float value => some value
  | .int value => some (Binary64.ofInt value.toInt)
  | _ => none

/-- The text, if it is one. -/
def text? : Literal → Option String
  | .text value => some value
  | _ => none

/-- The value as outlines write it. -/
def shown : Literal → String
  | .null => "null"
  | .bool true => "true"
  | .bool false => "false"
  | .int value => toString value.toInt
  | .float value => Binary64.text value
  | .text value => Text.quotedValue value

/-- The value in descriptions of a structure. -/
def description : Literal → String
  | .null => "Null"
  | .bool true => "Bool(true)"
  | .bool false => "Bool(false)"
  | .int value => "Int(" ++ toString value.toInt ++ ")"
  | .float value => "Float(" ++ Binary64.text value ++ ")"
  | .text value => "Str(" ++ Text.quotedName value ++ ")"

end Literal

end TaskTree.Outline
