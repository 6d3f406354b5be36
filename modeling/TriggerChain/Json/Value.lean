import TriggerChain.KeyTable

/-!
# JSON values

The values of a JSON text. A number keeps the form of its literal: integers that fit a
signed or an unsigned word of 64 bits are integers, and every other literal is a real,
be its value whole or not. The members of an object stand in ascending order of their
keys, each key once.
-/

namespace TriggerChain

/-- A JSON value. -/
inductive Json where
  | null
  | bool (b : Bool)
  /-- An integer literal that fits a word of 64 bits, with or without a sign. -/
  | integer (i : Int)
  /-- Any other number, as it was written. -/
  | real (literal : String)
  | text (s : String)
  | list (items : List Json)
  | object (members : List (String × Json))
  deriving Repr, Inhabited

namespace Json

/-- What sort of value a JSON value is. -/
inductive Kind where
  | null
  | boolean
  | number
  | string
  | array
  | object
  deriving DecidableEq, Repr, Inhabited

/-- How messages name a sort of value. -/
def Kind.phrase : Kind → String
  | .null => "null"
  | .boolean => "a boolean"
  | .number => "a number"
  | .string => "a string"
  | .array => "an array"
  | .object => "an object"

/-- The sort of a value. -/
def kind : Json → Kind
  | .null => .null
  | .bool _ => .boolean
  | .integer _ | .real _ => .number
  | .text _ => .string
  | .list _ => .array
  | .object _ => .object

/-- The member of an object with a key. -/
def member? (j : Json) (key : String) : Option Json :=
  match j with
  | .object members => KeyTable.get? key members
  | _ => none

end Json

end TriggerChain
