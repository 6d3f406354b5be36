import TriggerChain.Json.Token

/-!
# Reading JSON

The tokens of a text are put together by a machine with a stack of the containers that
are still open. Containers nest at most `maxDepth` deep. A key that an object repeats
keeps its last value.

`read?` stands for the JSON library that the program is linked with. Commands get it as one
of their readers, and nothing is proved of it: what is proved of settings starts from JSON
values, and what is proved of commands holds for any reader.
-/

namespace TriggerChain.Json

/-- How deep lists and objects may nest. -/
def maxDepth : Nat := 127

/-- A container that waits for the value being read. -/
inductive Frame where
  /-- A list with the items before it, latest first. -/
  | item (before : List Json)
  /-- An object with the members before it and the key of the value. -/
  | member (before : List (String × Json)) (key : String)

/-- What may come next, with the containers around it, innermost first. -/
inductive Expect where
  /-- A value. -/
  | value (stack : List Frame)
  /-- The first item of a list, or its end. -/
  | itemOrEnd (stack : List Frame)
  /-- A comma behind an item, or the end of the list. -/
  | afterItem (before : List Json) (stack : List Frame)
  /-- The first key of an object, or its end. -/
  | keyOrEnd (stack : List Frame)
  /-- A key behind a comma. -/
  | key (before : List (String × Json)) (stack : List Frame)
  /-- The colon behind a key. -/
  | colon (before : List (String × Json)) (key : String) (stack : List Frame)
  /-- A comma behind a member, or the end of the object. -/
  | afterMember (before : List (String × Json)) (stack : List Frame)
  /-- Nothing: the value is complete. -/
  | nothing (value : Json)

/-- Where the machine goes once a value is complete. -/
def Expect.after (v : Json) : List Frame → Expect
  | [] => .nothing v
  | .item before :: stack => .afterItem (v :: before) stack
  | .member before k :: stack => .afterMember (KeyTable.set k v before) stack

/-- Where the machine goes on a token that must begin a value. -/
def Expect.begin? (stack : List Frame) : Token → Option Expect
  | .scalar v => some (after v stack)
  | .openList => if stack.length < maxDepth then some (.itemOrEnd stack) else none
  | .openObject => if stack.length < maxDepth then some (.keyOrEnd stack) else none
  | _ => none

/-- One step of the machine. -/
def Expect.next? : Expect → Token → Option Expect
  | .value stack, t => begin? stack t
  | .itemOrEnd stack, .closeList => some (after (.list []) stack)
  | .itemOrEnd stack, t => begin? (.item [] :: stack) t
  | .afterItem before stack, .comma => some (.value (.item before :: stack))
  | .afterItem before stack, .closeList => some (after (.list before.reverse) stack)
  | .keyOrEnd stack, .closeObject => some (after (.object []) stack)
  | .keyOrEnd stack, .scalar (.text k) => some (.colon [] k stack)
  | .key before stack, .scalar (.text k) => some (.colon before k stack)
  | .colon before k stack, .colon => some (.value (.member before k :: stack))
  | .afterMember before stack, .comma => some (.key before stack)
  | .afterMember before stack, .closeObject => some (after (.object before) stack)
  | _, _ => none

/-- Reads a text that holds one JSON value and nothing else. -/
def read? (text : String) : Option Json :=
  (tokens? text.toList).bind fun tokens =>
    (tokens.foldlM Expect.next? (.value [])).bind fun
      | .nothing value => some value
      | _ => none

end TriggerChain.Json
