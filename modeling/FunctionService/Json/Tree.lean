import FunctionService.Json.Token

/-!
# Reading JSON

A text spells a tree of JSON syntax, and a tree denotes a value. The two are apart because a reader
may step over a part of a tree without asking for its value, and then that part may nest to any depth,
spell half of a surrogate pair, or hold a number that is too large: `Tree.ofText` accepts all of these,
and `Tree.value?` none. Trees are put together with an explicit stack of open containers, so that no
depth of nesting is out of reach.
-/

namespace FunctionService.Json

/-- What a JSON text spells. A string, also as a key, is absent when it spells no text. -/
inductive Tree where
  | null
  | bool (value : Bool)
  | number (literal : String)
  | string (text : Option String)
  | array (items : List Tree)
  | object (fields : List (Option String × Tree))
  deriving Inhabited

namespace Tree

/-- A container that waits for a value. What it holds so far stands in reverse. -/
inductive Frame where
  | array (done : List Tree)
  | object (done : List (Option String × Tree)) (key : Option String)

/-- What may come next, with the open containers, innermost first. -/
inductive Reader where
  | value (stack : List Frame)
  | firstItem (stack : List Frame)
  | firstField (stack : List Frame)
  | nextField (done : List (Option String × Tree)) (stack : List Frame)
  | colon (done : List (Option String × Tree)) (key : Option String) (stack : List Frame)
  | afterItem (done : List Tree) (stack : List Frame)
  | afterField (done : List (Option String × Tree)) (stack : List Frame)
  | finished (tree : Tree)

namespace Reader

/-- Hands a complete tree to the innermost open container. -/
def place (tree : Tree) : List Frame → Reader
  | [] => .finished tree
  | .array done :: stack => .afterItem (tree :: done) stack
  | .object done key :: stack => .afterField ((key, tree) :: done) stack

/-- Reads the first token of a value. -/
def start (stack : List Frame) : Token → Option Reader
  | .null => some (place .null stack)
  | .bool b => some (place (.bool b) stack)
  | .number literal => some (place (.number literal) stack)
  | .string text => some (place (.string text) stack)
  | .openBracket => some (.firstItem stack)
  | .openBrace => some (.firstField stack)
  | _ => none

/-- Reads one token. -/
def step : Reader → Token → Option Reader
  | .value stack, token => start stack token
  | .firstItem stack, .closeBracket => some (place (.array []) stack)
  | .firstItem stack, token => start (.array [] :: stack) token
  | .firstField stack, .closeBrace => some (place (.object []) stack)
  | .firstField stack, .string key => some (.colon [] key stack)
  | .nextField done stack, .string key => some (.colon done key stack)
  | .colon done key stack, .colon => some (.value (.object done key :: stack))
  | .afterItem done stack, .comma => some (.value (.array done :: stack))
  | .afterItem done stack, .closeBracket => some (place (.array done.reverse) stack)
  | .afterField done stack, .comma => some (.nextField done stack)
  | .afterField done stack, .closeBrace => some (place (.object done.reverse) stack)
  | _, _ => none

end Reader

/-- The tree that a text spells: exactly one value and nothing after it. -/
def ofText (text : String) : Option Tree := do
  match ← (← tokens text).foldlM Reader.step (.value []) with
  | .finished tree => return tree
  | _ => none

mutual

/-- The value of a tree with at most `room` levels of nesting. -/
def valueWithin (room : Nat) : Tree → Option Json
  | .null => some .null
  | .bool value => some (.bool value)
  | .number literal => ofNumeral literal
  | .string text => text.map .str
  | .array items =>
    match room with
    | 0 => none
    | room + 1 => (itemsWithin room items).map .arr
  | .object fields =>
    match room with
    | 0 => none
    | room + 1 => (fieldsWithin room fields).map .obj

/-- The values of the items of an array. -/
def itemsWithin (room : Nat) : List Tree → Option (List Json)
  | [] => some []
  | item :: rest => do
    let value ← valueWithin room item
    let values ← itemsWithin room rest
    return value :: values

/-- The values of the fields of an object, each with its key. -/
def fieldsWithin (room : Nat) : List (Option String × Tree) → Option (List (String × Json))
  | [] => some []
  | (key, field) :: rest => do
    let key ← key
    let value ← valueWithin room field
    let values ← fieldsWithin room rest
    return (key, value) :: values

end

/-- Values nest at most this many levels. -/
def maxDepth : Nat :=
  127

/-- The value that a tree denotes, if it has one. -/
def value? (tree : Tree) : Option Json :=
  tree.valueWithin maxDepth

/-- The tree without the fields, directly in it, that have a name and are not among the given ones. -/
def keepFields (names : List String) : Tree → Tree
  | .object fields => .object (fields.filter fun field => field.1.all names.contains)
  | tree => tree

/-- The tree with a function applied to the items of an array. -/
def mapItems (f : Tree → Tree) : Tree → Tree
  | .array items => .array (items.map f)
  | tree => tree

/-- The tree with a function applied to all fields of an object. -/
def mapFields (f : Tree → Tree) : Tree → Tree
  | .object fields => .object (fields.map fun field => (field.1, f field.2))
  | tree => tree

/-- The tree of a record with a function applied to one of its fields, which stands under its name in
an object and at its place in an array. -/
def mapSlot (name : String) (place : Nat) (f : Tree → Tree) : Tree → Tree
  | .object fields =>
    .object (fields.map fun field => if field.1 == some name then (field.1, f field.2) else field)
  | .array items => .array (items.modify place f)
  | tree => tree

end Tree

/-- The value that a text spells. -/
def ofText (text : String) : Option Json := do
  (← Tree.ofText text).value?

end FunctionService.Json
