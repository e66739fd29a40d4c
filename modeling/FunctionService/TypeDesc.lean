import FunctionService.Text

/-!
# Types

`TypeDesc` is a type as it is written in a signature; `TypeSymbol` is what a type name stands for.
`TypeDesc.spelling` is the source text of a type: a union is put in parentheses where it is the element
type of an array, and nowhere else.
-/

namespace FunctionService

/-- The built-in types that a payload can hold directly. -/
inductive Primitive where
  | boolean
  | int
  | float
  | decimal
  | byte
  | string
  | json
  deriving DecidableEq, Inhabited

namespace Primitive

/-- The keyword of a primitive type. -/
def keyword : Primitive → String
  | .boolean => "boolean"
  | .int => "int"
  | .float => "float"
  | .decimal => "decimal"
  | .byte => "byte"
  | .string => "string"
  | .json => "json"

/-- Every primitive type. -/
def all : List Primitive :=
  [.boolean, .int, .float, .decimal, .byte, .string, .json]

/-- The primitive type with a keyword. -/
def ofKeyword? (word : String) : Option Primitive :=
  all.find? fun p => p.keyword == word

end Primitive

/-- A type as it is written in a signature. -/
inductive TypeDesc where
  | primitive (kind : Primitive)
  | array (element : TypeDesc)
  | map (value : TypeDesc)
  | table (row : TypeDesc)
  | named (name : String)
  | nil
  | union (members : List TypeDesc)
  | other (text : String)
  deriving Inhabited

namespace TypeDesc

/-- Whether a type is written as a union. -/
def isUnion : TypeDesc → Bool
  | .union _ => true
  | _ => false

/-- Whether a type is the nil type. -/
def isNil : TypeDesc → Bool
  | .nil => true
  | _ => false

mutual

/-- The source text of a type. -/
def spelling : TypeDesc → String
  | .primitive kind => kind.keyword
  | .array element => Text.parenthesizeIf element.isUnion element.spelling ++ "[]"
  | .map value => "map<" ++ value.spelling ++ ">"
  | .table row => "table<" ++ row.spelling ++ ">"
  | .named name => name
  | .nil => "()"
  | .union members => String.intercalate "|" (spellings members)
  | .other text => text

/-- The source texts of the members of a union. -/
def spellings : List TypeDesc → List String
  | [] => []
  | member :: rest => member.spelling :: spellings rest

end

end TypeDesc

/-- What a type name stands for. -/
inductive TypeSymbol where
  | primitive (kind : Primitive)
  | record
  | array (element : TypeSymbol)
  | map (value : TypeSymbol)
  | table (row : TypeSymbol)
  | alias (name : String)
  | other (text : String)
  deriving DecidableEq, Inhabited

end FunctionService
