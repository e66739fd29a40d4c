import FunctionService.Json.Shape
import FunctionService.Location
import FunctionService.SymbolTable

/-!
# Locations, types and symbol tables in JSON

Types and symbols are tagged values: a `kind` and, for all kinds but `nil` and `record`, the content
under `of`. Both are read in the same way from a table of their kinds, which says what each kind holds.
Reading counts down a bound on the levels still to be read; the depth of the value bounds them all.
-/

namespace FunctionService

open Json

namespace Location

/-- A location as a record of five fields. -/
def encode (l : Location) : Json :=
  .obj [
    ("file", .str l.file.text),
    ("start_line", .nat l.startLine.toNat),
    ("start_col", .nat l.startCol.toNat),
    ("end_line", .nat l.endLine.toNat),
    ("end_col", .nat l.endCol.toNat)]

/-- Reads a location. -/
def decode (v : Json) : Option Location := do
  let [file, startLine, startCol, endLine, endCol] ←
    v.slots ["file", "start_line", "start_col", "end_line", "end_col"] | none
  return {
    file := ⟨← required text? file⟩
    startLine := ← required uint64? startLine
    startCol := ← required uint64? startCol
    endLine := ← required uint64? endLine
    endCol := ← required uint64? endCol }

end Location

namespace Primitive

/-- A primitive type as its keyword. -/
def encode (p : Primitive) : Json :=
  .str p.keyword

/-- Reads a primitive type. -/
def decode (reading : Reading) (v : Json) : Option Primitive := do
  ofKeyword? (← v.plainChoice reading)

end Primitive

/-! ## Tagged values -/

/-- A tagged value with content. -/
def encodeTagged (kind : String) (content : Json) : Json :=
  .obj [(kindKey, .str kind), (contentKey, content)]

/-- Whether the content of a kind without content is left out or `null`. -/
def noContent : Option Json → Bool
  | none => true
  | some .null => true
  | _ => false

/-- What the tagged values of a kind hold, and what is made of it. -/
inductive Content (α : Type) where
  | nothing (value : α)
  | primitive (make : Primitive → α)
  | text (make : String → α)
  | one (make : α → α)
  | many (make : List α → α)

/-- Reads the content of a tagged value, given how tagged values inside it are read. -/
def Content.read (part : Json → Option α) (reading : Reading) (content : Option Json) :
    Content α → Option α
  | .nothing value => if noContent content then some value else none
  | .primitive make => (required (Primitive.decode reading) content).map make
  | .text make => (required text? content).map make
  | .one make => (required part content).map make
  | .many make => (required (list? part) content).map make

/-- The kinds of a tagged value, in their declared order, each with what it holds. -/
abbrev Variants (α : Type) := List (String × Content α)

/-- The names of the kinds. -/
def Variants.kinds (variants : Variants α) : List String :=
  variants.map Prod.fst

/-- Reads what a kind holds. -/
def Variants.ofTagged (variants : Variants α) (part : Reading → Json → Option α) (kind : String)
    (content : Option Json) (reading : Reading) : Option α := do
  (← variants.lookup kind).read (part reading) reading content

/-- Reads a tagged value with a bounded number of levels. -/
def Variants.readWithin (variants : Variants α) : Nat → Reading → Json → Option α
  | 0, _, _ => none
  | room + 1, reading, v => do
    let (kind, content, reading) ← v.tagged variants.kinds reading
    variants.ofTagged (variants.readWithin room) kind content reading

/-- Reads a tagged value. -/
def Variants.read (variants : Variants α) (reading : Reading) (v : Json) : Option α :=
  variants.readWithin (v.depth + 1) reading v

/-! ## Types and symbols -/

namespace TypeDesc

mutual

/-- A type as a tagged value. -/
def encode : TypeDesc → Json
  | .primitive kind => encodeTagged "primitive" kind.encode
  | .array element => encodeTagged "array" element.encode
  | .map value => encodeTagged "map" value.encode
  | .table row => encodeTagged "table" row.encode
  | .named name => encodeTagged "named" (.str name)
  | .nil => .obj [(kindKey, .str "nil")]
  | .union members => encodeTagged "union" (.arr (encodeMembers members))
  | .other text => encodeTagged "other" (.str text)

/-- The members of a union, each as a tagged value. -/
def encodeMembers : List TypeDesc → List Json
  | [] => []
  | member :: rest => member.encode :: encodeMembers rest

end

/-- The kinds of types. -/
def variants : Variants TypeDesc :=
  [("primitive", .primitive .primitive), ("array", .one .array), ("map", .one .map),
    ("table", .one .table), ("named", .text .named), ("nil", .nothing .nil), ("union", .many .union),
    ("other", .text .other)]

/-- Reads a type. -/
def decode (reading : Reading) (v : Json) : Option TypeDesc :=
  variants.read reading v

end TypeDesc

namespace TypeSymbol

/-- A symbol as a tagged value. -/
def encode : TypeSymbol → Json
  | .primitive kind => encodeTagged "primitive" kind.encode
  | .record => .obj [(kindKey, .str "record")]
  | .array element => encodeTagged "array" element.encode
  | .map value => encodeTagged "map" value.encode
  | .table row => encodeTagged "table" row.encode
  | .alias name => encodeTagged "alias" (.str name)
  | .other text => encodeTagged "other" (.str text)

/-- The kinds of symbols. -/
def variants : Variants TypeSymbol :=
  [("primitive", .primitive .primitive), ("record", .nothing .record), ("array", .one .array),
    ("map", .one .map), ("table", .one .table), ("alias", .text .alias), ("other", .text .other)]

/-- Reads a symbol. -/
def decode (v : Json) : Option TypeSymbol :=
  variants.read .direct v

end TypeSymbol

namespace SymbolTable

/-- A symbol table as an object from names to symbols, in the order of the names. -/
def encode (t : SymbolTable) : Json :=
  .obj (t.entries.map fun e => (e.1, e.2.encode))

/-- Reads a symbol table; of several entries for one name the last counts. -/
def decode : Json → Option SymbolTable
  | .obj fields => do
    return ofList (← fields.mapM fun field => do return (field.1, ← TypeSymbol.decode field.2))
  | _ => none

end SymbolTable

end FunctionService
