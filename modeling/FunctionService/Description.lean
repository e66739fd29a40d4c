import FunctionService.Codec.Package
import FunctionService.Failure
import FunctionService.Json.Tree

/-!
# Package descriptions

A package description is the JSON text of a package that has exactly one default module.

Unknown fields of packages, modules, documents and symbols are stepped over unread: they may nest to
any depth and spell what has no value. Members are different: everything in them is put aside first,
unknown fields included, and so has to have a value. `skim` takes out of a tree what is stepped over.
-/

namespace FunctionService

open Json

namespace TypeSymbol

/-- The name of the kind that a tree spells. -/
def kindOf : Tree → Option String
  | .string text => text
  | .object [(key, _)] => key
  | _ => none

/-- Whether symbols of a kind hold another symbol. -/
def isContainer (kind : Option String) : Bool :=
  kind == some "array" || kind == some "map" || kind == some "table"

/-- The tree of a symbol without the unknown fields that are stepped over, down to a bounded number of
levels. Content that stands before its kind is put aside, so nothing in it is stepped over. -/
def skim : Nat → Tree → Tree
  | 0, tree => tree
  | levels + 1, tree =>
    match tree.keepFields [kindKey, contentKey] with
    | .object ((key, kind) :: rest) =>
      if key == some kindKey && isContainer (kindOf kind) then
        .object ((key, kind) :: rest.map fun field =>
          if field.1 == some contentKey then (field.1, skim levels field.2) else field)
      else .object ((key, kind) :: rest)
    | .array [kind, content] =>
      if isContainer (kindOf kind) then .array [kind, skim levels content] else .array [kind, content]
    | tree => tree

end TypeSymbol

/-- The tree of a document without the fields that are stepped over. -/
def Document.skim (tree : Tree) : Tree :=
  tree.keepFields ["id", "name", "members"]

/-- The tree of a module without the fields that are stepped over. -/
def Module.skim (tree : Tree) : Tree :=
  tree.keepFields ["id", "name", "is_default", "documents", "test_documents"]
    |>.mapSlot "documents" 3 (Tree.mapItems Document.skim)
    |>.mapSlot "test_documents" 4 (Tree.mapItems Document.skim)

namespace Package

/-- The tree of a package without the fields that are stepped over. -/
def skim (tree : Tree) : Tree :=
  tree.keepFields ["name", "modules", "has_compilation_errors", "symbols"]
    |>.mapSlot "modules" 1 (Tree.mapItems Module.skim)
    |>.mapSlot "symbols" 3 (Tree.mapFields (TypeSymbol.skim Tree.maxDepth))

/-- The package that a text describes, whatever its number of default modules. -/
def ofText? (text : String) : Option Package := do
  decode (← (skim (← Tree.ofText text)).value?)

/-- Accepts a package with exactly one default module. -/
def requireDefaultModule (path : Path) (p : Package) : Except Failure Package :=
  match p.defaultModuleCount with
  | 0 => .error (.missingDefaultModule p.name)
  | 1 => .ok p
  | n => .error (.severalDefaultModules path n)

/-- Reads a package description; the path is only named in failures. -/
def parse (path : Path) (text : String) : Except Failure Package :=
  match ofText? text with
  | none => .error (.malformedPackage path)
  | some p => requireDefaultModule path p

end Package

end FunctionService
