import FunctionService.Codec.Types
import FunctionService.Codec.Expression
import FunctionService.Package

/-!
# Packages in JSON

A member is a record with one more field, `member`, which names its kind and may stand anywhere among
the others. Everything in a member has to be put aside until the kind is known. In array form the kind
comes first.
-/

namespace FunctionService

open Json

namespace Qualifier

/-- The keyword of a qualifier. -/
def keyword : Qualifier → String
  | .isPublic => "public"
  | .isIsolated => "isolated"
  | .isTransactional => "transactional"

/-- Every qualifier. -/
def all : List Qualifier :=
  [.isPublic, .isIsolated, .isTransactional]

/-- A qualifier as its keyword. -/
def encode (q : Qualifier) : Json :=
  .str q.keyword

/-- Reads a qualifier. -/
def decode (reading : Reading) (v : Json) : Option Qualifier := do
  let word ← v.plainChoice reading
  all.find? fun q => q.keyword == word

end Qualifier

namespace Annotation

/-- An annotation as a record of one field. -/
def encode (a : Annotation) : Json :=
  .obj [("name", .str a.name)]

/-- Reads an annotation. -/
def decode (v : Json) : Option Annotation := do
  let [name] ← v.slots ["name"] | none
  return ⟨← required text? name⟩

end Annotation

namespace ParameterKind

/-- A parameter kind as a choice. -/
def encode : ParameterKind → Json
  | .required => .str "required"
  | .defaultable default => .obj [("defaultable", .obj [("default", default.encode)])]
  | .rest => .str "rest"

/-- Reads a parameter kind. -/
def decode (reading : Reading) (v : Json) : Option ParameterKind := do
  let (kind, payload) ← v.choice
  match kind, payload with
  | "required", payload => if payload.all (isUnit reading) then return .required else none
  | "defaultable", some payload => do
    let [default] ← payload.slots ["default"] | none
    return .defaultable (← Json.required Expression.decode default)
  | "rest", payload => if payload.all (isUnit reading) then return .rest else none
  | _, _ => none

end ParameterKind

namespace Parameter

/-- A parameter as a record of three fields. -/
def encode (p : Parameter) : Json :=
  .obj [("name", .str p.name), ("type", p.type.encode), ("kind", p.kind.encode)]

/-- Reads a parameter. -/
def decode (reading : Reading) (v : Json) : Option Parameter := do
  let [name, type, kind] ← v.slots ["name", "type", "kind"] | none
  return {
    name := ← required text? name
    type := ← required (TypeDesc.decode reading) type
    kind := ← required (ParameterKind.decode reading) kind }

end Parameter

namespace FunctionBody

/-- A function body as a choice. -/
def encode : FunctionBody → Json
  | .expression value => .obj [("expression", value.encode)]
  | .block => .str "block"

/-- Reads a function body. -/
def decode (reading : Reading) (v : Json) : Option FunctionBody := do
  let (form, payload) ← v.choice
  match form, payload with
  | "expression", some payload => return .expression (← Expression.decode payload)
  | "block", payload => if payload.all (isUnit reading) then return .block else none
  | _, _ => none

end FunctionBody

namespace FunctionDef

/-- The fields of a function, in order. -/
def encodeFields (f : FunctionDef) : List (String × Json) :=
  [("name", .str f.name),
    ("qualifiers", .arr (f.qualifiers.map Qualifier.encode)),
    ("annotations", .arr (f.annotations.map Annotation.encode)),
    ("parameters", .arr (f.parameters.map Parameter.encode)),
    ("return_type", .ofOption TypeDesc.encode f.returnType),
    ("body", f.body.encode),
    ("location", f.location.encode)]

/-- A function as a record of seven fields. -/
def encode (f : FunctionDef) : Json :=
  .obj f.encodeFields

/-- Reads a function. -/
def decode (reading : Reading) (v : Json) : Option FunctionDef := do
  let [name, qualifiers, annotations, parameters, returnType, body, location] ←
    v.slots ["name", "qualifiers", "annotations", "parameters", "return_type", "body", "location"]
    | none
  return {
    name := ← required text? name
    qualifiers := ← orElse [] (list? (Qualifier.decode reading)) qualifiers
    annotations := ← orElse [] (list? Annotation.decode) annotations
    parameters := ← orElse [] (list? (Parameter.decode reading)) parameters
    returnType := ← orElse none (nullable (TypeDesc.decode reading)) returnType
    body := ← required (FunctionBody.decode reading) body
    location := ← required Location.decode location }

end FunctionDef

namespace Declaration

/-- The fields of a declaration, in order. -/
def encodeFields (d : Declaration) : List (String × Json) :=
  [("name", .ofOption .str d.name), ("location", d.location.encode)]

/-- Reads a declaration. -/
def decode (v : Json) : Option Declaration := do
  let [name, location] ← v.slots ["name", "location"] | none
  return {
    name := ← orElse none (nullable text?) name
    location := ← required Location.decode location }

end Declaration

namespace DeclarationKind

/-- The tag of a member that is a declaration. -/
def tag : DeclarationKind → String
  | .listener => "listener"
  | .class => "class"
  | .service => "service"
  | .typeDefinition => "type_definition"
  | .moduleVariable => "module_variable"
  | .constant => "constant"
  | .enum => "enum"
  | .xmlNamespace => "xml_namespace"
  | .annotationDecl => "annotation"

/-- Every kind of declaration. -/
def all : List DeclarationKind :=
  [.listener, .class, .service, .typeDefinition, .moduleVariable, .constant, .enum, .xmlNamespace,
    .annotationDecl]

/-- The kind of declaration with a tag. -/
def ofTag? (tag : String) : Option DeclarationKind :=
  all.find? fun k => k.tag == tag

end DeclarationKind

namespace Member

/-- The key that names the kind of a member. -/
def tagKey : String :=
  "member"

/-- A member as its fields behind its tag. -/
def encode : Member → Json
  | .function f => .obj ((tagKey, .str "function") :: f.encodeFields)
  | .declaration kind d => .obj ((tagKey, .str kind.tag) :: d.encodeFields)
  | .other kind location =>
    .obj [(tagKey, .str "other"), ("syntax_kind", .str kind), ("location", location.encode)]

/-- The tag of a member, and what is left without it. -/
def splitTag : Json → Option (String × Json)
  | .obj fields => do
    let tag ← required text? (← slot fields tagKey)
    return (tag, .obj (fields.filter fun field => field.1 != tagKey))
  | .arr (.str tag :: items) => some (tag, .arr items)
  | _ => none

/-- Reads a member of unknown kind: the name of the kind and a location. -/
def decodeOther (v : Json) : Option Member := do
  let [kind, location] ← v.slots ["syntax_kind", "location"] | none
  return .other (← required text? kind) (← required Location.decode location)

/-- Reads a member. -/
def decode (v : Json) : Option Member := do
  let (tag, v) ← splitTag v
  if tag = "function" then return .function (← FunctionDef.decode .buffered v)
  else if tag = "other" then decodeOther v
  else return .declaration (← DeclarationKind.ofTag? tag) (← Declaration.decode v)

end Member

namespace Document

/-- A document as a record of three fields. -/
def encode (d : Document) : Json :=
  .obj [("id", .str d.id), ("name", .str d.name), ("members", .arr (d.members.map Member.encode))]

/-- Reads a document. -/
def decode (v : Json) : Option Document := do
  let [id, name, members] ← v.slots ["id", "name", "members"] | none
  return {
    id := ← required text? id
    name := ← required text? name
    members := ← orElse [] (list? Member.decode) members }

end Document

namespace Module

/-- A module as a record of five fields. -/
def encode (m : Module) : Json :=
  .obj [
    ("id", .str m.id),
    ("name", .str m.name),
    ("is_default", .bool m.isDefault),
    ("documents", .arr (m.documents.map Document.encode)),
    ("test_documents", .arr (m.testDocuments.map Document.encode))]

/-- Reads a module. -/
def decode (v : Json) : Option Module := do
  let [id, name, isDefault, documents, testDocuments] ←
    v.slots ["id", "name", "is_default", "documents", "test_documents"] | none
  return {
    id := ← required text? id
    name := ← required text? name
    isDefault := ← orElse false bool? isDefault
    documents := ← orElse [] (list? Document.decode) documents
    testDocuments := ← orElse [] (list? Document.decode) testDocuments }

end Module

namespace Package

/-- A package as a record of four fields. -/
def encode (p : Package) : Json :=
  .obj [
    ("name", .str p.name),
    ("modules", .arr (p.modules.map Module.encode)),
    ("has_compilation_errors", .bool p.hasCompilationErrors),
    ("symbols", p.symbols.encode)]

/-- Reads a package. -/
def decode (v : Json) : Option Package := do
  let [name, modules, hasCompilationErrors, symbols] ←
    v.slots ["name", "modules", "has_compilation_errors", "symbols"] | none
  return {
    name := ← required text? name
    modules := ← orElse [] (list? Module.decode) modules
    hasCompilationErrors := ← orElse false bool? hasCompilationErrors
    symbols := ← orElse .empty SymbolTable.decode symbols }

end Package

end FunctionService
