import FunctionService.Expression
import FunctionService.Location
import FunctionService.SymbolTable

/-!
# Packages

A package is a list of modules, one of which is its default module, and a table of its type names. A
module has source documents and test documents; a document is a list of members. Whether a document
is a test is decided by its identifier, not by the list in which it stands.
-/

namespace FunctionService

/-- A qualifier in front of a function. -/
inductive Qualifier where
  | isPublic
  | isIsolated
  | isTransactional
  deriving DecidableEq, Inhabited

/-- An annotation attached to a function. -/
structure Annotation where
  name : String
  deriving DecidableEq, Inhabited

/-- How a parameter is supplied: always, optionally with a default, or as all remaining arguments. -/
inductive ParameterKind where
  | required
  | defaultable (default : Expression)
  | rest
  deriving Inhabited

/-- A parameter of a function. The type of a rest parameter is that of one argument. -/
structure Parameter where
  name : String
  type : TypeDesc
  kind : ParameterKind
  deriving Inhabited

/-- The body of a function: one expression, or a block of statements. -/
inductive FunctionBody where
  | expression (value : Expression)
  | block
  deriving Inhabited

/-- A function as a document declares it. -/
structure FunctionDef where
  name : String
  qualifiers : List Qualifier
  annotations : List Annotation
  parameters : List Parameter
  returnType : Option TypeDesc
  body : FunctionBody
  location : Location
  deriving Inhabited

/-- A declaration of which only the name and the place matter. -/
structure Declaration where
  name : Option String
  location : Location
  deriving DecidableEq, Inhabited

/-- The kinds of members that are declarations with an optional name. -/
inductive DeclarationKind where
  | listener
  | «class»
  | service
  | typeDefinition
  | moduleVariable
  | constant
  | enum
  | xmlNamespace
  | annotationDecl
  deriving DecidableEq, Inhabited

/-- A member of a document. -/
inductive Member where
  | function (definition : FunctionDef)
  | declaration (kind : DeclarationKind) (declaration : Declaration)
  | other (kind : String) (location : Location)
  deriving Inhabited

/-- The word for a kind of declaration. -/
def DeclarationKind.word : DeclarationKind → String
  | .listener => "listener"
  | .class => "class"
  | .service => "service"
  | .typeDefinition => "type"
  | .moduleVariable => "variable"
  | .constant => "const"
  | .enum => "enum"
  | .xmlNamespace => "xmlns"
  | .annotationDecl => "annotation"

namespace Member

/-- Where a member stands. -/
def location : Member → Location
  | .function definition => definition.location
  | .declaration _ d => d.location
  | .other _ location => location

/-- The word for the kind of a member. -/
def word : Member → String
  | .function _ => "function"
  | .declaration kind _ => kind.word
  | .other kind _ => kind

end Member

/-- A document of a module. -/
structure Document where
  id : String
  name : String
  members : List Member
  deriving Inhabited

/-- The start of a document. -/
def Document.location (d : Document) : Location :=
  .fileStart ⟨d.name⟩

/-- A module of a package. -/
structure Module where
  id : String
  name : String
  isDefault : Bool
  documents : List Document
  testDocuments : List Document
  deriving Inhabited

namespace Module

/-- The source documents, then the test documents. -/
def allDocuments (m : Module) : List Document :=
  m.documents ++ m.testDocuments

/-- Whether an identifier is that of a test document. -/
def isTest (m : Module) (id : String) : Bool :=
  m.testDocuments.any fun d => d.id == id

end Module

/-- A package. -/
structure Package where
  name : String
  modules : List Module
  hasCompilationErrors : Bool
  symbols : SymbolTable
  deriving Inhabited

namespace Package

/-- The default module, the first one if several claim to be it. -/
def defaultModule? (p : Package) : Option Module :=
  p.modules.find? (·.isDefault)

/-- The number of modules that claim to be the default one. -/
def defaultModuleCount (p : Package) : Nat :=
  (p.modules.filter (·.isDefault)).length

/-- Every document of every module with the module it belongs to, in order. -/
def units (p : Package) : List (Module × Document) :=
  p.modules.flatMap fun m => m.allDocuments.map fun d => (m, d)

end Package

end FunctionService
