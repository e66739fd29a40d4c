import FunctionService.Expression
import FunctionService.TypeDesc

/-!
# Service units

The tree of a generated document: imports, configurable variables, one service with its resources, and
the records that hold the payloads.
-/

namespace FunctionService

/-- The import of a module. -/
structure Import where
  org : String
  module : String
  deriving DecidableEq, Inhabited

/-- A variable that can be set when the service is started. -/
structure Configurable where
  type : TypeDesc
  name : String
  default : Expression
  deriving Inhabited

/-- The parameter of a resource that takes the request body. -/
structure PayloadParameter where
  annotationName : QualifiedName
  typeName : String
  name : String
  deriving DecidableEq, Inhabited

/-- A resource of a service. -/
structure Resource where
  accessor : String
  path : String
  payload : Option PayloadParameter
  returns : TypeDesc
  body : Expression
  deriving Inhabited

/-- A service and what it listens on. -/
structure Service where
  basePath : String
  listener : Expression
  resources : List Resource
  deriving Inhabited

/-- A field of a payload record. -/
structure RecordField where
  type : TypeDesc
  name : String
  isOptional : Bool
  deriving Inhabited

/-- The record type of a payload. -/
structure PayloadRecord where
  name : String
  fields : List RecordField
  deriving Inhabited

/-- A generated document. -/
structure ServiceUnit where
  imports : List Import
  configurables : List Configurable
  service : Service
  records : List PayloadRecord
  deriving Inhabited

end FunctionService
