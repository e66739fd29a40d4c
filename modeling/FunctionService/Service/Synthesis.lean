import FunctionService.Config
import FunctionService.Service.Basic
import FunctionService.Signature

/-!
# From signatures to a service

Every function becomes a resource that takes the payload, picks the arguments out of it and calls the
function. A parameter becomes a field of the payload record: a required one a field that must be there,
a defaultable one an optional field of the same type, a rest parameter an optional field that holds a
list. The argument for an absent field is the default of the parameter, or no argument at all.
-/

namespace FunctionService

/-- The name of the variable that holds the port. -/
def portVariable : String :=
  "port"

/-- The name of the parameter that takes the payload. -/
def payloadVariable : String :=
  "payload"

/-- The field of the payload record for a parameter. -/
def Parameter.recordField (p : Parameter) : RecordField :=
  match p.kind with
  | .required => ⟨p.type, p.name, false⟩
  | .defaultable _ => ⟨p.type, p.name, true⟩
  | .rest => ⟨.array p.type, p.name, true⟩

theorem Parameter.recordField_name (p : Parameter) : p.recordField.name = p.name := by
  unfold recordField
  cases p.kind <;> rfl

/-- The argument for a parameter, picked out of the payload. -/
def Parameter.callArgument (p : Parameter) : Argument :=
  let field : Expression := .fieldAccess (.name payloadVariable) p.name
  match p.kind with
  | .required => .positional field
  | .defaultable default => .positional (.elvis field default)
  | .rest => .rest (.elvis field (.list []))

namespace Signature

/-- The record for the payload of a function that takes parameters. -/
def payloadRecord? (f : Signature) : Option PayloadRecord :=
  if f.hasParameters then some ⟨f.payloadTypeName, f.parameters.map Parameter.recordField⟩ else none

/-- The resource that exposes a function. -/
def resource (c : ServiceConfig) (f : Signature) : Resource where
  accessor := "post"
  path := f.name
  payload :=
    if f.hasParameters then some ⟨⟨some c.httpModule, "Payload"⟩, f.payloadTypeName, payloadVariable⟩
    else none
  returns := f.returnType.getD .nil
  body := .call f.name (f.parameters.map Parameter.callArgument)

end Signature

namespace ServiceConfig

/-- The import of the HTTP module. -/
def httpImport (c : ServiceConfig) : Import :=
  ⟨c.httpOrg, c.httpModule⟩

/-- The variable for the port. -/
def portConfigurable (c : ServiceConfig) : Configurable :=
  ⟨.primitive .int, portVariable, .int (Int64.ofNat c.port.toNat)⟩

/-- The listener on the port. -/
def listener (c : ServiceConfig) : Expression :=
  .new ⟨some c.httpModule, "Listener"⟩ [.positional (.name portVariable)]

end ServiceConfig

/-- The service unit for functions, in the given order. -/
def synthesize (c : ServiceConfig) (fs : List Signature) : ServiceUnit where
  imports := [c.httpImport]
  configurables := [c.portConfigurable]
  service := ⟨"/", c.listener, fs.map (·.resource c)⟩
  records := fs.filterMap (·.payloadRecord?)

end FunctionService
