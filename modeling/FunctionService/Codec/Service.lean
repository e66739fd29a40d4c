import FunctionService.Codec.Expression
import FunctionService.Codec.Types
import FunctionService.Service.Basic

/-!
# Service units in JSON

A unit is a record of records. Nothing in it has a default, except that a resource without a payload
may leave the payload out.
-/

namespace FunctionService

open Json

namespace Import

/-- An import as a record of two fields. -/
def encode (i : Import) : Json :=
  .obj [("org", .str i.org), ("module", .str i.module)]

/-- Reads an import. -/
def decode (v : Json) : Option Import := do
  let [org, module] ← v.slots ["org", "module"] | none
  return ⟨← required text? org, ← required text? module⟩

end Import

namespace Configurable

/-- A configurable variable as a record of three fields. -/
def encode (c : Configurable) : Json :=
  .obj [("type", c.type.encode), ("name", .str c.name), ("default", c.default.encode)]

/-- Reads a configurable variable. -/
def decode (v : Json) : Option Configurable := do
  let [type, name, default] ← v.slots ["type", "name", "default"] | none
  return {
    type := ← required (TypeDesc.decode .direct) type
    name := ← required text? name
    default := ← required Expression.decode default }

end Configurable

namespace PayloadParameter

/-- A payload parameter as a record of three fields. -/
def encode (p : PayloadParameter) : Json :=
  .obj [("annotation", p.annotationName.encode), ("type_name", .str p.typeName), ("name", .str p.name)]

/-- Reads a payload parameter. -/
def decode (v : Json) : Option PayloadParameter := do
  let [annotationName, typeName, name] ← v.slots ["annotation", "type_name", "name"] | none
  return {
    annotationName := ← required QualifiedName.decode annotationName
    typeName := ← required text? typeName
    name := ← required text? name }

end PayloadParameter

namespace Resource

/-- A resource as a record of five fields. -/
def encode (r : Resource) : Json :=
  .obj [
    ("accessor", .str r.accessor),
    ("path", .str r.path),
    ("payload", .ofOption PayloadParameter.encode r.payload),
    ("returns", r.returns.encode),
    ("body", r.body.encode)]

/-- Reads a resource. -/
def decode (v : Json) : Option Resource := do
  let [accessor, path, payload, returns, body] ←
    v.slots ["accessor", "path", "payload", "returns", "body"] | none
  return {
    accessor := ← required text? accessor
    path := ← required text? path
    payload := ← orElse none (nullable PayloadParameter.decode) payload
    returns := ← required (TypeDesc.decode .direct) returns
    body := ← required Expression.decode body }

end Resource

namespace Service

/-- A service as a record of three fields. -/
def encode (s : Service) : Json :=
  .obj [
    ("base_path", .str s.basePath),
    ("listener", s.listener.encode),
    ("resources", .arr (s.resources.map Resource.encode))]

/-- Reads a service. -/
def decode (v : Json) : Option Service := do
  let [basePath, listener, resources] ← v.slots ["base_path", "listener", "resources"] | none
  return {
    basePath := ← required text? basePath
    listener := ← required Expression.decode listener
    resources := ← required (list? Resource.decode) resources }

end Service

namespace RecordField

/-- A record field as a record of three fields. -/
def encode (f : RecordField) : Json :=
  .obj [("type", f.type.encode), ("name", .str f.name), ("optional", .bool f.isOptional)]

/-- Reads a record field. -/
def decode (v : Json) : Option RecordField := do
  let [type, name, isOptional] ← v.slots ["type", "name", "optional"] | none
  return {
    type := ← required (TypeDesc.decode .direct) type
    name := ← required text? name
    isOptional := ← required bool? isOptional }

end RecordField

namespace PayloadRecord

/-- A payload record as a record of two fields. -/
def encode (r : PayloadRecord) : Json :=
  .obj [("name", .str r.name), ("fields", .arr (r.fields.map RecordField.encode))]

/-- Reads a payload record. -/
def decode (v : Json) : Option PayloadRecord := do
  let [name, fields] ← v.slots ["name", "fields"] | none
  return ⟨← required text? name, ← required (list? RecordField.decode) fields⟩

end PayloadRecord

namespace ServiceUnit

/-- A unit as a record of four fields. -/
def encode (u : ServiceUnit) : Json :=
  .obj [
    ("imports", .arr (u.imports.map Import.encode)),
    ("configurables", .arr (u.configurables.map Configurable.encode)),
    ("service", u.service.encode),
    ("records", .arr (u.records.map PayloadRecord.encode))]

/-- Reads a unit. -/
def decode (v : Json) : Option ServiceUnit := do
  let [imports, configurables, service, records] ←
    v.slots ["imports", "configurables", "service", "records"] | none
  return {
    imports := ← required (list? Import.decode) imports
    configurables := ← required (list? Configurable.decode) configurables
    service := ← required Service.decode service
    records := ← required (list? PayloadRecord.decode) records }

end ServiceUnit

end FunctionService
