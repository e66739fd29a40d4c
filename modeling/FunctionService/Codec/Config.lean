import FunctionService.Config
import FunctionService.Json.Shape
import FunctionService.Json.Tree

/-!
# Configurations in JSON

A configuration is a flat JSON object in which every field may be missing. Unknown fields are ignored,
also when they are repeated, but they have to have a value.
-/

namespace FunctionService

namespace Config

open Json

/-- A configuration as a flat object. -/
def encode (c : Config) : Json :=
  .obj [
    ("frontend", .str c.frontend),
    ("parallel", .bool c.parallel),
    ("port", .nat c.service.port.toNat),
    ("http_org", .str c.service.httpOrg),
    ("http_module", .str c.service.httpModule),
    ("document_name", .str c.service.documentName),
    ("indent", .nat c.service.indent)]

/-- Reads a configuration. -/
def decode : Json → Option Config
  | .obj fields => do
    let base : Config := {}
    return {
      frontend := ← orElse base.frontend text? (← slot fields "frontend")
      parallel := ← orElse base.parallel bool? (← slot fields "parallel")
      service := {
        port := ← orElse base.service.port (fun v => (v.natBelow? UInt16.size).map UInt16.ofNat)
          (← slot fields "port")
        httpOrg := ← orElse base.service.httpOrg text? (← slot fields "http_org")
        httpModule := ← orElse base.service.httpModule text? (← slot fields "http_module")
        documentName := ← orElse base.service.documentName text? (← slot fields "document_name")
        indent := ← orElse base.service.indent (natBelow? UInt64.size) (← slot fields "indent") } }
  | _ => none

/-- The configuration that a text describes. -/
def ofText? (text : String) : Option Config := do
  decode (← Json.ofText text)

end Config

end FunctionService
