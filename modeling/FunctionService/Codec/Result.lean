import FunctionService.Codec.Package
import FunctionService.Compile

/-!
# Results in JSON

Diagnostics, signatures and compile results as they are handed to other tools.
-/

namespace FunctionService

/-- A violation as its code and what it says. -/
def Violation.encode (v : Violation) : Json :=
  .obj [("code", .str v.code), ("message", .str v.message)]

/-- The word for the severity of a diagnostic: every violation is an error. -/
def Diagnostic.severity : String :=
  "error"

/-- The fields of a diagnostic, in order. -/
def Diagnostic.encodeFields (d : Diagnostic) : List (String × Json) :=
  [("error", d.violation.encode), ("severity", .str Diagnostic.severity),
    ("location", d.location.encode)]

/-- A diagnostic as a record of three fields. -/
def Diagnostic.encode (d : Diagnostic) : Json :=
  .obj d.encodeFields

/-- The word for the body of a function. -/
def Signature.bodyWord (f : Signature) : String :=
  if f.isExpressionBodied then "expression_bodied" else "block_bodied"

/-- A signature as a record of seven fields. -/
def Signature.encode (f : Signature) : Json :=
  .obj [
    ("name", .str f.name),
    ("qualifiers", .obj [("public", .bool f.isPublic), ("isolated", .bool f.isIsolated)]),
    ("body_kind", .str f.bodyWord),
    ("parameters", .arr (f.parameters.map Parameter.encode)),
    ("return_type", .ofOption TypeDesc.encode f.returnType),
    ("has_annotations", .bool f.isAnnotated),
    ("location", f.location.encode)]

/-- The word for a verdict. -/
def Verdict.word : Verdict → String
  | .ok => "ok"
  | .parametersUnsupported => "params_unsupported"
  | .returnUnsupported => "return_unsupported"

/-- A generated document as a record of two fields. -/
def SourceFile.encode (s : SourceFile) : Json :=
  .obj [("name", .str s.name), ("content", .str s.content)]

/-- A compile result as a record of three fields. -/
def CompileResult.encode (r : CompileResult) : Json :=
  .obj [
    ("diagnostics", .arr (r.diagnostics.map Diagnostic.encode)),
    ("generated", .ofOption SourceFile.encode r.generated),
    ("transformers", .texts r.transformers)]

end FunctionService
