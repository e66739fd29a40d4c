import FunctionService.Schedule
import FunctionService.Service.Source
import FunctionService.Service.Synthesis

/-!
# Compiling a package

A package is analyzed, and the service for the functions found is generated, whether or not rules are
violated: what to do with a service of a package that violates rules is for the caller to decide. A
service that has no source text is not generated at all, without a diagnostic.

`Package.compile` and `Package.check` visit one document after another. `Config.compile` and
`Config.check` visit documents side by side unless the configuration says otherwise.
-/

namespace FunctionService

/-- A generated document. -/
structure SourceFile where
  /-- The name without extension. -/
  name : String
  content : String
  deriving DecidableEq, Inhabited

/-- The name of the file for a generated document. -/
def SourceFile.fileName (s : SourceFile) : String :=
  s.name ++ ".bal"

/-- A way to turn a unit into source text. -/
abbrev Formatter := ServiceUnit → Except FormatFault String

/-- The formatter that a configuration asks for. -/
def ServiceConfig.formatter (c : ServiceConfig) : Formatter :=
  ServiceUnit.render c.indent

/-- The formatter that rejects every unit. -/
def Formatter.rejecting : Formatter :=
  fun _ => .error .unformattable

/-- The document that exposes functions, if it can be formatted. -/
def generate (format : Formatter) (c : ServiceConfig) (fs : List Signature) : Option SourceFile :=
  match format (synthesize c fs) with
  | .ok content => some ⟨c.documentName, content⟩
  | .error _ => none

/-- The outcome of compiling a package. -/
structure CompileResult where
  /-- The violations, in order. -/
  diagnostics : List Diagnostic
  generated : Option SourceFile
  /-- The names of the functions that the service exposes. -/
  transformers : List String
  deriving Inhabited

/-- Whether violations were found. -/
def CompileResult.hasErrors (r : CompileResult) : Bool :=
  !r.diagnostics.isEmpty

namespace Analysis

/-- The diagnostics of an analysis, in order. -/
def diagnostics (a : Analysis) : List Diagnostic :=
  Diagnostic.sort a.reported

/-- The outcome that an analysis leads to. -/
def result (format : Formatter) (c : ServiceConfig) (a : Analysis) : CompileResult where
  diagnostics := a.diagnostics
  generated := generate format c a.registry.inSourceOrder
  transformers := a.registry.inSourceOrder.map (·.name)

end Analysis

namespace Package

/-- Analyzes a package and generates its service. -/
def compile (format : Formatter) (c : ServiceConfig) (p : Package) : CompileResult :=
  (p.analyze {}).result format c

/-- The violations of a package, in order. -/
def check (p : Package) : List Diagnostic :=
  (p.analyze {}).diagnostics

end Package

namespace Config

/-- Analyzes a package side by side, in the turns of the schedule, or one document after another. -/
def analyze (c : Config) (schedule : Schedule) (p : Package) : Analysis :=
  if c.parallel then p.analyzeSideBySide schedule else p.analyze {}

/-- Analyzes a package and generates its service, as the configuration asks for. -/
def compile (c : Config) (schedule : Schedule) (p : Package) : CompileResult :=
  (c.analyze schedule p).result c.service.formatter c.service

/-- The violations of a package that is analyzed as the configuration asks for, in order. -/
def check (c : Config) (schedule : Schedule) (p : Package) : List Diagnostic :=
  (c.analyze schedule p).diagnostics

end Config

end FunctionService
