/-!
# Configuration

How packages are loaded and visited, and how the generated service looks.
-/

namespace FunctionService

/-- The settings of the generated service. -/
structure ServiceConfig where
  /-- The default port of the listener. -/
  port : UInt16 := 8080
  /-- The organization of the HTTP module. -/
  httpOrg : String := "ballerina"
  /-- The HTTP module, whose name also qualifies what is taken from it. -/
  httpModule : String := "http"
  /-- The name of the generated document, without extension. -/
  documentName : String := "service"
  /-- The number of spaces of one level of indentation. Widths for which memory cannot hold a line are
  outside the model. -/
  indent : Nat := 4
  deriving DecidableEq, Inhabited

/-- The configuration of a run. -/
structure Config where
  /-- The name of the front end that loads packages. -/
  frontend : String := "json"
  /-- Whether documents are visited side by side. -/
  parallel : Bool := true
  service : ServiceConfig := {}
  deriving DecidableEq, Inhabited

end FunctionService
