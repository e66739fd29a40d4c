import FunctionService.Codec.Result
import FunctionService.Command.Arguments
import FunctionService.Json.Print

/-!
# What commands print

The lines that a command writes, and how it ends. How long a command took is only known when it is
over, so the line that tells it stays open until then.
-/

namespace FunctionService

/-- A line of output. -/
inductive Line where
  | text (content : String)
  /-- The time since the start of the command, behind what was done in it. -/
  | elapsed (done : String)
  deriving DecidableEq

/-- How a command ended: its exit code, what it printed, and what it complained of. -/
structure Outcome where
  exitCode : UInt8
  lines : List Line := []
  complaint : Option String := none
  deriving DecidableEq

/-- The text of a line, given the time that has passed in milliseconds. -/
def Line.render (milliseconds : String) : Line → String
  | .text content => content ++ "\n"
  | .elapsed done => "  ◇ " ++ done ++ " in " ++ milliseconds ++ "ms\n"

namespace Outcome

/-- What was printed, given the time that has passed in milliseconds. -/
def output (o : Outcome) (milliseconds : String) : String :=
  String.join (o.lines.map (Line.render milliseconds))

/-- The end of a command that a failure stopped, behind what it had printed. -/
def failed (lines : List Line) (complaint : String) : Outcome :=
  ⟨1, lines, some complaint⟩

end Outcome

/-- A diagnostic on a line. -/
def Diagnostic.line (d : Diagnostic) : Line :=
  .text (d.location.display ++ "  " ++ d.violation.code ++ "  " ++ d.violation.message)

/-- The diagnostics of a package below their number. -/
def violationLines (ds : List Diagnostic) : List Line :=
  let noun := if ds.length == 1 then "violation" else "violations"
  [.text "", .text ("  ◆ " ++ toString ds.length ++ " transformer rule " ++ noun), .text ""] ++
    ds.map Diagnostic.line ++ [.text ""]

/-- What is said of a package without violations. -/
def Package.soundLines (p : Package) : List Line :=
  let documents := p.modules.foldl (fun n m => n + m.documents.length) 0
  [.text "  ◉ No transformer rule violations.", .text "",
    .text ("  " ++ toString p.modules.length ++ " modules · " ++ toString documents ++ " source units"),
    .elapsed "Checked"]

/-- What is said of a service that was written. -/
def CompileResult.writtenLines (r : CompileResult) (file : Path) (port : UInt16) : List Line :=
  [.text ("  ◉ Generated " ++ file.text), .text ""] ++
    r.transformers.map (fun name => .text ("  ▸   POST  /" ++ name)) ++
    [.text "", .text ("  ◇ Listening port defaults to " ++ toString port.toNat), .elapsed "Built"]

/-- The complaint about violations. -/
def violationComplaint (ds : List Diagnostic) : String :=
  toString ds.length ++ " transformer rule violation(s)"

/-- The text that helps with the options of a scope. -/
def Invocation.Scope.help : Invocation.Scope → List String
  | .all => [
    "Transformer compiler - checks transformer packages and generates their HTTP service",
    "",
    "Usage: transformer [OPTIONS] <COMMAND>",
    "",
    "Commands:",
    "  check  Check a transformer package without generating code",
    "  build  Check a transformer package and write its generated service",
    "  help   Print this message or the help of the given subcommand(s)",
    "",
    "Options:",
    "  -c, --config <CONFIG>  Configuration file (JSON)",
    "      --sequential       Analyze source units one at a time",
    "  -h, --help             Print help"]
  | .check => [
    "Check a transformer package without generating code",
    "",
    "Usage: transformer check [OPTIONS] <PACKAGE>",
    "",
    "Arguments:",
    "  <PACKAGE>  Package description file or directory containing package.json",
    "",
    "Options:",
    "      --json             Print diagnostics as JSON",
    "  -c, --config <CONFIG>  Configuration file (JSON)",
    "      --sequential       Analyze source units one at a time",
    "  -h, --help             Print help"]
  | .build => [
    "Check a transformer package and write its generated service",
    "",
    "Usage: transformer build [OPTIONS] <PACKAGE>",
    "",
    "Arguments:",
    "  <PACKAGE>  Package description file or directory containing package.json",
    "",
    "Options:",
    "  -o, --output <OUTPUT>  Output directory for the generated service [default: .]",
    "  -p, --port <PORT>      Default port of the generated listener",
    "      --json             Print the compile result as JSON",
    "      --force            Write the service even if rules are violated",
    "  -c, --config <CONFIG>  Configuration file (JSON)",
    "      --sequential       Analyze source units one at a time",
    "  -h, --help             Print help"]

/-- How a command line without a command ends. -/
def Invocation.Stop.outcome : Invocation.Stop → Outcome
  | .help scope => ⟨0, scope.help.map .text, none⟩
  | .usage => ⟨2, [], some "the command line is not understood; try --help"⟩

end FunctionService
