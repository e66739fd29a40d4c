import FunctionService.Command.Report
import FunctionService.Loading

/-!
# Running commands

`check` loads a package and prints its violations. `build` also writes the service, unless the package
violates rules and the command does not insist. A command ends with code 0 when it did all it was asked
for, 1 when something stopped it, and 2 when the command line was not understood.

Documents are visited in the turns of a schedule, which is not up to the program.
-/

namespace FunctionService

/-- What `check` prints of a package and its violations. -/
def checkLines (p : Package) (ds : List Diagnostic) (json : Bool) : List Line :=
  if json then [.text (Json.pretty (.arr (ds.map Diagnostic.encode)))]
  else if ds.isEmpty then p.soundLines
  else violationLines ds

/-- The end of a `check` that loaded a package, with the violations it found. -/
def checkOutcome (p : Package) (ds : List Diagnostic) (json : Bool) : Outcome :=
  let lines := checkLines p ds json
  if ds.isEmpty then ⟨0, lines, none⟩ else .failed lines (violationComplaint ds)

/-- What `build` prints before it writes anything. -/
def buildLines (r : CompileResult) (json : Bool) : List Line :=
  if json then [.text (Json.pretty r.encode)]
  else if r.hasErrors then violationLines r.diagnostics
  else []

section

variable {m : Type → Type} [Monad m] [FileStore m]

/-- Runs `check`. -/
def runCheck (c : Config) (schedule : Schedule) (package : Path) (json : Bool) : m Outcome := do
  match ← loadPackage c package with
  | .error failure => return .failed [] failure.message
  | .ok p => return checkOutcome p (c.check schedule p) json

/-- Writes the service that was compiled, and ends `build`. -/
def finishBuild (c : Config) (r : CompileResult) (output : Path) (json force : Bool) : m Outcome := do
  let lines := buildLines r json
  if r.hasErrors && !force then return .failed lines (violationComplaint r.diagnostics)
  match r.generated with
  | none => return .failed lines "service generation failed; see the warning above"
  | some source =>
    match ← writeSource output source with
    | .error failure => return .failed lines failure.message
    | .ok file => return ⟨0, lines ++ if json then [] else r.writtenLines file c.service.port, none⟩

/-- Runs `build`. -/
def runBuild (c : Config) (schedule : Schedule) (package output : Path) (json force : Bool) :
    m Outcome := do
  match ← loadPackage c package with
  | .error failure => return .failed [] failure.message
  | .ok p => finishBuild c (c.compile schedule p) output json force

/-- The configuration with the port of the command line in the place of its own. -/
def Config.withPort (c : Config) : Option UInt16 → Config
  | none => c
  | some port => { c with service := { c.service with port } }

/-- The configuration with documents visited one after another, if the command line asks for it. -/
def Config.withSequential (c : Config) (sequential : Bool) : Config :=
  if sequential then { c with parallel := false } else c

/-- Runs a command under a configuration. -/
def Command.run (c : Config) (schedule : Schedule) : Command → m Outcome
  | .check package json => runCheck c schedule package json
  | .build package output port json force =>
    runBuild (c.withPort port) schedule package output json force

/-- The configuration of an invocation. -/
def Invocation.loadConfig (i : Invocation) : m (Except Failure Config) := do
  match i.config with
  | none => return .ok {}
  | some path => FunctionService.loadConfig path

/-- Runs an invocation. -/
def Invocation.run (i : Invocation) (schedule : Schedule) : m Outcome := do
  match ← i.loadConfig with
  | .error failure => return .failed [] failure.message
  | .ok c => i.command.run (c.withSequential i.sequential) schedule

/-- Runs a command line. -/
def runArguments (arguments : List String) (schedule : Schedule := []) : m Outcome :=
  match Invocation.parse arguments with
  | .error stop => return stop.outcome
  | .ok invocation => invocation.run schedule

end

end FunctionService
