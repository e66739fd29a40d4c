import FunctionService.Codec.Config
import FunctionService.Compile
import FunctionService.Description
import FunctionService.Files.Disk

/-!
# Loading packages and writing services

A package is given as a description file or as the directory that holds one. A service is written into
a directory, which is made if it is missing.
-/

namespace FunctionService

/-- The front ends that can load packages. -/
inductive Frontend where
  | json
  deriving DecidableEq, Inhabited

namespace Frontend

/-- The name of a front end. -/
def name : Frontend → String
  | .json => "json"

/-- The front end with a name. -/
def ofName (name : String) : Except Failure Frontend :=
  if name = "json" then .ok .json else .error (.unsupportedFrontend name)

end Frontend

/-- The file in a directory that describes the package in it. -/
def descriptionFile : Path :=
  ⟨"package.json"⟩

section

variable {m : Type → Type} [Monad m] [FileStore m]

/-- Loads the configuration in a file. -/
def loadConfig (path : Path) : m (Except Failure Config) := do
  match ← FileStore.read path with
  | .error fault => return .error (.inaccessible path fault)
  | .ok text =>
    match Config.ofText? text with
    | none => return .error (.malformedConfig path)
    | some c => return .ok c

/-- The file that describes the package at a path. -/
def resolvePackage (path : Path) : m Path := do
  if ← FileStore.isDirectory path then return path.join descriptionFile else return path

/-- Loads a package with the front end that the configuration names. -/
def loadPackage (c : Config) (path : Path) : m (Except Failure Package) := do
  match Frontend.ofName c.frontend with
  | .error failure => return .error failure
  | .ok .json =>
    let file ← resolvePackage path
    match ← FileStore.read file with
    | .error fault => return .error (.inaccessible file fault)
    | .ok text => return Package.parse file text

/-- Writes a generated document into a directory, and answers with the path of the file. -/
def writeSource (directory : Path) (source : SourceFile) : m (Except Failure Path) := do
  match ← FileStore.makeDirectories directory with
  | .error fault => return .error (.inaccessible directory fault)
  | .ok () =>
    let file := directory.join ⟨source.fileName⟩
    match ← FileStore.write file source.content with
    | .error fault => return .error (.inaccessible file fault)
    | .ok () => return .ok file

end

end FunctionService
