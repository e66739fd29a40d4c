import FunctionService.Command.Run

/-!
# The program

Runs a command line on the files of the machine, prints what it has to say and ends with its exit code.
-/

namespace FunctionService

/-- The fault behind an error of the system. -/
def faultOf : IO.Error → FileFault
  | .noFileOrDirectory .. => .notFound
  | .alreadyExists .. => .alreadyExists
  | .inappropriateType _ code _ => if code == 21 then .isADirectory else .notADirectory
  | e => .other (toString e)

/-- Runs an operation on files, and catches its error. -/
def catching (operation : IO α) : IO (Except FileFault α) := do
  try
    return .ok (← operation)
  catch e =>
    return .error (faultOf e)

/-- The text of a file. -/
def readText (p : Path) : IO (Except FileFault String) := do
  match ← catching (IO.FS.readBinFile p.text) with
  | .error fault => return .error fault
  | .ok bytes =>
    match String.fromUTF8? bytes with
    | none => return .error .notText
    | some text => return .ok text

instance : FileStore IO where
  read := readText
  isDirectory p := do
    match ← readText p with
    | .error .isADirectory => return true
    | _ => return false
  makeDirectories p := catching (IO.FS.createDirAll p.text)
  write p text := catching (IO.FS.writeFile p.text text)

end FunctionService

open FunctionService

/-- The entry point of the program. -/
def main (arguments : List String) : IO UInt32 := do
  let start ← IO.monoMsNow
  let outcome ← (runArguments arguments : IO Outcome)
  let stop ← IO.monoMsNow
  IO.print (outcome.output (toString (stop - start)))
  if let some complaint := outcome.complaint then IO.eprintln ("Error: " ++ complaint)
  return outcome.exitCode.toUInt32
