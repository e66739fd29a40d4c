import FunctionService.Path

/-!
# Locations

A location is a stretch of a source file. Lines and columns are 64-bit numbers that count from zero,
and are displayed counting from one. Locations are ordered by where they start.
-/

namespace FunctionService

/-- A stretch of a source file; lines and columns count from zero. -/
structure Location where
  file : Path
  startLine : UInt64
  startCol : UInt64
  endLine : UInt64
  endCol : UInt64
  deriving DecidableEq, Inhabited

namespace Location

/-- The start of a file. -/
def fileStart (file : Path) : Location :=
  ⟨file, 0, 0, 0, 0⟩

/-- The file with the line and the column of the start, counting from one. -/
def display (l : Location) : String :=
  l.file.text ++ ":" ++ toString (l.startLine + 1).toNat ++ ":" ++ toString (l.startCol + 1).toNat

/-- The order of locations by file, line and column of their start. -/
def compareStart (a b : Location) : Ordering :=
  (a.file.compare b.file).then
    ((compare a.startLine b.startLine).then (compare a.startCol b.startCol))

end Location

end FunctionService
