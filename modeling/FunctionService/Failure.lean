import FunctionService.Path

/-!
# Failures

Everything that can keep a package from being loaded or a service from being written, as causes. The
wording is in the `message` functions alone.
-/

namespace FunctionService

/-- Why a file or a directory could not be used. -/
inductive FileFault where
  | notFound
  | alreadyExists
  | notADirectory
  | isADirectory
  | nameTooLong
  | nulInName
  | notText
  | other (text : String)
  deriving DecidableEq, Inhabited

/-- The text of the system for a fault. -/
def FileFault.message : FileFault → String
  | .notFound => "No such file or directory (os error 2)"
  | .alreadyExists => "File exists (os error 17)"
  | .notADirectory => "Not a directory (os error 20)"
  | .isADirectory => "Is a directory (os error 21)"
  | .nameTooLong => "File name too long (os error 36)"
  | .nulInName => "file name contained an unexpected NUL byte"
  | .notText => "stream did not contain valid UTF-8"
  | .other text => text

/-- Why a generated unit has no source text. -/
inductive FormatFault where
  | invalidIdentifier (name : String)
  | emptyExpression
  | unformattable
  deriving DecidableEq, Inhabited

/-- What a format fault says. -/
def FormatFault.message : FormatFault → String
  | .invalidIdentifier name => "invalid identifier '" ++ name ++ "'"
  | .emptyExpression => "empty expression"
  | .unformattable => "syntax tree could not be formatted"

/-- Why a package cannot be loaded or a service cannot be written. -/
inductive Failure where
  /-- The description of a package does not decode. -/
  | malformedPackage (path : Path)
  /-- Several modules claim to be the default one. -/
  | severalDefaultModules (path : Path) (count : Nat)
  | missingDefaultModule (package : String)
  /-- The text of a configuration does not decode. -/
  | malformedConfig (path : Path)
  | unsupportedFrontend (name : String)
  | unformatted (fault : FormatFault)
  | inaccessible (path : Path) (fault : FileFault)
  deriving DecidableEq, Inhabited

/-- What a failure says. -/
def Failure.message : Failure → String
  | .malformedPackage path => "Invalid package description '" ++ path.text ++ "'"
  | .severalDefaultModules path count =>
    "Invalid package description '" ++ path.text ++ "': " ++ toString count ++
      " modules are marked as default"
  | .missingDefaultModule package => "Package '" ++ package ++ "' has no default module"
  | .malformedConfig path => "Invalid configuration '" ++ path.text ++ "'"
  | .unsupportedFrontend name => "Unsupported frontend: " ++ name
  | .unformatted fault => "Failed to format generated code: " ++ fault.message
  | .inaccessible path fault => "Failed to access '" ++ path.text ++ "': " ++ fault.message

/-- What is computed in two steps succeeds only if both of them do. -/
theorem exists_of_bind_eq_ok {ε α β : Type} {x : Except ε α} {f : α → Except ε β} {b : β}
    (h : (x >>= f) = .ok b) : ∃ a, x = .ok a ∧ f a = .ok b := by
  cases x with
  | error e => cases h
  | ok a => exact ⟨a, rfl, h⟩

end FunctionService
