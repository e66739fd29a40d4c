import FunctionService.Package
import FunctionService.Support

/-!
# Signatures

What the rules and the service need to know of a function: its name, its shape and its types. A
transformer is a public isolated function whose body is an expression; the transformers of the default
module are what a service exposes.
-/

namespace FunctionService

/-- The signature of a function. -/
structure Signature where
  name : String
  isPublic : Bool
  isIsolated : Bool
  isExpressionBodied : Bool
  parameters : List Parameter
  returnType : Option TypeDesc
  isAnnotated : Bool
  location : Location
  deriving Inhabited

/-- The outcome of judging the types of a signature. -/
inductive Verdict where
  | ok
  | parametersUnsupported
  | returnUnsupported
  deriving DecidableEq, Inhabited

/-- Whether a body is an expression. -/
def FunctionBody.isExpression : FunctionBody → Bool
  | .expression _ => true
  | .block => false

/-- The signature of a function. -/
def FunctionDef.signature (f : FunctionDef) : Signature where
  name := f.name
  isPublic := f.qualifiers.contains .isPublic
  isIsolated := f.qualifiers.contains .isIsolated
  isExpressionBodied := f.body.isExpression
  parameters := f.parameters
  returnType := f.returnType
  isAnnotated := !f.annotations.isEmpty
  location := f.location

namespace Signature

/-- Public, isolated and with an expression for a body. -/
def isTransformer (f : Signature) : Bool :=
  f.isPublic && f.isIsolated && f.isExpressionBodied

/-- Whether the function takes parameters. -/
def hasParameters (f : Signature) : Bool :=
  !f.parameters.isEmpty

theorem hasParameters_iff {f : Signature} : f.hasParameters = true ↔ f.parameters ≠ [] := by
  simp [hasParameters]

/-- The name of the record that holds the payload of the function. -/
def payloadTypeName (f : Signature) : String :=
  f.name ++ "Payload"

/-- Judges the parameter types first, then the return type if there is one. -/
def verdict (t : SymbolTable) (f : Signature) : Verdict :=
  if !f.parameters.all (fun p => p.type.supported t) then .parametersUnsupported
  else if !f.returnType.all (fun r => r.supported t) then .returnUnsupported
  else .ok

/-- The order of signatures by where the functions start. -/
def startsNoLater (f g : Signature) : Bool :=
  (f.location.compareStart g.location).isLE

end Signature

end FunctionService
