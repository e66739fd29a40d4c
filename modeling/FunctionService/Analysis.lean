import FunctionService.Diagnostic
import FunctionService.Signature

/-!
# Analysis

A package is analyzed by visiting each of its documents once. All visits share one state: the functions
found so far, the number of documents visited, and the diagnostics reported. A visit is a list of
actions on that state, and the state after a visit is what its actions make of it one after another.

Two actions depend on what other visits have done. Compilation errors are reported by whichever visit
claims them first. That the default module has no transformer is known only when its last document has
been visited, so every visit of it counts, and the one that completes the count looks whether a
transformer was found.
-/

namespace FunctionService

/-- The functions collected in a run, and what decides about the reports made once a run. -/
structure Registry where
  functions : List Signature := []
  foundAny : Bool := false
  visited : Nat := 0
  claimed : Bool := false
  deriving Inhabited

namespace Registry

/-- Adds a function behind the others. -/
def register (r : Registry) (f : Signature) : Registry :=
  { r with foundAny := true, functions := r.functions ++ [f] }

/-- Counts one more document, and says whether it completes the given total. -/
def countVisit (r : Registry) (total : Nat) : Bool × Registry :=
  (r.visited + 1 == total, { r with visited := r.visited + 1 })

/-- Claims the report of compilation errors, and says whether nobody had claimed it before. -/
def claim (r : Registry) : Bool × Registry :=
  (!r.claimed, { r with claimed := true })

/-- The functions by where they start; those that start together stay in their order. -/
def inSourceOrder (r : Registry) : List Signature :=
  r.functions.mergeSort Signature.startsNoLater

end Registry

/-- The state that all visits share. -/
structure Analysis where
  registry : Registry := {}
  reported : List Diagnostic := []
  deriving Inhabited

namespace Analysis

/-- Reports a diagnostic. -/
def report (a : Analysis) (d : Diagnostic) : Analysis :=
  { a with reported := a.reported ++ [d] }

/-- Adds a function to the registry. -/
def register (a : Analysis) (f : Signature) : Analysis :=
  { a with registry := a.registry.register f }

/-- Reports a diagnostic if the report of compilation errors can be claimed. -/
def claim (a : Analysis) (d : Diagnostic) : Analysis :=
  let (first, registry) := a.registry.claim
  let a := { a with registry }
  if first then a.report d else a

/-- Counts a visited document, and reports a diagnostic if it completes the total and no function has
been found. -/
def arrive (a : Analysis) (total : Nat) (d : Diagnostic) : Analysis :=
  let (complete, registry) := a.registry.countVisit total
  let a := { a with registry }
  if complete && !a.registry.foundAny then a.report d else a

end Analysis

/-- One action of a visit. -/
inductive Action where
  | report (d : Diagnostic)
  | register (f : Signature)
  | claim (d : Diagnostic)
  | arrive (total : Nat) (d : Diagnostic)
  deriving Inhabited

/-- The state after an action. -/
def Action.run (a : Analysis) : Action → Analysis
  | .report d => a.report d
  | .register f => a.register f
  | .claim d => a.claim d
  | .arrive total d => a.arrive total d

/-- The violations of a function, whatever the module it stands in. -/
def Signature.violations (f : Signature) : List Violation :=
  (if f.name = "main" then [.entryPoint] else []) ++
  (if f.isPublic && !f.isExpressionBodied then [.publicBlockBody] else []) ++
  (if f.isAnnotated then [.annotated] else [])

/-- The violation that a verdict about a function amounts to. -/
def Verdict.violations (function : String) : Verdict → List Violation
  | .ok => []
  | .parametersUnsupported => [.unsupportedParameter function]
  | .returnUnsupported => [.unsupportedReturn function]

/-- What a visit does about a function. A transformer of the default module is registered, whether or
not its types are supported. -/
def Signature.actions (t : SymbolTable) (inDefault : Bool) (f : Signature) : List Action :=
  let report (v : Violation) : Action := .report ⟨v, f.location⟩
  f.violations.map report ++
    if inDefault && f.isTransformer then
      ((f.verdict t).violations f.name).map report ++ [.register f]
    else []

/-- The violation that a declaration of a kind amounts to. -/
def DeclarationKind.violations (kind : DeclarationKind) : List Violation :=
  match kind with
  | .listener => [.listener]
  | .class => [.class]
  | .service => [.service]
  | .annotationDecl => [.disallowedMember kind.word]
  | .typeDefinition | .moduleVariable | .constant | .enum | .xmlNamespace => []

/-- What a visit does about a member. -/
def Member.actions (t : SymbolTable) (inDefault : Bool) : Member → List Action
  | .function definition => definition.signature.actions t inDefault
  | .declaration kind d => kind.violations.map fun v => .report ⟨v, d.location⟩
  | .other kind location => [.report ⟨.disallowedMember kind, location⟩]

namespace Package

/-- What a visit of a document does. Test documents are passed over. A package with compilation errors
is not looked into. -/
def visitActions (p : Package) (m : Module) (d : Document) : List Action :=
  if m.isTest d.id then []
  else if p.hasCompilationErrors then [.claim ⟨.compilationErrors, d.location⟩]
  else
    d.members.flatMap (Member.actions p.symbols m.isDefault) ++
      if m.isDefault then [.arrive m.documents.length ⟨.noTransformer, d.location⟩] else []

/-- The state after a visit of a document. -/
def visit (p : Package) (a : Analysis) (m : Module) (d : Document) : Analysis :=
  (p.visitActions m d).foldl Action.run a

/-- The state after visiting documents in the given order. -/
def visitAll (p : Package) (a : Analysis) (units : List (Module × Document)) : Analysis :=
  units.foldl (fun a u => p.visit a u.1 u.2) a

/-- The state after visiting every document of a package, in order. -/
def analyze (p : Package) (a : Analysis) : Analysis :=
  p.visitAll a p.units

end Package

end FunctionService
