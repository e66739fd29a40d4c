import FunctionService.Compile

/-!
# Sessions

A session keeps one package and one analysis through a list of steps, so that what the steps have in
common can be watched: visits of single documents in any order and any number of times, reports and
registrations from outside, and changes of the package between them.
-/

namespace FunctionService

/-- The package and the state of its analysis. -/
structure Session where
  package : Package
  analysis : Analysis := {}
  deriving Inhabited

/-- One step of a session. -/
inductive Step where
  | visit (module document : Nat)
  | analyze
  | register (f : Signature)
  | countVisit (total : Nat)
  | claim
  | report (d : Diagnostic)
  | count (number : Nat)
  | isSilent
  | bind (name : String) (symbol : TypeSymbol)
  | resolve (name : String)
  | symbols
  | setErrors (value : Bool)
  | sourceOrder
  | generate

/-- What a step answers. -/
inductive Answer where
  | done
  | truth (value : Bool)
  | number (value : Nat)
  | symbol (value : Option TypeSymbol)
  | size (count : Nat)
  | names (values : List String)
  | source (value : Option SourceFile)

namespace Session

/-- The module and the document of it, source documents first, with the given numbers. -/
def unit? (s : Session) (module document : Nat) : Option (Module × Document) := do
  let m ← s.package.modules[module]?
  return (m, ← m.allDocuments[document]?)

/-- The session with another registry. -/
def withRegistry (s : Session) (r : Registry) : Session :=
  { s with analysis := { s.analysis with registry := r } }

/-- Takes a step: its answer and the session after it. There is none for a visit of a document that does
not exist. -/
def step (format : Formatter) (c : ServiceConfig) (s : Session) : Step → Option (Answer × Session)
  | .visit module document => do
    let (m, d) ← s.unit? module document
    return (.done, { s with analysis := s.package.visit s.analysis m d })
  | .analyze => some (.done, { s with analysis := s.package.analyze s.analysis })
  | .register f => some (.done, { s with analysis := s.analysis.register f })
  | .countVisit total =>
    let (complete, r) := s.analysis.registry.countVisit total
    some (.truth complete, s.withRegistry r)
  | .claim =>
    let (first, r) := s.analysis.registry.claim
    some (.truth first, s.withRegistry r)
  | .report d => some (.done, { s with analysis := s.analysis.report d })
  | .count number =>
    some (.number (s.analysis.reported.filter fun d => d.violation.number == number).length, s)
  | .isSilent => some (.truth s.analysis.reported.isEmpty, s)
  | .bind name symbol =>
    let package := { s.package with symbols := s.package.symbols.insert name symbol }
    some (.symbol (s.package.symbols.resolve name), { s with package })
  | .resolve name => some (.symbol (s.package.symbols.resolve name), s)
  | .symbols => some (.size s.package.symbols.size, s)
  | .setErrors value =>
    some (.done, { s with package := { s.package with hasCompilationErrors := value } })
  | .sourceOrder => some (.names (s.analysis.registry.inSourceOrder.map (·.name)), s)
  | .generate => some (.source (FunctionService.generate format c s.analysis.registry.inSourceOrder), s)

end Session

end FunctionService
