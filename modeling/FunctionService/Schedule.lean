import FunctionService.Analysis

/-!
# Visits side by side

Documents may be visited side by side. An action of a visit is then not one step but several: a
registration first sets the flag that something was found and only then appends to the list, and a
counted visit that completes the total goes on to look at the flag. `Atom` is one such access to the
shared state, and what a visit has still to do is a list of them.

Which visit makes the next access is not up to the program. A `Schedule` says it, turn by turn; visits
that are under way when the schedule ends are finished one after another. The empty schedule is thus the
visit of one document after another.
-/

namespace FunctionService

/-- One access to the state that the visits share. -/
inductive Atom where
  | report (d : Diagnostic)
  | markFound
  | append (f : Signature)
  | countVisit (total : Nat) (d : Diagnostic)
  | lookFound (d : Diagnostic)
  | claim (d : Diagnostic)

namespace Atom

/-- The state after an access, and what the visit has to do next because of what it saw. -/
def step (a : Analysis) : Atom → Analysis × List Atom
  | .report d => (a.report d, [])
  | .markFound => ({ a with registry := { a.registry with foundAny := true } }, [])
  | .append f =>
    ({ a with registry := { a.registry with functions := a.registry.functions ++ [f] } }, [])
  | .countVisit total d =>
    ({ a with registry := (a.registry.countVisit total).2 },
      if (a.registry.countVisit total).1 then [.lookFound d] else [])
  | .lookFound d => (a, if a.registry.foundAny then [] else [.report d])
  | .claim d =>
    ({ a with registry := a.registry.claim.2 }, if a.registry.claim.1 then [.report d] else [])

/-- The state after an access and all that follows from it. -/
def settle (a : Analysis) : Atom → Analysis
  | .countVisit total d => a.arrive total d
  | .lookFound d => if a.registry.foundAny then a else a.report d
  | .claim d => a.claim d
  | x => (x.step a).1

end Atom

/-- The accesses that make up an action. -/
def Action.atoms : Action → List Atom
  | .report d => [.report d]
  | .register f => [.markFound, .append f]
  | .claim d => [.claim d]
  | .arrive total d => [.countVisit total d]

/-- The accesses of the visit of a document. -/
def Package.visitAtoms (p : Package) (u : Module × Document) : List Atom :=
  (p.visitActions u.1 u.2).flatMap Action.atoms

/-- Whose turn it is, again and again, by the position of the visit among all visits. -/
abbrev Schedule := List Nat

/-- The shared state of visits that are under way, and what each of them has still to do. -/
structure Visits where
  analysis : Analysis
  threads : List (List Atom)

namespace Visits

/-- The visit at a position makes its next access. A turn passes if that visit is finished or there is
none. -/
def takeTurn (v : Visits) (position : Nat) : Visits :=
  match v.threads[position]? with
  | some (x :: rest) =>
    ⟨(x.step v.analysis).1, v.threads.set position ((x.step v.analysis).2 ++ rest)⟩
  | _ => v

/-- The state after the visits have been finished one after another. -/
def finish (v : Visits) : Analysis :=
  v.threads.foldl (fun a thread => thread.foldl Atom.settle a) v.analysis

end Visits

/-- The state after visiting every document of a package side by side. -/
def Package.analyzeSideBySide (p : Package) (schedule : Schedule) : Analysis :=
  (schedule.foldl Visits.takeTurn ⟨{}, p.units.map p.visitAtoms⟩).finish

end FunctionService
