import FunctionService.Compile
import FunctionService.Proofs.Completion

/-!
# Reports about the package as a whole

Two diagnostics are not about a member: that the default module has no transformer, and that the package
has compilation errors. Each is reported by one visit for all of them, and stands at the start of the
document that this visit is about. Which visit it is depends on the run.

`Interleaving.reported_origin` says where every diagnostic of a run comes from. For the two reports of
this module it leaves open only which document they stand at. How often they are made does not depend
on the run either: `Interleaving.alarms_eq` says so for the first, and `Interleaving.length_reported`
for the second. Where the visits are made one after another, `Package.visitAll_of_errors` says which of
them reports compilation errors.
-/

namespace FunctionService

/-- The diagnostic is about the package as a whole. -/
def Diagnostic.isOverall (d : Diagnostic) : Bool :=
  d.violation = .noTransformer || d.violation = .compilationErrors

theorem Member.Breaks.ne_compilationErrors {t : SymbolTable} {inDefault : Bool} {x : Member}
    {v : Violation} (h : x.Breaks t inDefault v) : v ≠ .compilationErrors := by
  cases h <;> exact Violation.noConfusion

theorem Package.exists_defaultModule {p : Package} (hone : p.defaultModuleCount = 1) :
    ∃ m, p.defaultModule? = some m := by
  obtain ⟨m, hm⟩ := List.length_eq_one_iff.mp hone
  exact ⟨m, by rw [defaultModule?, ← List.head?_filter, hm, List.head?_cons]⟩

/-! ## Where diagnostics come from -/

namespace Atom

/-- The diagnostic that an access reports, or that may be reported because of it. -/
def diagnostic? : Atom → Option Diagnostic
  | .report d => some d
  | .countVisit _ d => some d
  | .lookFound d => some d
  | .claim d => some d
  | .markFound => none
  | .append _ => none

variable {a : Analysis} {x y : Atom} {d : Diagnostic}

theorem diagnostic?_of_mem_step (hy : y ∈ (x.step a).2) (hd : y.diagnostic? = some d) :
    x.diagnostic? = some d := by
  cases x with
  | report e => cases hy
  | markFound => cases hy
  | append f => cases hy
  | countVisit total e => rw [(mem_ite_singleton.mp hy).2] at hd; exact hd
  | lookFound e =>
      simp only [step] at hy
      split at hy
      · cases hy
      · rw [List.mem_singleton.mp hy] at hd
        exact hd
  | claim e => rw [(mem_ite_singleton.mp hy).2] at hd; exact hd

theorem mem_reported_step (h : d ∈ (x.step a).1.reported) :
    d ∈ a.reported ∨ x.diagnostic? = some d := by
  cases x with
  | report e =>
      rcases List.mem_append.mp h with h | h
      · exact Or.inl h
      · exact Or.inr (congrArg some (List.mem_singleton.mp h).symm)
  | markFound => exact Or.inl h
  | append f => exact Or.inl h
  | countVisit total e => exact Or.inl h
  | lookFound e => exact Or.inl h
  | claim e => exact Or.inl h

end Atom

namespace Interleaving

variable {p : Package} {m : Module} {s s' : Interleaving} {d : Diagnostic}

/-- The diagnostic has been reported, or an access that may lead to its report is pending. -/
def Carries (s : Interleaving) (d : Diagnostic) : Prop :=
  d ∈ s.analysis.reported ∨ ∃ x ∈ s.pending, x.diagnostic? = some d

/-- No step invents a diagnostic. -/
theorem Step.carries (h : s.Step s') (hd : s'.Carries d) : s.Carries d := by
  obtain ⟨x, rest, hpend, hpend', ha⟩ := h.exists_atom
  have hx : x ∈ s.pending := hpend ▸ Multiset.mem_cons_self x rest
  rcases hd with hd | ⟨y, hy, hd⟩
  · rw [ha] at hd
    exact (Atom.mem_reported_step hd).imp_right fun hd => ⟨x, hx, hd⟩
  · rw [hpend', Multiset.mem_add] at hy
    rcases hy with hy | hy
    · exact Or.inr ⟨x, hx, Atom.diagnostic?_of_mem_step hy hd⟩
    · exact Or.inr ⟨y, hpend ▸ Multiset.mem_cons_of_mem hy, hd⟩

theorem Reaches.carries (h : s.Reaches s') (hd : s'.Carries d) : s.Carries d := by
  induction h with
  | refl => exact hd
  | tail _ hlast ih => exact ih (hlast.carries hd)

end Interleaving

namespace Package

variable {p : Package} {u : Module × Document} {d : Diagnostic}

theorem visitAtoms_of_errors (h : p.hasCompilationErrors = true) (u : Module × Document) :
    p.visitAtoms u =
      if u.1.isTest u.2.id then [] else [.claim ⟨.compilationErrors, u.2.location⟩] := by
  rw [visitAtoms, visitActions, h]
  cases u.1.isTest u.2.id <;> rfl

/-- What the visit of a document may report: that there are compilation errors, or else what there is to
say about a member or that there is no transformer. -/
inductive MayReport (p : Package) (u : Module × Document) : Diagnostic → Prop
  | compilationErrors :
      p.hasCompilationErrors = true → MayReport p u ⟨.compilationErrors, u.2.location⟩
  | noTransformer :
      p.hasCompilationErrors = false → u.1.isDefault = true →
      MayReport p u ⟨.noTransformer, u.2.location⟩
  | member {x : Member} {v : Violation} :
      p.hasCompilationErrors = false → x ∈ u.2.members → x.Breaks p.symbols u.1.isDefault v →
      MayReport p u ⟨v, x.location⟩

theorem mayReport_of_mem_visitAtoms {x : Atom} (hx : x ∈ p.visitAtoms u)
    (hd : x.diagnostic? = some d) : u.1.isTest u.2.id = false ∧ p.MayReport u d := by
  cases h : p.hasCompilationErrors with
  | true =>
      rw [visitAtoms_of_errors h] at hx
      cases hvisible : u.1.isTest u.2.id with
      | true => simp [hvisible] at hx
      | false =>
          obtain rfl : x = .claim ⟨.compilationErrors, u.2.location⟩ := by simpa [hvisible] using hx
          cases hd
          exact ⟨rfl, .compilationErrors h⟩
  | false =>
      obtain ⟨hvisible, ⟨y, hy, hx⟩ | ⟨hdefault, rfl⟩⟩ := (mem_visitAtoms_iff h).mp hx
      · rcases Member.mem_atoms_iff.mp hx with ⟨v, hv, rfl⟩ | ⟨_, f, _, rfl | rfl⟩
        · cases hd
          exact ⟨hvisible, .member h hy hv⟩
        · cases hd
        · cases hd
      · cases hd
        exact ⟨hvisible, .noTransformer h hdefault⟩

end Package

namespace Interleaving

variable {p : Package} {m : Module} {s s' : Interleaving} {d : Diagnostic}

/-- Every diagnostic of a run is one that the visit of a visible document may report. -/
theorem reported_origin (hrun : p.start.Reaches s) (hd : d ∈ s.analysis.reported) :
    ∃ u ∈ p.units, u.1.isTest u.2.id = false ∧ p.MayReport u d := by
  rcases hrun.carries (Or.inl hd) with hd | ⟨x, hx, hd⟩
  · cases hd
  · obtain ⟨u, hu, hx⟩ := mem_start_pending.mp hx
    exact ⟨u, hu, Package.mayReport_of_mem_visitAtoms hx hd⟩

end Interleaving

/-! ## Compilation errors -/

namespace Atom

/-- Claims the report of compilation errors. -/
def isClaim : Atom → Bool
  | .claim _ => true
  | _ => false

/-- Reports a diagnostic. -/
def isReport : Atom → Bool
  | .report _ => true
  | _ => false

attribute [simp] isClaim isReport

end Atom

namespace Interleaving

variable {p : Package} {m : Module} {s s' : Interleaving} {d : Diagnostic}

/-- What holds of the state and the pending accesses throughout a run in a package with compilation
errors, if there is a document to visit. One report is made or on its way from when it has been claimed,
and until then somebody is going to claim it. -/
structure Claiming (a : Analysis) (todo : Multiset Atom) : Prop where
  kinds : ∀ x ∈ todo, x.isClaim = true ∨ x.isReport = true
  balance : a.reported.length + Atom.number Atom.isReport todo = a.registry.claimed.toNat
  awaited : a.registry.claimed = true ∨ 0 < Atom.number Atom.isClaim todo

theorem Claiming.access {a : Analysis} {x : Atom} {rest : Multiset Atom}
    (h : Claiming a (x ::ₘ rest)) : Claiming (x.step a).1 (↑(x.step a).2 + rest) := by
  obtain ⟨hkinds, hbalance, hawaited⟩ := h
  have hrest : ∀ y ∈ rest, y.isClaim = true ∨ y.isReport = true :=
    fun y hy => hkinds y (Multiset.mem_cons_of_mem hy)
  have hx := hkinds x (Multiset.mem_cons_self x rest)
  cases x with
  | claim d =>
      -- Only the first claim is followed by a report.
      cases hclaimed : a.registry.claimed with
      | true =>
          refine ⟨?_, ?_, Or.inl rfl⟩
          · simpa [Atom.step, Registry.claim, hclaimed] using hrest
          · simpa [Atom.step, Registry.claim, hclaimed] using hbalance
      | false =>
          refine ⟨?_, ?_, Or.inl rfl⟩
          · simpa [Atom.step, Registry.claim, hclaimed] using hrest
          · have hnone : a.reported = [] ∧ Atom.number Atom.isReport rest = 0 := by
              simpa [hclaimed] using hbalance
            simp [Atom.step, Registry.claim, hclaimed, hnone]
  | report d =>
      refine ⟨?_, ?_, ?_⟩
      · simpa [Atom.step] using hrest
      · have hmoved : a.reported.length + 1 + Atom.number Atom.isReport rest =
            a.registry.claimed.toNat := by
          rw [← hbalance, Atom.number_cons]
          simp only [Atom.isReport, Bool.toNat_true]
          omega
        simpa [Atom.step, Analysis.report] using hmoved
      · simpa [Atom.step, Analysis.report] using hawaited
  | _ => simp at hx

theorem Claiming.run (h : s.Reaches s') (hs : Claiming s.analysis s.pending) :
    Claiming s'.analysis s'.pending := by
  refine Reaches.invariant (P := fun u => Claiming u.analysis u.pending) ?_ h hs
  intro u u' hstep hu
  obtain ⟨x, rest, hpend, hpend', ha⟩ := hstep.exists_atom
  rw [hpend] at hu
  rw [hpend', ha]
  exact hu.access

theorem start_claiming (h : p.hasCompilationErrors = true)
    (hvisible : ∃ u ∈ p.units, u.1.isTest u.2.id = false) :
    Claiming p.start.analysis p.start.pending := by
  have hclaim : ∀ x ∈ p.start.pending, x.isClaim = true := by
    intro x hx
    obtain ⟨u, _, hx⟩ := mem_start_pending.mp hx
    rw [Package.visitAtoms_of_errors h] at hx
    split at hx
    · cases hx
    · rw [List.mem_singleton.mp hx]
      rfl
  refine ⟨fun x hx => Or.inl (hclaim x hx), ?_, Or.inr ?_⟩
  · have hreports : Atom.number Atom.isReport p.start.pending = 0 := by
      refine Multiset.countP_eq_zero.mpr fun x hx hreport => ?_
      have hx := hclaim x hx
      cases x <;> simp_all
    rw [hreports]
    rfl
  · obtain ⟨u, hu, hvisible⟩ := hvisible
    refine Multiset.countP_pos.mpr ⟨.claim ⟨.compilationErrors, u.2.location⟩, ?_, rfl⟩
    refine mem_start_pending.mpr ⟨u, hu, ?_⟩
    rw [Package.visitAtoms_of_errors h, hvisible]
    exact List.mem_singleton_self _

/-- In a package with compilation errors one diagnostic is reported if there is a document to visit, and
none otherwise. -/
theorem length_reported (h : p.hasCompilationErrors = true) (hrun : p.start.Reaches s)
    (hdone : s.IsDone) :
    s.analysis.reported.length = if ∃ u ∈ p.units, u.1.isTest u.2.id = false then 1 else 0 := by
  split
  next hvisible =>
    obtain ⟨_, hbalance, hawaited⟩ := (start_claiming h hvisible).run hrun
    rw [hdone.pending_eq] at hbalance hawaited
    have hclaimed : s.analysis.registry.claimed = true := hawaited.resolve_right (Nat.lt_irrefl 0)
    rw [hclaimed] at hbalance
    exact hbalance
  next hvisible =>
    rw [List.length_eq_zero_iff, List.eq_nil_iff_forall_not_mem]
    intro d hd
    obtain ⟨u, hu, hvisible', _⟩ := reported_origin hrun hd
    exact hvisible ⟨u, hu, hvisible'⟩

/-! ## No transformer -/

/-- How often a finished run reports that there is no transformer. -/
theorem alarms_eq (h : p.hasCompilationErrors = false) (hone : p.defaultModuleCount = 1)
    (hm : p.defaultModule? = some m) (hrun : p.start.Reaches s) (hdone : s.IsDone) :
    s.analysis.alarms =
      if p.start.tally.marks = 0 ∧ 0 < m.documents.length ∧ m.documents.length ≤ m.countedDocuments
      then 1 else 0 := by
  by_cases hmarks : p.start.tally.marks = 0
  · rw [alarms_of_no_transformer h hone hm hrun hdone hmarks]
    simp only [hmarks, true_and]
  · rw [alarms_of_transformer h hone hm hrun hdone (Nat.pos_of_ne_zero hmarks),
      if_neg fun hall => hmarks hall.1]

end Interleaving

/-! ## Visits one after another -/

/-- Only the first claim has an effect. -/
theorem Analysis.claim_claim (a : Analysis) (d e : Diagnostic) : (a.claim d).claim e = a.claim d := by
  obtain ⟨⟨functions, foundAny, visited, claimed⟩, reported⟩ := a
  cases claimed <;> rfl

namespace Package

variable {p : Package}

/-- The visit of a document of a package with compilation errors. -/
theorem visit_of_errors (h : p.hasCompilationErrors = true) (a : Analysis) (m : Module) (d : Document) :
    p.visit a m d = if m.isTest d.id then a else a.claim ⟨.compilationErrors, d.location⟩ := by
  rw [visit, visitActions, h]
  cases m.isTest d.id <;> rfl

/-- Visits in a package with compilation errors, one after another, come to that of the first document
that is visible. -/
theorem visitAll_of_errors (h : p.hasCompilationErrors = true) (a : Analysis)
    (us : List (Module × Document)) :
    p.visitAll a us = ((us.find? fun u => !u.1.isTest u.2.id).elim a
      fun u => a.claim ⟨.compilationErrors, u.2.location⟩) := by
  induction us generalizing a with
  | nil => rfl
  | cons u us ih =>
      show p.visitAll (p.visit a u.1 u.2) us = _
      rw [ih, visit_of_errors h, List.find?_cons]
      cases u.1.isTest u.2.id with
      | true => rfl
      | false =>
          -- Whoever comes later finds the report claimed.
          cases us.find? fun u => !u.1.isTest u.2.id with
          | none => rfl
          | some v => exact a.claim_claim _ _

/-- In a package with compilation errors no visit finds or counts anything. -/
theorem registry_of_errors (h : p.hasCompilationErrors = true) (us : List (Module × Document)) :
    (p.visitAll {} us).registry.functions = [] ∧ (p.visitAll {} us).registry.visited = 0 := by
  rw [visitAll_of_errors h]
  cases us.find? fun u => !u.1.isTest u.2.id <;> exact ⟨rfl, rfl⟩

theorem generated_of_errors (h : p.hasCompilationErrors = true) (us : List (Module × Document))
    (format : Formatter) (c : ServiceConfig) :
    ((p.visitAll {} us).result format c).generated = generate format c [] := by
  rw [Analysis.result, Registry.inSourceOrder, (registry_of_errors h us).1, List.mergeSort_nil]

/-- **Packages with compilation errors.** Visiting the documents in any order reports the errors once, at the
start of the first document of the order that is visible, and nothing else; without such a document it
reports nothing. No function is registered and no visit counted, so what is generated is the
service of no functions. -/
theorem visitAll_compilationErrors (p : Package) (h : p.hasCompilationErrors = true)
    {order : List (Module × Document)} (horder : order.Perm p.units) (format : Formatter)
    (c : ServiceConfig) :
    let a := p.visitAll {} order
    ((∃ u ∈ p.units, u.1.isTest u.2.id = false) →
      ∃ before u after, order = before ++ u :: after ∧ u.1.isTest u.2.id = false ∧
        (∀ v ∈ before, v.1.isTest v.2.id = true) ∧
        a.reported = [⟨.compilationErrors, .fileStart ⟨u.2.name⟩⟩]) ∧
    ((∀ u ∈ p.units, u.1.isTest u.2.id = true) → a.reported = []) ∧
    a.registry.functions = [] ∧ a.registry.visited = 0 ∧
    (a.result format c).generated = generate format c [] ∧
    (p.compile format c).generated = generate format c [] := by
  intro a
  have hstate : a = _ := visitAll_of_errors h {} order
  obtain ⟨hfunctions, hvisited⟩ := registry_of_errors h order
  refine ⟨?_, ?_, hfunctions, hvisited, generated_of_errors h order format c,
    generated_of_errors h p.units format c⟩
  · rintro ⟨u, hu, hvisible⟩
    obtain ⟨v, hv⟩ : ∃ v, order.find? (fun u => !u.1.isTest u.2.id) = some v := by
      rw [← Option.isSome_iff_exists, List.find?_isSome]
      exact ⟨u, horder.mem_iff.mpr hu, by rw [hvisible, Bool.not_false]⟩
    rw [hv] at hstate
    obtain ⟨hvvisible, before, after, hsplit, hbefore⟩ := List.find?_eq_some_iff_append.mp hv
    refine ⟨before, v, after, hsplit, by simpa using hvvisible, by simpa using hbefore, ?_⟩
    rw [hstate]
    rfl
  · intro htest
    have hnone : order.find? (fun u => !u.1.isTest u.2.id) = none := by
      rw [List.find?_eq_none]
      intro u hu
      rw [htest u (horder.mem_iff.mp hu)]
      exact Bool.false_ne_true
    rw [hstate, hnone]
    rfl

/-- Errors in a package with a test document that has a finding of its own, visited from the back. -/
theorem visitAll_compilationErrors_sample :
    let p := { sample [sampleMain, sampleTransformer] with hasCompilationErrors := true }
    let a := p.visitAll {} p.units.reverse
    let c : ServiceConfig := {}
    p.hasCompilationErrors = true ∧ p.units.reverse.Perm p.units ∧
      (∃ u ∈ p.units, u.1.isTest u.2.id = false ∧
        a.reported = [⟨.compilationErrors, .fileStart ⟨u.2.name⟩⟩]) ∧
      (p.compile c.formatter c).generated.map SourceFile.fileName = some "service.bal" := by
  intro p a c
  obtain ⟨hreported, _, _, _, _, hgenerated⟩ :=
    visitAll_compilationErrors p rfl p.units.reverse_perm c.formatter c
  obtain ⟨before, u, after, hsplit, hvisible, _, hreported⟩ :=
    hreported ⟨_, List.mem_cons_self, by decide⟩
  have hu : u ∈ p.units.reverse := hsplit ▸ List.mem_append_right before List.mem_cons_self
  refine ⟨rfl, p.units.reverse_perm, ⟨u, List.mem_reverse.mp hu, hvisible, hreported⟩, ?_⟩
  rw [hgenerated]
  decide +kernel

end Package

end FunctionService
