import FunctionService.Proofs.PackageReports
import FunctionService.Session

/-!
# Histories of a session

A session may visit the documents of its package in any order and any number of times, analyze the
package as a whole again and again, and in between register functions, count visits and claim the report
of compilation errors on its own account. A history is a list of such steps, taken one after another on
a fresh state; what goes on inside a step may be interleaved, since the documents of a package may be
visited side by side.

What a step does to the state is said once, in `Account`: nothing is taken away from the list of
functions, the counter moves by the visits that count, and the permission to report compilation errors is
spent at most once. `Session.History.registry_exact` follows by induction. The report that there is no
transformer is not tied to a permission but to the counter, which comes to the number of documents at most
once (`Analysis.Once`).
-/

namespace FunctionService

/-! ## What visits do to a state -/

/-- How often it was reported that there are compilation errors. -/
def Analysis.errorReports (a : Analysis) : Nat :=
  a.reported.countP fun d => d.violation = .compilationErrors

namespace Atom

/-- Reports that there are compilation errors. -/
def isErrorReport : Atom → Bool
  | .report d => d.violation = .compilationErrors
  | _ => false

attribute [simp] isErrorReport

/-- The accesses that occur in the visits of a package: the report that depends on the count is that
there is no transformer, and the report that is claimed is that there are compilation errors. -/
def IsFitting : Atom → Prop
  | .countVisit _ d => d.violation = .noTransformer
  | .lookFound d => d.violation = .noTransformer
  | .claim d => d.violation = .compilationErrors
  | _ => True

variable {a : Analysis} {x y : Atom}

theorem IsFitting.of_mem_step (hx : x.IsFitting) (hy : y ∈ (x.step a).2) : y.IsFitting := by
  cases x with
  | report d => cases hy
  | markFound => cases hy
  | append f => cases hy
  | countVisit total d =>
      rw [(mem_ite_singleton.mp hy).2]
      exact hx
  | lookFound d =>
      simp only [step] at hy
      split at hy
      · cases hy
      · rw [List.mem_singleton.mp hy]
        trivial
  | claim d =>
      rw [(mem_ite_singleton.mp hy).2]
      trivial

theorem functions_prefix_step (a : Analysis) (x : Atom) :
    a.registry.functions <+: (x.step a).1.registry.functions := by
  cases x with
  | append f => exact List.prefix_append _ _
  | _ => exact List.prefix_rfl

theorem reported_prefix_step (a : Analysis) (x : Atom) : a.reported <+: (x.step a).1.reported := by
  cases x with
  | report d => exact List.prefix_append _ _
  | _ => exact List.prefix_rfl

/-- An access that counts moves the counter by one, and nothing else does. -/
theorem step_visited (a : Analysis) (x : Atom) :
    (x.step a).1.registry.visited + (x.step a).2.countP isVisit =
      a.registry.visited + x.isVisit.toNat := by
  cases x with
  | report d => rfl
  | markFound => rfl
  | append f => rfl
  | countVisit total d =>
      simp only [step]
      cases (a.registry.countVisit total).1 <;> rfl
  | lookFound d =>
      simp only [step]
      cases a.registry.foundAny <;> rfl
  | claim d =>
      simp only [step]
      cases a.registry.claim.1 <;> rfl

/-- The permission to report compilation errors, and the reports made of them. A claim turns one into a
report that is to be made, and a report moves from what is to be made to what is made. -/
theorem step_errorReports (a : Analysis) (hx : x.IsFitting) :
    (x.step a).1.errorReports + (!(x.step a).1.registry.claimed).toNat +
        (x.step a).2.countP isErrorReport =
      a.errorReports + (!a.registry.claimed).toNat + x.isErrorReport.toNat := by
  cases x with
  | report d =>
      by_cases hd : d.violation = .compilationErrors <;>
        simp [step, Analysis.report, Analysis.errorReports, hd]
      omega
  | markFound => rfl
  | append f => rfl
  | countVisit total d =>
      simp only [step]
      cases (a.registry.countVisit total).1 <;> rfl
  | lookFound d =>
      have hd : d.violation = .noTransformer := hx
      simp only [step]
      cases a.registry.foundAny <;> simp [hd]
  | claim d =>
      have hd : d.violation = .compilationErrors := hx
      cases hclaimed : a.registry.claimed <;>
        simp [step, Registry.claim, hclaimed, hd, Analysis.errorReports]

end Atom

namespace Interleaving

variable {s s' : Interleaving}

/-- A list that no access takes anything away from is only added to in a run. -/
theorem Reaches.isPrefix {β : Type} (view : Analysis → List β)
    (hstep : ∀ (a : Analysis) (x : Atom), view a <+: view (x.step a).1) (h : s.Reaches s') :
    view s.analysis <+: view s'.analysis := by
  refine Reaches.invariant (P := fun u => view s.analysis <+: view u.analysis) ?_ h List.prefix_rfl
  intro u u' hlast hu
  obtain ⟨x, _, _, _, ha⟩ := hlast.exists_atom
  rw [ha]
  exact hu.trans (hstep u.analysis x)

/-- A number is conserved by a step if it is conserved by the access that the step makes. -/
theorem Step.number_conserved (view : Analysis → Nat) (kind : Atom → Bool) (h : s.Step s')
    (hview : ∀ x ∈ s.pending, view (x.step s.analysis).1 + (x.step s.analysis).2.countP kind =
      view s.analysis + (kind x).toNat) :
    view s'.analysis + Atom.number kind s'.pending = view s.analysis + Atom.number kind s.pending := by
  obtain ⟨x, rest, hs, hs', ha⟩ := h.exists_atom
  have hx := hview x (hs ▸ Multiset.mem_cons_self x rest)
  have hsum : Atom.number kind (↑(x.step s.analysis).2 + rest) =
      (x.step s.analysis).2.countP kind + Atom.number kind rest := by
    rw [Atom.number, Multiset.countP_add, Multiset.coe_countP]
    simp only [Bool.decide_eq_true]
    rfl
  rw [hs, hs', ha, hsum, Atom.number_cons]
  omega

/-- A finished run moves the counter by the number of accesses that count. -/
theorem Reaches.visited_eq (h : s.Reaches s') (hdone : s'.IsDone) :
    s'.analysis.registry.visited =
      s.analysis.registry.visited + Atom.number Atom.isVisit s.pending := by
  have hrun := Reaches.invariant (P := fun u => u.analysis.registry.visited +
      Atom.number Atom.isVisit u.pending = s.analysis.registry.visited +
      Atom.number Atom.isVisit s.pending)
    (fun hstep hu => (hstep.number_conserved (·.registry.visited) Atom.isVisit
      fun x _ => Atom.step_visited _ x).trans hu) h rfl
  rw [hdone.pending_eq] at hrun
  exact hrun

/-- The accesses of a run stay fitting, and the permission to report compilation errors is kept
account of. -/
theorem Reaches.errorReports_eq (h : s.Reaches s') (hdone : s'.IsDone)
    (hfit : ∀ x ∈ s.pending, x.IsFitting) :
    s'.analysis.errorReports + (!s'.analysis.registry.claimed).toNat =
      s.analysis.errorReports + (!s.analysis.registry.claimed).toNat +
        Atom.number Atom.isErrorReport s.pending := by
  have hrun := Reaches.invariant (P := fun u => (∀ x ∈ u.pending, x.IsFitting) ∧
      u.analysis.errorReports + (!u.analysis.registry.claimed).toNat +
        Atom.number Atom.isErrorReport u.pending =
      s.analysis.errorReports + (!s.analysis.registry.claimed).toNat +
        Atom.number Atom.isErrorReport s.pending) ?_ h ⟨hfit, rfl⟩
  · have hend := hrun.2
    rw [hdone.pending_eq] at hend
    exact hend
  · rintro u u' hstep ⟨hfit, hu⟩
    refine ⟨hstep.forall_pending (fun _ _ hx _ hy => hx.of_mem_step hy) hfit, ?_⟩
    exact (hstep.number_conserved (fun a => a.errorReports + (!a.registry.claimed).toNat)
      Atom.isErrorReport fun x hx => Atom.step_errorReports _ (hfit x hx)).trans hu

/-- The flag is set at the end of a run if it was set before or is set in the run. -/
theorem Reaches.foundAny_iff (h : s.Reaches s') (hdone : s'.IsDone) :
    s'.analysis.registry.foundAny = true ↔
      s.analysis.registry.foundAny = true ∨ .markFound ∈ s.pending := by
  have hrun := Reaches.invariant (P := fun u =>
      (u.analysis.registry.foundAny = true ∨ .markFound ∈ u.pending ↔
        s.analysis.registry.foundAny = true ∨ .markFound ∈ s.pending)) ?_ h Iff.rfl
  · rw [← hrun, hdone.pending_eq]
    simp
  · intro u u' hstep hu
    rw [← hu]
    obtain ⟨x, rest, hpend, hpend', ha⟩ := hstep.exists_atom
    rw [ha, hpend, hpend', Multiset.mem_add, Multiset.mem_coe, Multiset.mem_cons]
    cases x with
    | markFound => simp [Atom.step]
    | _ => simp [Atom.step, Registry.countVisit, Registry.claim, Analysis.report]

/-- A function is registered at the end of a run if it was before or is appended in the run. -/
theorem Reaches.mem_functions_iff (h : s.Reaches s') (hdone : s'.IsDone) {f : Signature} :
    f ∈ s'.analysis.registry.functions ↔
      f ∈ s.analysis.registry.functions ∨ .append f ∈ s.pending := by
  have happended : f ∈ s.pending.filterMap Atom.appended? ↔ .append f ∈ s.pending := by
    rw [Multiset.mem_filterMap]
    constructor
    · rintro ⟨x, hx, hf⟩
      cases x with
      | append g => cases hf; exact hx
      | _ => cases hf
    · intro hx
      exact ⟨.append f, hx, rfl⟩
  rw [← Multiset.mem_coe, ← hdone.registered_eq, h.registered_eq, registered, Multiset.mem_add,
    happended, Multiset.mem_coe]

theorem Reaches.functions_ne_nil_iff (h : s.Reaches s') (hdone : s'.IsDone) :
    s'.analysis.registry.functions ≠ [] ↔
      s.analysis.registry.functions ≠ [] ∨ ∃ f, .append f ∈ s.pending := by
  constructor
  · intro hne
    obtain ⟨f, hf⟩ := List.exists_mem_of_ne_nil _ hne
    rcases (h.mem_functions_iff hdone).mp hf with hf | hf
    · exact Or.inl (List.ne_nil_of_mem hf)
    · exact Or.inr ⟨f, hf⟩
  · rintro (hne | ⟨f, hf⟩)
    · obtain ⟨f, hf⟩ := List.exists_mem_of_ne_nil _ hne
      exact List.ne_nil_of_mem ((h.mem_functions_iff hdone).mpr (Or.inl hf))
    · exact List.ne_nil_of_mem ((h.mem_functions_iff hdone).mpr (Or.inr hf))

end Interleaving

namespace Package

variable {p : Package} {u : Module × Document} {x : Atom}

/-- A visit that sets the flag appends a function, and the other way round. -/
theorem markFound_mem_visitAtoms_iff :
    .markFound ∈ p.visitAtoms u ↔ ∃ f, .append f ∈ p.visitAtoms u := by
  have haction : ∀ act : Action, .markFound ∈ act.atoms ↔ ∃ f, .append f ∈ act.atoms := by
    intro act
    cases act <;> simp [Action.atoms]
  simp only [visitAtoms, List.mem_flatMap, haction]
  constructor
  · rintro ⟨act, hact, f, hf⟩
    exact ⟨f, act, hact, hf⟩
  · rintro ⟨f, act, hact, hf⟩
    exact ⟨act, hact, f, hf⟩

/-- Every access of a visit is fitting, and none of them reports compilation errors without having
claimed to. -/
theorem isFitting_of_mem_visitAtoms (hx : x ∈ p.visitAtoms u) :
    x.IsFitting ∧ ¬ x.isErrorReport = true := by
  cases h : p.hasCompilationErrors with
  | true =>
      rw [visitAtoms_of_errors h] at hx
      split at hx
      · cases hx
      · rw [List.mem_singleton.mp hx]
        exact ⟨rfl, Bool.false_ne_true⟩
  | false =>
      obtain ⟨_, ⟨y, _, hx⟩ | ⟨_, rfl⟩⟩ := (mem_visitAtoms_iff h).mp hx
      · rcases Member.mem_atoms_iff.mp hx with ⟨v, hv, rfl⟩ | ⟨_, f, _, rfl | rfl⟩
        · exact ⟨trivial, by simpa using hv.ne_compilationErrors⟩
        · exact ⟨trivial, Bool.false_ne_true⟩
        · exact ⟨trivial, Bool.false_ne_true⟩
      · exact ⟨rfl, Bool.false_ne_true⟩

/-- A visit of a document counts: the package has no compilation errors, the module is a default module
and the document is not hidden by a test document. -/
def Counts (p : Package) (u : Module × Document) : Prop :=
  p.hasCompilationErrors = false ∧ u.1.isDefault = true ∧ u.2.id ∉ u.1.testDocuments.map Document.id

instance : Decidable (p.Counts u) :=
  inferInstanceAs (Decidable (_ ∧ _ ∧ _))

theorem countP_isVisit_eq (p : Package) (u : Module × Document) :
    (p.visitAtoms u).countP Atom.isVisit = if p.Counts u then 1 else 0 := by
  cases h : p.hasCompilationErrors with
  | true =>
      have hnot : ¬ p.Counts u := fun hcounts => Bool.noConfusion (hcounts.1.symm.trans h)
      rw [visitAtoms_of_errors h, if_neg hnot]
      split <;> rfl
  | false =>
      rw [countP_isVisit_visitAtoms h]
      have hcounts : p.Counts u ↔ (!u.1.isTest u.2.id && u.1.isDefault) = true := by
        rw [Counts, ← Module.isTest_iff]
        simp [h, and_comm]
      simp only [hcounts]

theorem visiting_visits (p : Package) (a : Analysis) (us : List (Module × Document)) :
    Atom.number Atom.isVisit (p.visiting a us).pending = us.countP fun u => p.Counts u := by
  have hsum : (us.flatMap p.visitAtoms).countP Atom.isVisit = us.countP fun u => p.Counts u :=
    countP_flatMap_of_forall (fun u => by simp only [countP_isVisit_eq, decide_eq_true_eq]) us
  rw [Interleaving.visiting_pending, Atom.number, Multiset.coe_countP, ← hsum]
  simp only [Bool.decide_eq_true]

end Package

/-! ## The account of a step -/

/-- The flag tells whether functions are registered. -/
def Registry.Consistent (r : Registry) : Prop :=
  r.foundAny = true ↔ r.functions ≠ []

/-- What becomes of a state in a step that counts `visits` visits, and in which the permission to report
compilation errors is `granted` to somebody outside or not. It is either kept, granted, or used for one
report. -/
structure Account (visits : Nat) (granted : Bool) (a a' : Analysis) : Prop where
  functions : a.registry.functions <+: a'.registry.functions
  reported : a.reported <+: a'.reported
  consistent : a.registry.Consistent → a'.registry.Consistent
  visited : a'.registry.visited = a.registry.visited + visits
  permission : a'.errorReports + (!a'.registry.claimed).toNat + granted.toNat =
    a.errorReports + (!a.registry.claimed).toNat

namespace Account

variable {a : Analysis}

theorem visits {p : Package} {us : List (Module × Document)} {r : Interleaving}
    (hrun : (p.visiting a us).Reaches r) (hdone : r.IsDone) :
    Account (us.countP fun u => p.Counts u) false a r.analysis where
  functions := hrun.isPrefix (·.registry.functions) Atom.functions_prefix_step
  reported := hrun.isPrefix (·.reported) Atom.reported_prefix_step
  consistent := by
    intro ha
    have hmarks : .markFound ∈ (p.visiting a us).pending ↔
        ∃ f, .append f ∈ (p.visiting a us).pending := by
      simp only [Interleaving.mem_visiting_pending, Package.markFound_mem_visitAtoms_iff]
      constructor
      · rintro ⟨u, hu, f, hf⟩
        exact ⟨f, u, hu, hf⟩
      · rintro ⟨f, u, hu, hf⟩
        exact ⟨u, hu, f, hf⟩
    rw [Registry.Consistent, hrun.foundAny_iff hdone, hrun.functions_ne_nil_iff hdone, hmarks]
    exact or_congr_left ha
  visited := by
    rw [hrun.visited_eq hdone, Package.visiting_visits]
    rfl
  permission := by
    have hpending : ∀ x ∈ (p.visiting a us).pending, x.IsFitting ∧ ¬ x.isErrorReport = true := by
      intro x hx
      obtain ⟨u, _, hx⟩ := Interleaving.mem_visiting_pending.mp hx
      exact Package.isFitting_of_mem_visitAtoms hx
    have hnone : Atom.number Atom.isErrorReport (p.visiting a us).pending = 0 :=
      Multiset.countP_eq_zero.mpr fun x hx => (hpending x hx).2
    have hend := hrun.errorReports_eq hdone fun x hx => (hpending x hx).1
    rw [hnone] at hend
    exact hend

theorem register (a : Analysis) (f : Signature) : Account 0 false a (a.register f) where
  functions := List.prefix_append _ _
  reported := List.prefix_rfl
  consistent := fun _ => by simp [Registry.Consistent, Analysis.register, Registry.register]
  visited := rfl
  permission := rfl

theorem countVisit (a : Analysis) (total : Nat) :
    Account 1 false a { a with registry := (a.registry.countVisit total).2 } where
  functions := List.prefix_rfl
  reported := List.prefix_rfl
  consistent := id
  visited := rfl
  permission := rfl

theorem claim (a : Analysis) :
    Account 0 a.registry.claim.1 a { a with registry := a.registry.claim.2 } where
  functions := List.prefix_rfl
  reported := List.prefix_rfl
  consistent := id
  visited := rfl
  permission := by
    show a.errorReports + 0 + (!a.registry.claimed).toNat = _
    rw [Nat.add_zero]

end Account

/-! ## The report that there is no transformer -/

/-- The report is made, or on its way, at most once, and not before the count is complete. -/
def Tally.Once (N : Nat) (t : Tally) : Prop :=
  t.alarms + t.looks ≤ if N ≤ t.visited then 1 else 0

theorem Tally.Once.step {N : Nat} {t t' : Tally} (h : Tally.Step N t t') (ht : t.Once N) : t'.Once N := by
  unfold Tally.Once at ht ⊢
  cases h with
  | quiet t => exact ht
  | mark v f i m l a => exact ht
  | visit v f i m l a _ =>
      show a + l ≤ if N ≤ v + 1 then 1 else 0
      replace ht : a + l ≤ if N ≤ v then 1 else 0 := ht
      split at ht <;> split <;> omega
  | complete v f i m l a heq =>
      -- The count was not complete before, so nothing was on its way.
      show a + (l + 1) ≤ if N ≤ v + 1 then 1 else 0
      replace ht : a + l ≤ if N ≤ v then 1 else 0 := ht
      rw [if_neg (by omega)] at ht
      rw [if_pos (by omega)]
      omega
  | lookFound v i m l a =>
      show a + l ≤ if N ≤ v then 1 else 0
      exact (Nat.add_le_add_left (Nat.le_succ l) a).trans ht
  | lookUnfound v i m l a =>
      show a + 1 + l ≤ if N ≤ v then 1 else 0
      rw [Nat.add_right_comm]
      exact ht

/-- It was reported at most once that there is no transformer, and not before the count was complete. -/
def Analysis.Once (N : Nat) (a : Analysis) : Prop :=
  a.alarms ≤ if N ≤ a.registry.visited then 1 else 0

/-- Visits of documents keep it so, whichever they are: they only count upwards, and all towards the same
total. -/
theorem Analysis.Once.visits {p : Package} {m : Module} {a : Analysis} {us : List (Module × Document)}
    {r : Interleaving} (herrors : p.hasCompilationErrors = false) (hone : p.defaultModuleCount = 1)
    (hm : p.defaultModule? = some m) (hus : ∀ u ∈ us, u ∈ p.units) (ha : a.Once m.documents.length)
    (hrun : (p.visiting a us).Reaches r) (hdone : r.IsDone) : r.analysis.Once m.documents.length := by
  have hregular : (p.visiting a us).IsRegular := by
    intro x hx
    obtain ⟨u, _, hx⟩ := Interleaving.mem_visiting_pending.mp hx
    exact Package.isRegular_of_mem_visitAtoms herrors hx
  have htotals : (p.visiting a us).Totals m.documents.length := by
    intro total d hmem
    obtain ⟨u, hu, hmem⟩ := Interleaving.mem_visiting_pending.mp hmem
    exact Package.total_eq_of_mem_visitAtoms herrors hone hm (hus u hu) hmem
  have honce : (p.visiting a us).tally.Once m.documents.length := by
    obtain ⟨hlooks, halarms⟩ := Package.visiting_looks_alarms herrors a us
    unfold Tally.Once
    rw [hlooks, halarms]
    exact ha
  have hend := Interleaving.Reaches.invariant (P := fun u => u.IsRegular ∧
      u.Totals m.documents.length ∧ u.tally.Once m.documents.length)
    (fun hstep hu => ⟨hstep.isRegular hu.1, hstep.totals hu.2.1,
      hu.2.2.step (hstep.tally hu.1 hu.2.1)⟩) hrun ⟨hregular, htotals, honce⟩
  obtain ⟨_, hlooks, halarms⟩ := hdone.tally_eq
  have hr := hend.2.2
  unfold Tally.Once at hr
  rw [hlooks, halarms] at hr
  exact hr

/-! ## Histories -/

namespace Step

/-- The steps of a history. The others look at the state, or report or change the package from outside. -/
def acts : Step → Bool
  | .visit _ _ => true
  | .analyze => true
  | .register _ => true
  | .countVisit _ => true
  | .claim => true
  | _ => false

/-- The steps of a history that a session with a package can take: the documents to be visited exist. -/
def isPossible (p : Package) : Step → Bool
  | .visit module document => (Session.unit? { package := p } module document).isSome
  | st => st.acts

/-- Counts a visit from outside. -/
def isMark : Step → Bool
  | .countVisit _ => true
  | _ => false

/-- The documents of a package that a step visits. -/
def units (p : Package) : Step → List (Module × Document)
  | .visit module document => (Session.unit? { package := p } module document).toList
  | .analyze => p.units
  | _ => []

theorem mem_units {p : Package} {st : Step} {u : Module × Document} (hu : u ∈ st.units p) :
    u ∈ p.units := by
  cases st with
  | visit i j =>
      obtain ⟨m, hm, hunit⟩ := Option.bind_eq_some_iff.mp (Option.mem_toList.mp hu)
      obtain ⟨d, hd, heq⟩ := Option.bind_eq_some_iff.mp hunit
      cases heq
      exact List.mem_flatMap.mpr
        ⟨m, List.mem_of_getElem? hm, List.mem_map_of_mem (List.mem_of_getElem? hd)⟩
  | analyze => exact hu
  | _ => cases hu

end Step

/-- A step that a session took: what it answered, and the session before and after it. -/
structure Event where
  step : Step
  answer : Answer
  before : Session
  after : Session

namespace Event

/-- The step claimed the report of compilation errors and was granted it. -/
def isGranted (e : Event) : Bool :=
  match e.step, e.answer with
  | .claim, .truth value => value
  | _, _ => false

/-- The diagnostics that were reported in the step. -/
def reported (e : Event) : List Diagnostic :=
  e.after.analysis.reported.drop e.before.analysis.reported.length

/-- Compilation errors were reported in the step, or their report was granted. -/
def settlesErrors (e : Event) : Bool :=
  e.isGranted || e.reported.any fun d => d.violation = .compilationErrors

/-- A step that settles compilation errors uses up the permission to do so. -/
theorem settlesErrors_le {e : Event} {visits : Nat}
    (h : Account visits e.isGranted e.before.analysis e.after.analysis) :
    e.settlesErrors.toNat + (!e.after.analysis.registry.claimed).toNat ≤
      (!e.before.analysis.registry.claimed).toNat := by
  have hreported : e.after.analysis.errorReports = e.before.analysis.errorReports +
      e.reported.countP fun d => d.violation = .compilationErrors := by
    unfold Analysis.errorReports reported
    rw [← List.countP_append, ← List.prefix_append_drop h.reported]
  have hspent := h.permission
  rw [hreported] at hspent
  unfold settlesErrors
  cases hgranted : e.isGranted with
  | true =>
      rw [hgranted, Bool.toNat_true] at hspent
      rw [Bool.true_or, Bool.toNat_true]
      omega
  | false =>
      rw [Bool.false_or]
      cases hany : e.reported.any fun d => d.violation = .compilationErrors with
      | true =>
          have hpos := List.countP_pos_iff.mpr (List.any_eq_true.mp hany)
          rw [Bool.toNat_true]
          omega
      | false =>
          rw [Bool.toNat_false]
          omega

end Event

namespace Session

/-- A session takes a step of a history. The analysis of a package may also visit its documents side by
side. -/
inductive Takes (s : Session) : Step → Answer → Session → Prop
  | alone (format : Formatter) (c : ServiceConfig) (st : Step) {ans : Answer} {s' : Session} :
      st.acts = true → s.step format c st = some (ans, s') → Takes s st ans s'
  | together {r : Interleaving} :
      (s.package.visiting s.analysis s.package.units).Reaches r → r.IsDone →
      Takes s .analyze .done { s with analysis := r.analysis }

/-- What taking a step amounts to: visits of some documents, or one of the three other operations. -/
inductive Effect (s : Session) : Step → Answer → Session → Prop
  | visits {st : Step} {r : Interleaving} :
      st.isMark = false →
      (s.package.visiting s.analysis (st.units s.package)).Reaches r → r.IsDone →
      Effect s st .done { s with analysis := r.analysis }
  | register (f : Signature) :
      Effect s (.register f) .done { s with analysis := s.analysis.register f }
  | countVisit (total : Nat) :
      Effect s (.countVisit total) (.truth (s.analysis.registry.countVisit total).1)
        (s.withRegistry (s.analysis.registry.countVisit total).2)
  | claim :
      Effect s .claim (.truth s.analysis.registry.claim.1) (s.withRegistry s.analysis.registry.claim.2)

variable {s s' : Session} {st : Step} {ans : Answer}

/-- Visits one after another are visits side by side of a special kind. -/
theorem Effect.visitAll (hmark : st.isMark = false) {us : List (Module × Document)}
    (hus : st.units s.package = us) :
    s.Effect st .done { s with analysis := s.package.visitAll s.analysis us } := by
  subst hus
  obtain ⟨r, hrun, hdone, hr⟩ :=
    Interleaving.reaches_visiting s.package s.analysis (st.units s.package)
  rw [← hr]
  exact .visits hmark hrun hdone

/-- Every step of a history has one of the four effects. -/
theorem Takes.effect (h : s.Takes st ans s') : s.Effect st ans s' := by
  cases h with
  | together hrun hdone => exact .visits rfl hrun hdone
  | alone format c _ hacts hstep =>
      cases st with
      | visit i j =>
          simp only [step, Option.bind_eq_bind, Option.bind_eq_some_iff] at hstep
          obtain ⟨u, hu, hstep⟩ := hstep
          cases hstep
          have hunits : (Step.visit i j).units s.package = [u] := by
            show (s.unit? i j).toList = [u]
            rw [hu]
            rfl
          exact Effect.visitAll rfl hunits
      | analyze =>
          cases hstep
          exact Effect.visitAll rfl rfl
      | register f => cases hstep; exact .register f
      | countVisit total => cases hstep; exact .countVisit total
      | claim => cases hstep; exact .claim
      | _ => cases hacts

/-- Every step that there is something to do for can be taken. -/
theorem exists_takes (hst : st.isPossible s.package = true) : ∃ ans s', s.Takes st ans s' := by
  cases st with
  | visit i j =>
      obtain ⟨u, hu⟩ := Option.isSome_iff_exists.mp hst
      have hstep : ∀ format c, s.step format c (.visit i j) =
          some (.done, { s with analysis := s.package.visit s.analysis u.1 u.2 }) := by
        intro format c
        show (s.unit? i j).bind _ = _
        rw [show s.unit? i j = some u from hu]
        rfl
      exact ⟨_, _, .alone .rejecting {} _ rfl (hstep _ _)⟩
  | analyze => exact ⟨_, _, .alone .rejecting {} _ rfl rfl⟩
  | register f => exact ⟨_, _, .alone .rejecting {} _ rfl rfl⟩
  | countVisit total => exact ⟨_, _, .alone .rejecting {} _ rfl rfl⟩
  | claim => exact ⟨_, _, .alone .rejecting {} _ rfl rfl⟩
  | _ => cases hst

theorem Effect.package_eq (h : s.Effect st ans s') : s'.package = s.package := by
  cases h <;> rfl

theorem Effect.account (h : s.Effect st ans s') :
    Account (st.isMark.toNat + (st.units s.package).countP fun u => s.package.Counts u)
      (Event.isGranted ⟨st, ans, s, s'⟩) s.analysis s'.analysis := by
  cases h with
  | visits hmark hrun hdone =>
      have hgranted : ∀ s', Event.isGranted ⟨st, .done, s, s'⟩ = false := by
        intro s'
        cases st <;> rfl
      rw [hmark, hgranted, Bool.toNat_false, Nat.zero_add]
      exact Account.visits hrun hdone
  | register f => exact Account.register s.analysis f
  | countVisit total => exact Account.countVisit s.analysis total
  | claim => exact Account.claim s.analysis

/-- In a package with compilation errors a step reports nothing else. -/
theorem Effect.mem_reported_of_errors (herrors : s.package.hasCompilationErrors = true)
    (h : s.Effect st ans s') {d : Diagnostic} (hd : d ∈ s'.analysis.reported) :
    d ∈ s.analysis.reported ∨ d.violation = .compilationErrors := by
  cases h with
  | visits _ hrun _ =>
      rcases hrun.carries (Or.inl hd) with hd | ⟨x, hx, hd⟩
      · exact Or.inl hd
      · obtain ⟨u, _, hx⟩ := Interleaving.mem_visiting_pending.mp hx
        cases (Package.mayReport_of_mem_visitAtoms hx hd).2 with
        | compilationErrors _ => exact Or.inr rfl
        | noTransformer hfalse _ => exact absurd (hfalse.symm.trans herrors) Bool.false_ne_true
        | member hfalse _ _ => exact absurd (hfalse.symm.trans herrors) Bool.false_ne_true
  | register f => exact Or.inl hd
  | countVisit total => exact Or.inl hd
  | claim => exact Or.inl hd

theorem Effect.once (herrors : s.package.hasCompilationErrors = false)
    (hone : s.package.defaultModuleCount = 1) {m : Module} (hm : s.package.defaultModule? = some m)
    (h : s.Effect st ans s') (hmark : st.isMark = false) (hs : s.analysis.Once m.documents.length) :
    s'.analysis.Once m.documents.length := by
  cases h with
  | visits _ hrun hdone =>
      exact hs.visits herrors hone hm (fun u hu => Step.mem_units hu) hrun hdone
  | register f => exact hs
  | countVisit total =>
      -- A visit counted from outside brings a total of its own.
      cases hmark
  | claim => exact hs

/-- The steps that a session has taken since its state was fresh. -/
inductive History (p : Package) : List Event → Session → Prop
  | fresh : History p [] { package := p }
  | next {es : List Event} {s s' : Session} {st : Step} {ans : Answer} :
      History p es s → s.Takes st ans s' → History p (es ++ [⟨st, ans, s, s'⟩]) s'

namespace History

variable {p : Package} {es : List Event}

theorem package_eq (h : History p es s) : s.package = p := by
  induction h with
  | fresh => rfl
  | next _ htakes ih => exact htakes.effect.package_eq.trans ih

/-- Every list of possible steps has a history. -/
theorem exists_of_steps (p : Package) (steps : List Step) (h : ∀ st ∈ steps, st.isPossible p = true) :
    ∃ es s, History p es s ∧ es.map Event.step = steps := by
  -- A history grows at its end, so the steps are taken off from there.
  induction steps using List.reverseRecOn with
  | nil => exact ⟨[], _, .fresh, rfl⟩
  | append_singleton steps st ih =>
      obtain ⟨es, s, hes, hsteps⟩ := ih fun st hst => h st (List.mem_append_left _ hst)
      have hst : st.isPossible s.package = true := by
        rw [hes.package_eq]
        exact h st (List.mem_append_right _ (List.mem_singleton_self st))
      obtain ⟨ans, s', htakes⟩ := exists_takes hst
      refine ⟨_, s', hes.next htakes, ?_⟩
      rw [List.map_append, hsteps]
      rfl

/-- Every event of a history has an account. -/
theorem account (h : History p es s) {e : Event} (he : e ∈ es) :
    Account (e.step.isMark.toNat + (e.step.units p).countP fun u => p.Counts u) e.isGranted
      e.before.analysis e.after.analysis := by
  induction h with
  | fresh => cases he
  | next hes htakes ih =>
      rcases List.mem_append.mp he with he | he
      · exact ih he
      · rw [List.mem_singleton.mp he, ← hes.package_eq]
        exact htakes.effect.account

theorem consistent (h : History p es s) : s.analysis.registry.Consistent := by
  induction h with
  | fresh => simp [Registry.Consistent]
  | next _ htakes ih => exact htakes.effect.account.consistent ih

theorem visited_eq (h : History p es s) :
    s.analysis.registry.visited = es.countP (fun e => e.step.isMark) +
      (es.flatMap fun e => e.step.units p).countP fun u => p.Counts u := by
  induction h with
  | fresh => rfl
  | @next es s s' st ans hes htakes ih =>
      have hstep := htakes.effect.account.visited
      rw [hes.package_eq] at hstep
      rw [hstep, ih, List.countP_append, List.flatMap_append, List.countP_append, List.flatMap_singleton,
        List.countP_singleton]
      show _ = _ + (if st.isMark = true then 1 else 0) + _
      cases st.isMark <;> simp <;> omega

/-- There is one permission to report compilation errors. It is still there, or was granted, or was used
for a report. -/
theorem permission_eq (h : History p es s) :
    s.analysis.errorReports + (!s.analysis.registry.claimed).toNat + es.countP Event.isGranted = 1 := by
  induction h with
  | fresh => rfl
  | @next es s s' st ans _ htakes ih =>
      have hstep := htakes.effect.account.permission
      rw [List.countP_append, List.countP_singleton]
      cases hgranted : Event.isGranted ⟨st, ans, s, s'⟩ <;> rw [hgranted] at hstep <;>
        simp at hstep ⊢ <;> omega

theorem settlesErrors_le (h : History p es s) :
    es.countP Event.settlesErrors + (!s.analysis.registry.claimed).toNat ≤ 1 := by
  induction h with
  | fresh => rfl
  | @next es s s' st ans _ htakes ih =>
      have hstep := Event.settlesErrors_le (e := ⟨st, ans, s, s'⟩) htakes.effect.account
      rw [List.countP_append, List.countP_singleton]
      cases hsettles : Event.settlesErrors ⟨st, ans, s, s'⟩ <;> rw [hsettles] at hstep <;>
        simp at hstep ⊢ <;> omega

/-- Without visits counted from outside, the report that there is no transformer is made at most once,
and not before the count is complete. -/
theorem once (h : History p es s) (herrors : p.hasCompilationErrors = false)
    (hone : p.defaultModuleCount = 1) {m : Module} (hm : p.defaultModule? = some m)
    (hmarks : ∀ e ∈ es, e.step.isMark = false) : s.analysis.Once m.documents.length := by
  induction h with
  | fresh => exact Nat.zero_le _
  | next hes htakes ih =>
      have hmark := hmarks _ (List.mem_append_right _ (List.mem_singleton_self _))
      have hs := ih fun e he => hmarks e (List.mem_append_left _ he)
      obtain rfl := hes.package_eq
      exact htakes.effect.once herrors hone hm hmark hs

/-- In a package with compilation errors nothing else is ever reported. -/
theorem violation_of_errors (h : History p es s) (herrors : p.hasCompilationErrors = true)
    {d : Diagnostic} (hd : d ∈ s.analysis.reported) : d.violation = .compilationErrors := by
  induction h with
  | fresh => cases hd
  | next hes htakes ih =>
      obtain rfl := hes.package_eq
      rcases htakes.effect.mem_reported_of_errors herrors hd with hd | hd
      · exact ih hd
      · exact hd

end History

/-- **What a history keeps.** However a session got to its state, the flag tells whether functions are
registered, no step takes away from the list of functions, and the counter is the number of visits that
count, from outside or of documents. At most one step reports compilation errors or is granted their
report. Where there is one default module and no visit is counted from outside, it is reported at most
once that there is no transformer. A history may end after any of its steps, so what is said of its end
holds after every step. -/
theorem History.registry_exact {p : Package} {es : List Event} (h : History p es s) :
    (s.analysis.registry.foundAny = true ↔ s.analysis.registry.functions ≠ []) ∧
    (∀ e ∈ es, e.before.analysis.registry.functions <+: e.after.analysis.registry.functions) ∧
    s.analysis.registry.visited = es.countP (fun e => e.step.isMark) +
      (es.flatMap fun e => e.step.units p).countP (fun u => p.Counts u) ∧
    es.countP Event.settlesErrors ≤ 1 ∧
    (s.analysis.reported.countP fun d => d.violation = .compilationErrors) +
      es.countP Event.isGranted ≤ 1 ∧
    (p.defaultModuleCount = 1 → (∀ e ∈ es, e.step.isMark = false) →
      (s.analysis.reported.countP fun d => d.violation = .noTransformer) ≤ 1) := by
  refine ⟨h.consistent, fun e he => (h.account he).functions, h.visited_eq, ?_, ?_, fun hone hmarks => ?_⟩
  · have hsettles := h.settlesErrors_le
    omega
  · have hpermission := h.permission_eq
    unfold Analysis.errorReports at hpermission
    omega
  · -- The count bounds the reports only where visits count; elsewhere nothing but errors is reported.
    cases herrors : p.hasCompilationErrors with
    | true =>
        have hnone : (s.analysis.reported.countP fun d => d.violation = .noTransformer) = 0 := by
          rw [List.countP_eq_zero]
          intro d hd
          simp [h.violation_of_errors herrors hd]
        omega
    | false =>
        obtain ⟨m, hm⟩ := Package.exists_defaultModule hone
        have honce : s.analysis.alarms ≤
            if m.documents.length ≤ s.analysis.registry.visited then 1 else 0 :=
          h.once herrors hone hm hmarks
        unfold Analysis.alarms at honce
        split at honce <;> omega

theorem History.registry_exact_sample :
    let p := Package.sample [Package.sampleMain]
    ∃ es s, History p es s ∧
      es.map Event.step = [.visit 0 0, .analyze, .register default, .claim, .claim] ∧
      p.defaultModuleCount = 1 ∧ (∀ e ∈ es, e.step.isMark = false) ∧
      s.analysis.registry.visited = 2 ∧ es.countP Event.settlesErrors ≤ 1 ∧
      (s.analysis.reported.countP fun d => d.violation = .noTransformer) ≤ 1 := by
  intro p
  obtain ⟨es, s, h, hsteps⟩ := History.exists_of_steps p
    [.visit 0 0, .analyze, .register default, .claim, .claim] (by decide)
  obtain ⟨_, _, hvisited, hsettles, _, hreports⟩ := h.registry_exact
  have hmarks : ∀ e ∈ es, e.step.isMark = false := by
    have hall : ∀ st ∈ es.map Event.step, st.isMark = false := by
      rw [hsteps]
      decide
    exact List.forall_mem_map.mp hall
  refine ⟨es, s, h, hsteps, rfl, hmarks, ?_, hsettles, hreports rfl hmarks⟩
  have hunits : (es.flatMap fun e => e.step.units p) = (es.map Event.step).flatMap (Step.units p) := by
    rw [List.flatMap_map]
  have hnone : es.countP (fun e => e.step.isMark) = 0 :=
    List.countP_eq_zero.mpr fun e he => by rw [hmarks e he]; exact Bool.false_ne_true
  rw [hvisited, hnone, hunits, hsteps]
  decide

end Session

end FunctionService
