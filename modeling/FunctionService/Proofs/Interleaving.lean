import FunctionService.Schedule
import Mathlib.Data.Multiset.Bind
import Mathlib.Data.Multiset.Filter
import Mathlib.Logic.Relation

/-!
# Interleaved visits

An `Interleaving` is the state that visits share together with what each of them has still to do, and any
visit that is not finished may take the next step. The runs of the program are exactly those that finish
every visit: a schedule leads to such a run, and each such run has a schedule
(`Package.analyzeSideBySide_iff`).

Visits one after another are interleavings of a special kind (`reaches_visitAll`), so what holds of every
interleaving holds of every visiting order. The two results at the end are of that sort: no step loses,
repeats or invents a registration (`Step.registered_eq`) or a finding about a member
(`Step.findings_eq`).
-/

namespace FunctionService

namespace Atom

/-- The function that an access appends. -/
def appended? : Atom → Option Signature
  | .append f => some f
  | _ => none

/-- The diagnostic that an access reports, unless it is that there is no transformer. -/
def finding? : Atom → Option Diagnostic
  | .report d => if d.violation = .noTransformer then none else some d
  | _ => none

/-- The accesses that occur in a package without compilation errors: nobody claims their report, and
what depends on the count is the report that there is no transformer. -/
def IsRegular : Atom → Prop
  | .countVisit _ d => d.violation = .noTransformer
  | .lookFound d => d.violation = .noTransformer
  | .claim _ => False
  | _ => True

theorem IsRegular.of_mem_step {a : Analysis} {x y : Atom} (hx : x.IsRegular)
    (hy : y ∈ (x.step a).2) : y.IsRegular := by
  cases x with
  | report d => cases hy
  | markFound => cases hy
  | append f => cases hy
  | countVisit total d =>
      simp only [step] at hy
      split at hy
      · rw [List.mem_singleton.mp hy]
        exact hx
      · cases hy
  | lookFound d =>
      simp only [step] at hy
      split at hy
      · cases hy
      · rw [List.mem_singleton.mp hy]
        trivial
  | claim d => exact hx.elim

end Atom

/-- The diagnostics reported about members: all but that there is no transformer. -/
def Analysis.findings (a : Analysis) : List Diagnostic :=
  a.reported.filter fun d => d.violation ≠ .noTransformer

/-- The shared state of visits that are under way, and what each of them has still to do. -/
structure Interleaving where
  analysis : Analysis
  threads : Multiset (List Atom)

namespace Interleaving

/-- One visit makes its next access. -/
inductive Step : Interleaving → Interleaving → Prop
  | intro (a : Analysis) (x : Atom) (rest : List Atom) (others : Multiset (List Atom)) :
      Step ⟨a, (x :: rest) ::ₘ others⟩ ⟨(x.step a).1, ((x.step a).2 ++ rest) ::ₘ others⟩

/-- Some number of steps leads from one interleaving to another. -/
abbrev Reaches : Interleaving → Interleaving → Prop :=
  Relation.ReflTransGen Step

/-- Every visit is finished. -/
def IsDone (s : Interleaving) : Prop :=
  ∀ l ∈ s.threads, l = []

variable {s s' : Interleaving}

/-- What every step keeps holds at the end of a run. -/
theorem Reaches.invariant {P : Interleaving → Prop} (hstep : ∀ {s s'}, s.Step s' → P s → P s')
    (h : s.Reaches s') (hs : P s) : P s' := by
  induction h with
  | refl => exact hs
  | tail _ hlast ih => exact hstep hlast ih

/-! ## Visits one after another -/

theorem reaches_settle (x : Atom) (a : Analysis) (rest : List Atom) (others : Multiset (List Atom)) :
    Reaches ⟨a, (x :: rest) ::ₘ others⟩ ⟨x.settle a, rest ::ₘ others⟩ := by
  refine .head (.intro a x rest others) ?_
  cases x with
  | report d => exact .refl
  | markFound => exact .refl
  | append f => exact .refl
  | countVisit total d =>
      simp only [Atom.step, Atom.settle, Analysis.arrive]
      cases (a.registry.countVisit total).1 with
      | false => exact .refl
      | true =>
          refine .head (.intro _ (.lookFound d) rest others) ?_
          simp only [Atom.step]
          cases (a.registry.countVisit total).2.foundAny with
          | true => exact .refl
          | false => exact .single (.intro _ (.report d) rest others)
  | lookFound d =>
      simp only [Atom.step, Atom.settle]
      cases a.registry.foundAny with
      | true => exact .refl
      | false => exact .single (.intro _ (.report d) rest others)
  | claim d =>
      simp only [Atom.step, Atom.settle, Analysis.claim]
      split
      · exact .single (.intro _ (.report d) rest others)
      · exact .refl

theorem reaches_settled (thread : List Atom) (a : Analysis) (others : Multiset (List Atom)) :
    Reaches ⟨a, thread ::ₘ others⟩ ⟨thread.foldl Atom.settle a, [] ::ₘ others⟩ := by
  induction thread generalizing a with
  | nil => exact .refl
  | cons x rest ih => exact (reaches_settle x a rest others).trans (ih (x.settle a))

theorem reaches_finish (threads : List (List Atom)) (a : Analysis) (others : Multiset (List Atom)) :
    Reaches ⟨a, ↑threads + others⟩
      ⟨Visits.finish ⟨a, threads⟩, Multiset.replicate threads.length [] + others⟩ := by
  induction threads generalizing a others with
  | nil => exact .refl
  | cons thread threads ih =>
      -- The first visit, once finished, is one of the others for the rest of the run.
      have hfirst := reaches_settled thread a (↑threads + others)
      have hrest := ih (thread.foldl Atom.settle a) ([] ::ₘ others)
      rw [Multiset.add_cons, Multiset.add_cons] at hrest
      rw [← Multiset.cons_coe, Multiset.cons_add, List.length_cons, Multiset.replicate_succ,
        Multiset.cons_add]
      exact hfirst.trans hrest

/-- Visits can be finished from wherever they are. -/
theorem exists_reaches_finish (v : Visits) :
    ∃ s, Reaches ⟨v.analysis, ↑v.threads⟩ s ∧ s.IsDone ∧ s.analysis = v.finish := by
  refine ⟨⟨v.finish, Multiset.replicate v.threads.length []⟩, ?_, ?_, rfl⟩
  · have hrun := reaches_finish v.threads v.analysis 0
    rwa [add_zero, add_zero] at hrun
  · exact fun l hl => Multiset.eq_of_mem_replicate hl

end Interleaving

/-- An action makes its accesses at once. -/
theorem Action.run_eq_settle (act : Action) (a : Analysis) :
    act.run a = act.atoms.foldl Atom.settle a := by
  cases act <;> rfl

namespace Package

/-- Every document of a package is about to be visited, on a fresh state. -/
def start (p : Package) : Interleaving :=
  ⟨{}, ↑(p.units.map p.visitAtoms)⟩

/-- Some documents of a package are about to be visited, on a given state. -/
def visiting (p : Package) (a : Analysis) (us : List (Module × Document)) : Interleaving :=
  ⟨a, ↑(us.map p.visitAtoms)⟩

theorem visit_eq_settle (p : Package) (a : Analysis) (u : Module × Document) :
    p.visit a u.1 u.2 = (p.visitAtoms u).foldl Atom.settle a := by
  have hrun : Action.run = fun a act => act.atoms.foldl Atom.settle a :=
    funext fun a => funext fun act => act.run_eq_settle a
  rw [visit, visitAtoms, List.foldl_flatMap, hrun]

theorem visitAll_eq_finish (p : Package) (a : Analysis) (us : List (Module × Document)) :
    p.visitAll a us = Visits.finish ⟨a, us.map p.visitAtoms⟩ := by
  rw [visitAll, Visits.finish, List.foldl_map]
  simp only [visit_eq_settle]

/-- With no turns to take, documents are visited one after another. -/
theorem analyzeSideBySide_nil (p : Package) : p.analyzeSideBySide [] = p.analyze {} :=
  (p.visitAll_eq_finish {} p.units).symm

end Package

namespace Interleaving

variable {s s' : Interleaving}

theorem reaches_visiting (p : Package) (a : Analysis) (us : List (Module × Document)) :
    ∃ s, (p.visiting a us).Reaches s ∧ s.IsDone ∧ s.analysis = p.visitAll a us := by
  rw [p.visitAll_eq_finish]
  exact exists_reaches_finish ⟨a, us.map p.visitAtoms⟩

/-- **Visiting orders are interleavings.** Visits one after another, in any order, are a finished run of
the interleaved visits. -/
theorem reaches_visitAll (p : Package) {order : List (Module × Document)} (h : order.Perm p.units) :
    ∃ s, p.start.Reaches s ∧ s.IsDone ∧ s.analysis = p.visitAll {} order := by
  have hstart : p.visiting {} order = p.start :=
    congrArg (Interleaving.mk {}) (Multiset.coe_eq_coe.mpr (h.map p.visitAtoms))
  rw [← hstart]
  exact reaches_visiting p {} order

/-! ## Schedules -/

/-- The visits, whatever their order. -/
def ofVisits (v : Visits) : Interleaving :=
  ⟨v.analysis, ↑v.threads⟩

/-- What a turn does, with the visit that takes it in front of the others. -/
theorem ofVisits_takeTurn {v : Visits} {position : Nat} {x : Atom} {rest : List Atom}
    (h : v.threads[position]? = some (x :: rest)) :
    ∃ others, ofVisits v = ⟨v.analysis, (x :: rest) ::ₘ others⟩ ∧
      ofVisits (v.takeTurn position) =
        ⟨(x.step v.analysis).1, ((x.step v.analysis).2 ++ rest) ::ₘ others⟩ := by
  obtain ⟨hlt, hthread⟩ := List.getElem?_eq_some_iff.mp h
  obtain ⟨before, after, hsplit, _, hset⟩ :=
    @List.exists_of_set _ position ((x.step v.analysis).2 ++ rest) v.threads hlt
  refine ⟨↑(before ++ after), ?_, ?_⟩
  · rw [hthread] at hsplit
    rw [ofVisits, hsplit, Multiset.cons_coe]
    exact congrArg (Interleaving.mk _) (Multiset.coe_eq_coe.mpr List.perm_middle)
  · rw [ofVisits, Visits.takeTurn, h]
    simp only [hset, Multiset.cons_coe]
    exact congrArg (Interleaving.mk _) (Multiset.coe_eq_coe.mpr List.perm_middle)

theorem reaches_takeTurn (v : Visits) (position : Nat) :
    (ofVisits v).Reaches (ofVisits (v.takeTurn position)) := by
  match h : v.threads[position]? with
  | some (x :: rest) =>
      obtain ⟨others, hv, hturn⟩ := ofVisits_takeTurn h
      rw [hv, hturn]
      exact .single (.intro _ x rest others)
  | some [] =>
      rw [Visits.takeTurn, h]
  | none =>
      rw [Visits.takeTurn, h]

theorem reaches_takeTurns (schedule : Schedule) (v : Visits) :
    (ofVisits v).Reaches (ofVisits (schedule.foldl Visits.takeTurn v)) := by
  induction schedule generalizing v with
  | nil => exact .refl
  | cons position schedule ih => exact (reaches_takeTurn v position).trans (ih _)

/-- Nothing is left to finish when every visit is finished. -/
theorem finish_of_isDone {v : Visits} (h : (ofVisits v).IsDone) : v.finish = v.analysis := by
  obtain ⟨a, threads⟩ := v
  induction threads generalizing a with
  | nil => rfl
  | cons thread threads ih =>
      obtain rfl : thread = [] := h thread (Multiset.mem_coe.mpr List.mem_cons_self)
      exact ih a fun l hl => h l (Multiset.mem_coe.mpr (List.mem_cons_of_mem _ (Multiset.mem_coe.mp hl)))

/-- Every finished run is what some schedule leads to. -/
theorem exists_schedule (h : s.Reaches s') (hdone : s'.IsDone) {v : Visits} (hv : ofVisits v = s) :
    ∃ schedule : Schedule, (schedule.foldl Visits.takeTurn v).finish = s'.analysis := by
  -- Steps are taken off the front of the run, and each is given to the position of its visit.
  induction h using Relation.ReflTransGen.head_induction_on generalizing v with
  | refl =>
      subst hv
      exact ⟨[], finish_of_isDone hdone⟩
  | head hstep _ ih =>
      obtain ⟨a, x, rest, others⟩ := hstep
      obtain ⟨ha, hthreads⟩ := Interleaving.mk.inj hv
      have hmem : x :: rest ∈ v.threads :=
        Multiset.mem_coe.mp (hthreads ▸ Multiset.mem_cons_self _ _)
      obtain ⟨position, hposition⟩ := List.mem_iff_getElem?.mp hmem
      obtain ⟨others', hv', hturn⟩ := ofVisits_takeTurn hposition
      obtain rfl : others' = others :=
        (Multiset.cons_inj_right _).mp (congrArg threads (hv'.symm.trans hv))
      rw [ha] at hturn
      obtain ⟨schedule, hschedule⟩ := ih hturn
      exact ⟨position :: schedule, hschedule⟩

end Interleaving

/-- **Schedules are interleavings.** What a package can be analyzed to side by side is what the finished
runs of its interleaved visits lead to. -/
theorem Package.analyzeSideBySide_iff (p : Package) (a : Analysis) :
    (∃ schedule, p.analyzeSideBySide schedule = a) ↔
      ∃ s, p.start.Reaches s ∧ s.IsDone ∧ s.analysis = a := by
  constructor
  · rintro ⟨schedule, rfl⟩
    have hturns := Interleaving.reaches_takeTurns schedule ⟨{}, p.units.map p.visitAtoms⟩
    obtain ⟨s, hrun, hdone, hs⟩ :=
      Interleaving.exists_reaches_finish (schedule.foldl Visits.takeTurn ⟨{}, p.units.map p.visitAtoms⟩)
    exact ⟨s, hturns.trans hrun, hdone, hs⟩
  · rintro ⟨s, hrun, hdone, rfl⟩
    exact Interleaving.exists_schedule hrun hdone (v := ⟨{}, p.units.map p.visitAtoms⟩) rfl

namespace Interleaving

variable {s s' : Interleaving}

/-! ## What is still to be done -/

/-- The accesses that are still to be made, whoever makes them. -/
def pending (s : Interleaving) : Multiset Atom :=
  s.threads.bind Multiset.ofList

/-- A step takes one pending access away and puts what follows from it in its place. -/
theorem Step.exists_atom (h : s.Step s') :
    ∃ x rest, s.pending = x ::ₘ rest ∧ s'.pending = ↑(x.step s.analysis).2 + rest ∧
      s'.analysis = (x.step s.analysis).1 := by
  obtain ⟨a, x, rest, others⟩ := h
  refine ⟨x, ↑rest + others.bind Multiset.ofList, ?_, ?_, rfl⟩
  · rw [pending, Multiset.cons_bind, ← Multiset.cons_coe, Multiset.cons_add]
  · rw [pending, Multiset.cons_bind, ← Multiset.coe_add, add_assoc]

/-- What holds of the pending accesses, and of what follows from an access that it holds of, goes on
holding of them. -/
theorem Step.forall_pending {Q : Atom → Prop} (h : s.Step s')
    (hstep : ∀ (a : Analysis) (x : Atom), Q x → ∀ y ∈ (x.step a).2, Q y)
    (hs : ∀ x ∈ s.pending, Q x) : ∀ x ∈ s'.pending, Q x := by
  obtain ⟨x, rest, hpend, hpend', _⟩ := h.exists_atom
  intro y hy
  rw [hpend', Multiset.mem_add] at hy
  rcases hy with hy | hy
  · exact hstep s.analysis x (hs x (hpend ▸ Multiset.mem_cons_self x rest)) y hy
  · exact hs y (hpend ▸ Multiset.mem_cons_of_mem hy)

theorem IsDone.pending_eq (h : s.IsDone) : s.pending = 0 := by
  calc s.threads.bind Multiset.ofList
      = s.threads.bind fun _ => 0 := Multiset.bind_congr fun l hl => by rw [h l hl]; rfl
    _ = 0 := Multiset.bind_zero s.threads

theorem visiting_pending (p : Package) (a : Analysis) (us : List (Module × Document)) :
    (p.visiting a us).pending = ↑(us.flatMap p.visitAtoms) := by
  rw [pending, Package.visiting, Multiset.coe_bind, List.flatMap_map]

theorem mem_visiting_pending {p : Package} {a : Analysis} {us : List (Module × Document)} {x : Atom} :
    x ∈ (p.visiting a us).pending ↔ ∃ u ∈ us, x ∈ p.visitAtoms u := by
  rw [visiting_pending, Multiset.mem_coe, List.mem_flatMap]

theorem start_pending (p : Package) : p.start.pending = ↑(p.units.flatMap p.visitAtoms) :=
  visiting_pending p {} p.units

theorem mem_start_pending {p : Package} {x : Atom} :
    x ∈ p.start.pending ↔ ∃ u ∈ p.units, x ∈ p.visitAtoms u :=
  mem_visiting_pending (a := {})

/-- A quantity is conserved by a step if it is conserved by the access that the step makes: what the
access adds to the state is what it takes away from the pending accesses. -/
theorem Step.conserved {β : Type} (view : Analysis → List β) (g : Atom → Option β) (h : s.Step s')
    (hview : ∀ x ∈ s.pending, view (x.step s.analysis).1 ++ (x.step s.analysis).2.filterMap g =
      view s.analysis ++ (g x).toList) :
    (↑(view s'.analysis) : Multiset β) + s'.pending.filterMap g =
      ↑(view s.analysis) + s.pending.filterMap g := by
  obtain ⟨x, rest, hs, hs', ha⟩ := h.exists_atom
  have hx := hview x (hs ▸ Multiset.mem_cons_self x rest)
  have hcons : (x ::ₘ rest).filterMap g = ↑(g x).toList + rest.filterMap g := by
    cases hg : g x with
    | none => rw [Multiset.filterMap_cons_none _ _ hg]; exact (zero_add _).symm
    | some b => rw [Multiset.filterMap_cons_some _ _ _ hg]; rfl
  rw [hs, hs', ha, hcons, Multiset.filterMap_add, Multiset.filterMap_coe, ← add_assoc, ← add_assoc,
    Multiset.coe_add, Multiset.coe_add, hx]

/-! ## Registrations -/

/-- The functions that a run registers: those in the registry, and those still to be appended. -/
def registered (s : Interleaving) : Multiset Signature :=
  ↑s.analysis.registry.functions + s.pending.filterMap Atom.appended?

theorem IsDone.registered_eq (h : s.IsDone) : s.registered = ↑s.analysis.registry.functions := by
  rw [registered, h.pending_eq, Multiset.filterMap_zero, add_zero]

theorem step_functions (a : Analysis) (x : Atom) :
    (x.step a).1.registry.functions ++ (x.step a).2.filterMap Atom.appended? =
      a.registry.functions ++ x.appended?.toList := by
  cases x with
  | report d => rfl
  | markFound => rfl
  | append f => simp [Atom.step, Atom.appended?]
  | countVisit total d =>
      simp only [Atom.step]
      cases (a.registry.countVisit total).1 <;> rfl
  | lookFound d =>
      simp only [Atom.step]
      cases a.registry.foundAny <;> rfl
  | claim d =>
      simp only [Atom.step]
      cases a.registry.claim.1 <;> rfl

/-- No step loses, repeats or invents a registration. -/
theorem Step.registered_eq (h : s.Step s') : s'.registered = s.registered :=
  h.conserved (·.registry.functions) Atom.appended? fun x _ => step_functions s.analysis x

theorem Reaches.registered_eq (h : s.Reaches s') : s'.registered = s.registered :=
  Reaches.invariant (P := fun u => u.registered = s.registered)
    (fun hstep hu => hstep.registered_eq.trans hu) h rfl

/-! ## Findings -/

/-- Every pending access is regular. -/
def IsRegular (s : Interleaving) : Prop :=
  ∀ x ∈ s.pending, x.IsRegular

theorem Step.isRegular (h : s.Step s') (hs : s.IsRegular) : s'.IsRegular :=
  h.forall_pending (fun _ _ hx _ hy => hx.of_mem_step hy) hs

/-- The findings about members that a run reports: those reported, and those still to be. -/
def findings (s : Interleaving) : Multiset Diagnostic :=
  ↑s.analysis.findings + s.pending.filterMap Atom.finding?

theorem IsDone.findings_eq (h : s.IsDone) : s.findings = ↑s.analysis.findings := by
  rw [findings, h.pending_eq, Multiset.filterMap_zero, add_zero]

theorem step_findings (a : Analysis) {x : Atom} (hx : x.IsRegular) :
    (x.step a).1.findings ++ (x.step a).2.filterMap Atom.finding? =
      a.findings ++ x.finding?.toList := by
  cases x with
  | report d =>
      by_cases hd : d.violation = .noTransformer <;>
        simp [Atom.step, Analysis.report, Analysis.findings, Atom.finding?, hd]
  | markFound => rfl
  | append f => rfl
  | countVisit total d =>
      simp only [Atom.step]
      cases (a.registry.countVisit total).1 <;> rfl
  | lookFound d =>
      have hd : d.violation = .noTransformer := hx
      simp only [Atom.step]
      cases a.registry.foundAny <;> simp [Atom.finding?, hd]
  | claim d => exact hx.elim

/-- No step of a regular run loses, repeats or invents a finding. -/
theorem Step.findings_eq (h : s.Step s') (hs : s.IsRegular) : s'.findings = s.findings :=
  h.conserved Analysis.findings Atom.finding? fun x hx => step_findings s.analysis (hs x hx)

theorem Reaches.findings_eq (h : s.Reaches s') (hs : s.IsRegular) : s'.findings = s.findings := by
  -- Findings are conserved in regular states only, so regularity is carried along.
  have hinv := Reaches.invariant (P := fun u => u.IsRegular ∧ u.findings = s.findings)
    (fun hstep hu => ⟨hstep.isRegular hu.1, (hstep.findings_eq hu.1).trans hu.2⟩) h ⟨hs, rfl⟩
  exact hinv.2

end Interleaving

end FunctionService
