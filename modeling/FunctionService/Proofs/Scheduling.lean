import FunctionService.Description
import FunctionService.Proofs.PackageReports
import FunctionService.Proofs.SourceOrder
import Mathlib

/-!
# What does not depend on the schedule

Visits that are interleaved in different ways register functions and report diagnostics in different
orders. Each visit keeps its own order, though, so the functions registered and the findings about
members are a shuffle of what the single visits contribute (`Interleaving.functions_shuffle`,
`Interleaving.findings_shuffle`). Where the contributions of different documents never stand at one
place, sorting undoes the shuffle.

For functions that is all there is to it: the service does not depend on the schedule. The diagnostics
do, in one respect: the report about the package as a whole stands at the document whose visit made it.
-/

namespace FunctionService

/-! ## Every visit keeps its order -/

/-- An access takes what `g` reads off it to the end of a view of the state, and takes nothing else
away. -/
structure Atom.Moves {β : Type} (view : Analysis → List β) (g : Atom → Option β) (a : Analysis)
    (x : Atom) : Prop where
  moved : view (x.step a).1 ++ (x.step a).2.filterMap g = view a ++ (g x).toList
  kept : (view a).Sublist (view (x.step a).1)

namespace Interleaving

variable {p : Package} {s s' : Interleaving} {β : Type} {view : Analysis → List β}
  {g : Atom → Option β}

/-- A list is in order in what a view holds and what some visit has still to add to it. -/
def InOrder (view : Analysis → List β) (g : Atom → Option β) (part : List β) (s : Interleaving) : Prop :=
  ∃ thread ∈ s.threads, part.Sublist (view s.analysis ++ thread.filterMap g)

theorem Step.inOrder (h : s.Step s') (hmoves : ∀ x ∈ s.pending, x.Moves view g s.analysis)
    {part : List β} (hs : s.InOrder view g part) : s'.InOrder view g part := by
  obtain ⟨a, x, rest, others⟩ := h
  have hx : x ∈ pending ⟨a, (x :: rest) ::ₘ others⟩ :=
    Multiset.mem_bind.mpr ⟨_, Multiset.mem_cons_self _ _, List.mem_cons_self⟩
  obtain ⟨hmoved, hkept⟩ := hmoves x hx
  obtain ⟨thread, hthread, hpart⟩ := hs
  rcases Multiset.mem_cons.mp hthread with rfl | hthread
  · -- The visit itself: what it has added no longer has to be added.
    refine ⟨_, Multiset.mem_cons_self _ _, ?_⟩
    have hcons : (x :: rest).filterMap g = (g x).toList ++ rest.filterMap g := by
      cases hg : g x <;> simp [hg]
    rw [hcons, ← List.append_assoc, ← hmoved] at hpart
    rwa [List.filterMap_append, ← List.append_assoc]
  · exact ⟨thread, Multiset.mem_cons_of_mem hthread, hpart.trans (hkept.append_right _)⟩

/-- What a finished run holds in a view is a shuffle of what the visits contribute, if every access of
the run moves its contribution to the view. -/
theorem Reaches.shuffle {P : Interleaving → Prop} (hkeep : ∀ {s s'}, s.Step s' → P s → P s')
    (hmoves : ∀ {s}, P s → ∀ x ∈ s.pending, x.Moves view g s.analysis) (hstart : P p.start)
    (hempty : view {} = []) (hrun : p.start.Reaches s) (hdone : s.IsDone) :
    Shuffle (p.units.map fun u => (p.visitAtoms u).filterMap g) (view s.analysis) := by
  constructor
  · have hinv := Reaches.invariant (P := fun u => P u ∧
      (↑(view u.analysis) : Multiset β) + u.pending.filterMap g = p.start.pending.filterMap g)
      (fun hstep hu => ⟨hkeep hstep hu.1,
        (hstep.conserved view g fun x hx => (hmoves hu.1 x hx).moved).trans hu.2⟩) hrun
      ⟨hstart, by rw [show p.start.analysis = {} from rfl, hempty]; exact zero_add _⟩
    have hend := hinv.2
    rw [hdone.pending_eq, Multiset.filterMap_zero, add_zero, start_pending, Multiset.filterMap_coe,
      Multiset.coe_eq_coe] at hend
    rwa [List.filterMap_flatMap, List.flatMap_def] at hend
  · intro part hpart
    obtain ⟨u, hu, rfl⟩ := List.mem_map.mp hpart
    have hfirst : p.start.InOrder view g ((p.visitAtoms u).filterMap g) :=
      ⟨_, Multiset.mem_coe.mpr (List.mem_map_of_mem hu), List.sublist_append_right _ _⟩
    have hinv := Reaches.invariant
      (P := fun v => P v ∧ v.InOrder view g ((p.visitAtoms u).filterMap g))
      (fun hstep hv => ⟨hkeep hstep hv.1, hstep.inOrder (hmoves hv.1) hv.2⟩) hrun ⟨hstart, hfirst⟩
    obtain ⟨thread, hthread, hsub⟩ := hinv.2
    rwa [hdone thread hthread, List.filterMap_nil, List.append_nil] at hsub

end Interleaving

/-! ## Functions -/

namespace Package

/-- The functions that the visit of a document registers, in the order in which it declares them. -/
def transformersOf (p : Package) (u : Module × Document) : List Signature :=
  if p.hasCompilationErrors || u.1.isTest u.2.id || !u.1.isDefault then []
  else u.2.members.filterMap Member.transformer?

/-- No two functions that are registered for different documents start at one place. -/
def TransformersApart (p : Package) : Prop :=
  p.units.Pairwise fun u v => ∀ f ∈ p.transformersOf u, ∀ g ∈ p.transformersOf v,
    ¬ f.location.SameStart g.location

theorem filterMap_appended_visitAtoms (p : Package) (u : Module × Document) :
    (p.visitAtoms u).filterMap Atom.appended? = p.transformersOf u := by
  rw [transformersOf]
  cases h : p.hasCompilationErrors with
  | true =>
      rw [visitAtoms_of_errors h]
      cases u.1.isTest u.2.id <;> rfl
  | false =>
      rw [filterMap_visitAtoms h fun _ _ => rfl]
      simp only [Member.filterMap_appended_actions]
      cases u.1.isTest u.2.id <;> cases u.1.isDefault <;> simp [List.filterMap_eq_flatMap_toList]

end Package

namespace Interleaving

variable {p : Package} {s s' : Interleaving}

theorem moves_functions (a : Analysis) (x : Atom) :
    x.Moves (·.registry.functions) Atom.appended? a := by
  refine ⟨step_functions a x, ?_⟩
  cases x with
  | append f => exact List.sublist_append_left _ _
  | _ => exact List.Sublist.refl _

/-- The functions registered in a finished run are a shuffle of those of the single documents. -/
theorem functions_shuffle (hrun : p.start.Reaches s) (hdone : s.IsDone) :
    Shuffle (p.units.map p.transformersOf) s.analysis.registry.functions := by
  have hshuffle := Reaches.shuffle (P := fun _ => True) (fun _ _ => trivial)
    (fun _ x _ => moves_functions _ x) trivial rfl hrun hdone
  simpa only [Package.filterMap_appended_visitAtoms] using hshuffle

theorem apart_of_transformersApart (h : p.TransformersApart) :
    Apart Signature.compareStart (p.units.map p.transformersOf) := by
  refine List.pairwise_map.mpr (h.imp fun hapart f hf g hg heq => ?_)
  exact hapart f hf g hg (Location.compareStart_eq_iff.mp heq)

/-- **The service does not depend on the schedule.** However the visits of a package are interleaved,
functions of one document that start at one place stay in the order in which it declares them. If no two
functions registered for different documents start at one place, then all finished runs order the
functions in the same way, and so expose the same names and generate the same source. -/
theorem inSourceOrder_schedule (hrun : p.start.Reaches s) (hdone : s.IsDone)
    (hrun' : p.start.Reaches s') (hdone' : s'.IsDone) :
    (∀ u ∈ p.units, ∀ f ∈ p.transformersOf u,
      ((p.transformersOf u).filter fun g => f.location.SameStart g.location).Sublist
        s.analysis.registry.inSourceOrder) ∧
    (p.TransformersApart →
      s.analysis.registry.inSourceOrder = s'.analysis.registry.inSourceOrder ∧
      ∀ (format : Formatter) (c : ServiceConfig),
        (s.analysis.result format c).transformers = (s'.analysis.result format c).transformers ∧
        (s.analysis.result format c).generated = (s'.analysis.result format c).generated) := by
  have hshuffle := functions_shuffle hrun hdone
  have hshuffle' := functions_shuffle hrun' hdone'
  constructor
  · intro u hu f _
    rw [← Signature.elementsAt_compareStart, Registry.inSourceOrder_eq_sortBy]
    exact hshuffle.elementsAt_sublist (List.mem_map_of_mem hu) f
  · intro h
    have hsame : s.analysis.registry.inSourceOrder = s'.analysis.registry.inSourceOrder := by
      rw [Registry.inSourceOrder_eq_sortBy, Registry.inSourceOrder_eq_sortBy,
        hshuffle.sortBy_eq (apart_of_transformersApart h),
        hshuffle'.sortBy_eq (apart_of_transformersApart h)]
    refine ⟨hsame, fun format c => ⟨?_, ?_⟩⟩
    · rw [Analysis.result, Analysis.result, hsame]
    · rw [Analysis.result, Analysis.result, hsame]

end Interleaving

namespace Package

/-- A default module with two documents that have the given members. -/
def twoDocuments (first second : List Member) (errors : Bool) : Package where
  name := ""
  modules := [⟨"", "", true, [⟨"a", "a.bal", first⟩, ⟨"b", "b.bal", second⟩], []⟩]
  hasCompilationErrors := errors
  symbols := .empty

/-- A transformer without parameters. -/
def plainTransformer (name : String) (place : Location) : Member :=
  .function ⟨name, [.isPublic, .isIsolated], [], [], none, .expression (.name "x"), place⟩

/-- Two transformers at one place in the first document and one transformer in the second. -/
def threeTransformers : Package :=
  twoDocuments
    [plainTransformer "load" (samplePlace "a.bal" 1), plainTransformer "store" (samplePlace "a.bal" 1)]
    [plainTransformer "keep" (samplePlace "b.bal" 1)] false

end Package

namespace Interleaving

theorem inSourceOrder_schedule_sample :
    let p := Package.threeTransformers
    p.TransformersApart ∧ ∃ s s', p.start.Reaches s ∧ s.IsDone ∧ p.start.Reaches s' ∧ s'.IsDone ∧
      s.analysis.registry.functions.map Signature.name = ["keep", "load", "store"] ∧
      s'.analysis.registry.functions.map Signature.name = ["load", "store", "keep"] ∧
      ["load", "store"].Sublist (s.analysis.registry.inSourceOrder.map Signature.name) ∧
      s.analysis.registry.inSourceOrder = s'.analysis.registry.inSourceOrder := by
  intro p
  have hapart : p.TransformersApart := by
    unfold Package.TransformersApart
    decide +kernel
  obtain ⟨s, hrun, hdone, hs⟩ := reaches_visitAll p p.units.reverse_perm
  obtain ⟨s', hrun', hdone', hs'⟩ := reaches_visitAll p (List.Perm.refl p.units)
  obtain ⟨hstable, hsame⟩ := inSourceOrder_schedule hrun hdone hrun' hdone'
  refine ⟨hapart, s, s', hrun, hdone, hrun', hdone', ?_, ?_, ?_, (hsame hapart).1⟩
  · rw [hs]
    decide +kernel
  · rw [hs']
    decide +kernel
  · exact (hstable _ List.mem_cons_self _ List.mem_cons_self).map Signature.name

end Interleaving

/-! ## Findings about members -/

namespace Package

/-- The diagnostics that the visit of a document reports about its members, in order. -/
def findingsOf (p : Package) (u : Module × Document) : List Diagnostic :=
  if u.1.isTest u.2.id then [] else u.2.members.flatMap (Member.diagnostics p.symbols u.1.isDefault)

/-- No two members of different documents start at one place. -/
def MembersApart (p : Package) : Prop :=
  p.units.Pairwise fun u v => ∀ x ∈ u.2.members, ∀ y ∈ v.2.members,
    ¬ x.location.SameStart y.location

theorem filterMap_finding_visitAtoms {p : Package} (h : p.hasCompilationErrors = false)
    (u : Module × Document) : (p.visitAtoms u).filterMap Atom.finding? = p.findingsOf u := by
  rw [filterMap_visitAtoms h fun _ _ => rfl, findingsOf]
  simp only [Member.filterMap_finding_actions]

theorem exists_member_of_mem_findingsOf {p : Package} {u : Module × Document} {d : Diagnostic}
    (h : d ∈ p.findingsOf u) : ∃ x ∈ u.2.members, x.location = d.location := by
  rw [findingsOf] at h
  split at h
  · cases h
  · obtain ⟨x, hx, hd⟩ := List.mem_flatMap.mp h
    obtain ⟨v, _, rfl⟩ := List.mem_map.mp hd
    exact ⟨x, hx, rfl⟩

end Package

namespace Interleaving

variable {p : Package} {s s' : Interleaving}

theorem moves_findings {a : Analysis} {x : Atom} (hx : x.IsRegular) :
    x.Moves Analysis.findings Atom.finding? a := by
  refine ⟨step_findings a hx, ?_⟩
  cases x with
  | report d => exact (List.sublist_append_left _ _).filter _
  | _ => exact List.Sublist.refl _

/-- The findings of a finished run are a shuffle of those about the single documents. -/
theorem findings_shuffle (h : p.hasCompilationErrors = false) (hrun : p.start.Reaches s)
    (hdone : s.IsDone) : Shuffle (p.units.map p.findingsOf) s.analysis.findings := by
  have hshuffle := Reaches.shuffle Step.isRegular (fun hs x hx => moves_findings (hs x hx))
    (start_isRegular h) rfl hrun hdone
  simpa only [Package.filterMap_finding_visitAtoms h] using hshuffle

theorem apart_of_membersApart (h : p.MembersApart) :
    Apart Diagnostic.compare (p.units.map p.findingsOf) := by
  refine List.pairwise_map.mpr (h.imp fun hapart d hd e he heq => ?_)
  obtain ⟨x, hx, hxd⟩ := Package.exists_member_of_mem_findingsOf hd
  obtain ⟨y, hy, hye⟩ := Package.exists_member_of_mem_findingsOf he
  refine hapart x hx y hy ?_
  rw [hxd, hye]
  exact Diagnostic.sameStart_of_compare_eq heq

/-! ## Diagnostics -/

/-- In a package with compilation errors every diagnostic is about the package as a whole; in another
package only the report that there is no transformer is. -/
theorem isOverall_eq {d : Diagnostic} (hrun : p.start.Reaches s) (hd : d ∈ s.analysis.reported) :
    d.isOverall = (p.hasCompilationErrors || d.violation = .noTransformer) := by
  obtain ⟨u, _, _, hreport⟩ := reported_origin hrun hd
  cases hreport with
  | compilationErrors herrors => simp [Diagnostic.isOverall, herrors]
  | noTransformer herrors _ => simp [Diagnostic.isOverall]
  | member herrors _ hv => simp [Diagnostic.isOverall, herrors, hv.ne_compilationErrors]

/-- The diagnostics about members are sorted into the same list in all finished runs. -/
theorem sort_findings_eq (hapart : p.MembersApart) (hrun : p.start.Reaches s) (hdone : s.IsDone)
    (hrun' : p.start.Reaches s') (hdone' : s'.IsDone) :
    Diagnostic.sort (s.analysis.reported.filter fun d => !d.isOverall) =
      Diagnostic.sort (s'.analysis.reported.filter fun d => !d.isOverall) := by
  cases herrors : p.hasCompilationErrors with
  | true =>
      have hnone : ∀ {t : Interleaving}, p.start.Reaches t →
          (t.analysis.reported.filter fun d => !d.isOverall) = [] := by
        intro t ht
        refine List.filter_eq_nil_iff.mpr fun d hd => ?_
        simp [isOverall_eq ht hd, herrors]
      rw [hnone hrun, hnone hrun']
  | false =>
      have hfindings : ∀ {t : Interleaving}, p.start.Reaches t →
          (t.analysis.reported.filter fun d => !d.isOverall) = t.analysis.findings := by
        -- Without compilation errors the two ways to leave out a report agree.
        intro t ht
        refine List.filter_congr fun d hd => ?_
        simp [isOverall_eq ht hd, herrors]
      have hfindingsApart := apart_of_membersApart hapart
      rw [hfindings hrun, hfindings hrun', Diagnostic.sort_eq_sortBy, Diagnostic.sort_eq_sortBy,
        (findings_shuffle herrors hrun hdone).sortBy_eq hfindingsApart,
        (findings_shuffle herrors hrun' hdone').sortBy_eq hfindingsApart]

theorem overall_of_errors (herrors : p.hasCompilationErrors = true) (hrun : p.start.Reaches s)
    (hdone : s.IsDone) :
    (s.analysis.reported.filter Diagnostic.isOverall).map Diagnostic.violation =
      List.replicate (if ∃ u ∈ p.units, u.1.isTest u.2.id = false then 1 else 0)
        .compilationErrors := by
  have hall : s.analysis.reported.filter Diagnostic.isOverall = s.analysis.reported :=
    List.filter_eq_self.mpr fun d hd => by simp [isOverall_eq hrun hd, herrors]
  rw [hall, List.eq_replicate_iff, List.length_map]
  refine ⟨length_reported herrors hrun hdone, fun v hv => ?_⟩
  obtain ⟨d, hd, rfl⟩ := List.mem_map.mp hv
  obtain ⟨u, _, _, hreport⟩ := reported_origin hrun hd
  cases hreport with
  | compilationErrors _ => rfl
  | noTransformer hnone _ => exact absurd herrors (hnone ▸ Bool.false_ne_true)
  | member hnone _ _ => exact absurd herrors (hnone ▸ Bool.false_ne_true)

theorem overall_of_no_errors (herrors : p.hasCompilationErrors = false)
    (hone : p.defaultModuleCount = 1) {m : Module} (hm : p.defaultModule? = some m)
    (hrun : p.start.Reaches s) (hdone : s.IsDone) :
    (s.analysis.reported.filter Diagnostic.isOverall).map Diagnostic.violation =
      List.replicate (if p.start.tally.marks = 0 ∧ 0 < m.documents.length ∧
        m.documents.length ≤ m.countedDocuments then 1 else 0) .noTransformer := by
  have halarms : s.analysis.reported.filter Diagnostic.isOverall =
      s.analysis.reported.filter fun d => d.violation = .noTransformer :=
    List.filter_congr fun d hd => by rw [isOverall_eq hrun hd, herrors, Bool.false_or]
  rw [halarms, List.eq_replicate_iff, List.length_map, ← List.countP_eq_length_filter]
  refine ⟨alarms_eq herrors hone hm hrun hdone, fun v hv => ?_⟩
  obtain ⟨d, hd, rfl⟩ := List.mem_map.mp hv
  simpa using (List.mem_filter.mp hd).2

/-- What is said about the package as a whole, at most one violation, is decided by the package. -/
theorem exists_overall_violations (hone : p.defaultModuleCount = 1) :
    ∃ vs : List Violation, vs.length ≤ 1 ∧ ∀ {s : Interleaving}, p.start.Reaches s → s.IsDone →
      (s.analysis.diagnostics.filter Diagnostic.isOverall).map Diagnostic.violation = vs := by
  have hreplicate : ∃ (n : Nat) (v : Violation), n ≤ 1 ∧ ∀ {s : Interleaving}, p.start.Reaches s →
      s.IsDone → (s.analysis.reported.filter Diagnostic.isOverall).map Diagnostic.violation =
        List.replicate n v := by
    cases herrors : p.hasCompilationErrors with
    | true => exact ⟨_, _, by split <;> omega, overall_of_errors herrors⟩
    | false =>
        obtain ⟨m, hm⟩ := Package.exists_defaultModule hone
        exact ⟨_, _, by split <;> omega, overall_of_no_errors herrors hone hm⟩
  obtain ⟨n, v, hn, hreported⟩ := hreplicate
  refine ⟨List.replicate n v, (List.length_replicate ..).trans_le hn, fun {s} hrun hdone => ?_⟩
  -- All that is said about the package is the same violation, so sorting does not show.
  have hperm := ((sortBy_perm Diagnostic.compare s.analysis.reported).filter Diagnostic.isOverall).map
    Diagnostic.violation
  rw [hreported hrun hdone] at hperm
  exact List.perm_replicate.mp hperm

end Interleaving

/-- Findings about members and the report that there is no transformer are all that is reported. -/
theorem Analysis.length_reported (a : Analysis) : a.reported.length = a.findings.length + a.alarms := by
  rw [findings, alarms, ← List.countP_eq_length_filter, Nat.add_comm,
    List.length_eq_countP_add_countP (fun d => d.violation = .noTransformer)]
  simp

/-- The number of diagnostics does not depend on the schedule. -/
theorem Interleaving.length_reported_eq {p : Package} {s s' : Interleaving}
    (hone : p.defaultModuleCount = 1) (hrun : p.start.Reaches s) (hdone : s.IsDone)
    (hrun' : p.start.Reaches s') (hdone' : s'.IsDone) :
    s.analysis.reported.length = s'.analysis.reported.length := by
  cases herrors : p.hasCompilationErrors with
  | true => rw [length_reported herrors hrun hdone, length_reported herrors hrun' hdone']
  | false =>
      obtain ⟨m, hm⟩ := Package.exists_defaultModule hone
      have hfindings := (findings_perm herrors hrun hdone).trans (findings_perm herrors hrun' hdone').symm
      rw [Analysis.length_reported, Analysis.length_reported, hfindings.length_eq,
        alarms_eq herrors hone hm hrun hdone, alarms_eq herrors hone hm hrun' hdone']

theorem Analysis.mem_diagnostics {a : Analysis} {d : Diagnostic} :
    d ∈ a.diagnostics ↔ d ∈ a.reported :=
  (sortBy_perm Diagnostic.compare a.reported).mem_iff

theorem Analysis.diagnostics_eq_nil_iff {a : Analysis} : a.diagnostics = [] ↔ a.reported = [] := by
  simp only [List.eq_nil_iff_forall_not_mem, mem_diagnostics]

theorem Package.defaultModuleCount_of_parse {path : Path} {text : String} {p : Package}
    (h : Package.parse path text = .ok p) : p.defaultModuleCount = 1 := by
  rw [Package.parse] at h
  split at h
  · cases h
  next q _ =>
    rw [Package.requireDefaultModule] at h
    split at h
    · cases h
    next hone =>
      cases h
      exact hone
    · cases h

namespace Interleaving

variable {p : Package} {s s' : Interleaving}

/-- **What of the diagnostics depends on the schedule.** Let no two members of different documents of an
accepted package start at one place. Then however its visits are interleaved, the diagnostics about
members are those of the visits one after another, in the same order. At most one diagnostic is about the
package as a whole; it is made in all runs or in none and says the same in all of them, and it stands at
the start of a visible document, of the default module if it says that there is no transformer. -/
theorem diagnostics_schedule {path : Path} {text : String} (hparse : Package.parse path text = .ok p)
    (hapart : p.MembersApart) (hrun : p.start.Reaches s) (hdone : s.IsDone) :
    (s.analysis.diagnostics.filter fun d => !d.isOverall) = (p.check.filter fun d => !d.isOverall) ∧
    (s.analysis.diagnostics.filter Diagnostic.isOverall).map Diagnostic.violation =
      (p.check.filter Diagnostic.isOverall).map Diagnostic.violation ∧
    (p.check.filter Diagnostic.isOverall).length ≤ 1 ∧
    ∀ d ∈ s.analysis.diagnostics, d.isOverall = true →
      ∃ u ∈ p.units, u.1.isTest u.2.id = false ∧ d.location = u.2.location ∧
        (d.violation = .noTransformer → u.1.isDefault = true) := by
  obtain ⟨t, hrun', hdone', ht⟩ := reaches_visitAll p (List.Perm.refl p.units)
  have hcheck : p.check = t.analysis.diagnostics := by rw [ht]; rfl
  obtain ⟨vs, hlength, hvs⟩ := exists_overall_violations (Package.defaultModuleCount_of_parse hparse)
  rw [hcheck, hvs hrun hdone, hvs hrun' hdone']
  refine ⟨?_, rfl, ?_, fun d hd hoverall => ?_⟩
  · -- The sort is stable, so what is left out may be left out before it.
    have hsort := sort_findings_eq hapart hrun hdone hrun' hdone'
    rw [Diagnostic.sort_eq_sortBy, Diagnostic.sort_eq_sortBy, ← filter_sortBy, ← filter_sortBy] at hsort
    exact hsort
  · rwa [← hvs hrun' hdone', List.length_map] at hlength
  · obtain ⟨u, hu, hvisible, hreport⟩ := reported_origin hrun (Analysis.mem_diagnostics.mp hd)
    refine ⟨u, hu, hvisible, ?_⟩
    cases hreport with
    | compilationErrors _ => exact ⟨rfl, fun h => Violation.noConfusion h⟩
    | noTransformer _ hdefault => exact ⟨rfl, fun _ => hdefault⟩
    | member _ _ hv =>
        simp [Diagnostic.isOverall, hv.ne_noTransformer, hv.ne_compilationErrors] at hoverall

end Interleaving

namespace Package

/-- A class in the first document, nothing in the second. -/
def oneClass : Package :=
  twoDocuments [.declaration .class ⟨none, samplePlace "a.bal" 1⟩] [] false

/-- Compilation errors and two empty documents. -/
def failedBuild : Package :=
  twoDocuments [] [] true

set_option maxRecDepth 2000 in
theorem parse_oneClass :
    Package.parse ⟨"package.json"⟩ ("[\"\",[[\"\",\"\",true,[[\"a\",\"a.bal\",[[\"class\",null," ++
      "[\"a.bal\",1,0,1,1]]]],[\"b\",\"b.bal\"]]]]]") = .ok oneClass := by
  cbv

theorem parse_failedBuild :
    Package.parse ⟨"package.json"⟩
      "[\"\",[[\"\",\"\",true,[[\"a\",\"a.bal\"],[\"b\",\"b.bal\"]]]],true]" = .ok failedBuild := by
  cbv

end Package

namespace Interleaving

/-- Visited in reverse order, the first package has the report that there is no transformer at the other
document, and the second has the report of compilation errors there. -/
theorem check_depends_on_order :
    let p := Package.oneClass
    let q := Package.failedBuild
    ((∃ text, Package.parse ⟨"package.json"⟩ text = .ok p) ∧ p.MembersApart ∧
      p.units.reverse.Perm p.units ∧ (p.visitAll {} p.units.reverse).diagnostics ≠ p.check) ∧
    ((∃ text, Package.parse ⟨"package.json"⟩ text = .ok q) ∧ q.MembersApart ∧
      q.units.reverse.Perm q.units ∧ (q.visitAll {} q.units.reverse).diagnostics ≠ q.check) := by
  intro p q
  refine ⟨⟨⟨_, Package.parse_oneClass⟩, ?_, p.units.reverse_perm, fun h => ?_⟩,
    ⟨_, Package.parse_failedBuild⟩, ?_, q.units.reverse_perm, fun h => ?_⟩
  · unfold Package.MembersApart
    decide +kernel
  · have hmem : ⟨.noTransformer, .fileStart ⟨"a.bal"⟩⟩ ∈ p.check := by
      rw [← h, Analysis.mem_diagnostics]
      decide +kernel
    exact absurd (Analysis.mem_diagnostics.mp hmem) (by decide +kernel)
  · unfold Package.MembersApart
    decide +kernel
  · have hmem : ⟨.compilationErrors, .fileStart ⟨"b.bal"⟩⟩ ∈ q.check := by
      rw [← h, Analysis.mem_diagnostics]
      decide +kernel
    exact absurd (Analysis.mem_diagnostics.mp hmem) (by decide +kernel)

theorem diagnostics_schedule_oneClass :
    let p := Package.oneClass
    p.MembersApart ∧ ∃ text, Package.parse ⟨"package.json"⟩ text = .ok p ∧
      ∃ s, p.start.Reaches s ∧ s.IsDone ∧
        (s.analysis.diagnostics.filter fun d => !d.isOverall) =
          (p.check.filter fun d => !d.isOverall) ∧
        (s.analysis.diagnostics.filter Diagnostic.isOverall).map Diagnostic.violation =
          (p.check.filter Diagnostic.isOverall).map Diagnostic.violation := by
  intro p
  have hapart : p.MembersApart := by
    unfold Package.MembersApart
    decide +kernel
  obtain ⟨s, hrun, hdone, _⟩ := reaches_visitAll p p.units.reverse_perm
  obtain ⟨hmembers, hoverall, _⟩ := diagnostics_schedule Package.parse_oneClass hapart hrun hdone
  exact ⟨hapart, _, Package.parse_oneClass, s, hrun, hdone, hmembers, hoverall⟩

end Interleaving

end FunctionService
