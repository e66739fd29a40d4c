import FunctionService.Proofs.Scheduling

/-!
# What a clean result stands for

A result is clean if it has no diagnostics. Both reports about the package as a whole are made by
visits, so a package in which there is nothing to visit has a clean result whatever is wrong with it.
Apart from that a clean result can be relied on: the package has no compilation errors as soon as there
is a visible document anywhere in it, and it exposes a transformer as soon as its default module has
documents, all of them visible.
-/

namespace FunctionService

namespace Interleaving

variable {p : Package} {m : Module} {s : Interleaving}

/-- If there is a document to visit and nothing is reported, there are no compilation errors. -/
theorem no_errors_of_clean (hvisible : ∃ u ∈ p.units, u.1.isTest u.2.id = false)
    (hrun : p.start.Reaches s) (hdone : s.IsDone) (hclean : s.analysis.reported = []) :
    p.hasCompilationErrors = false := by
  refine Bool.eq_false_iff.mpr fun herrors => ?_
  have hlength := length_reported herrors hrun hdone
  rw [if_pos hvisible, hclean] at hlength
  cases hlength

/-- If all documents of the default module are visible and nothing is reported, one of them declares a
transformer. -/
theorem exists_transformer_of_clean (herrors : p.hasCompilationErrors = false)
    (hone : p.defaultModuleCount = 1) (hm : p.defaultModule? = some m) (hdocuments : m.documents ≠ [])
    (hunhidden : ∀ d ∈ m.documents, ∀ e ∈ m.testDocuments, e.id ≠ d.id) (hrun : p.start.Reaches s)
    (hdone : s.IsDone) (hclean : s.analysis.reported = []) :
    ∃ d ∈ m.documents, m.isTest d.id = false ∧ ∃ f, .function f ∈ d.members ∧ f.IsTransformer := by
  rw [← Package.start_marks_pos_iff herrors hone hm]
  refine Nat.pos_of_ne_zero fun hmarks => ?_
  -- With no flag to be set, the completed count leads to a report.
  have halarms := alarms_eq herrors hone hm hrun hdone
  have hlength : 0 < m.documents.length := List.length_pos_iff.mpr hdocuments
  rw [if_pos ⟨hmarks, hlength, Module.length_le_countedDocuments_iff.mpr hunhidden⟩, Analysis.alarms,
    hclean] at halarms
  cases halarms

/-- The transformers of visible documents of the default module are exposed. -/
theorem mem_transformers (herrors : p.hasCompilationErrors = false) (hone : p.defaultModuleCount = 1)
    (hm : p.defaultModule? = some m) (hrun : p.start.Reaches s) (hdone : s.IsDone) {d : Document}
    (hd : d ∈ m.documents) (hvisible : m.isTest d.id = false) {f : FunctionDef}
    (hf : .function f ∈ d.members) (htransformer : f.IsTransformer) (format : Formatter)
    (c : ServiceConfig) : f.name ∈ (s.analysis.result format c).transformers := by
  obtain ⟨hunit, hdefault⟩ :=
    (Package.mem_units_isDefault hone hm).mpr ⟨d, List.mem_append_left _ hd, rfl⟩
  have hof : f.signature ∈ p.transformersOf (m, d) := by
    rw [Package.transformersOf, herrors, hvisible, hdefault]
    exact List.mem_filterMap.mpr
      ⟨_, hf, Member.transformer?_eq_some.mpr ⟨f, rfl, htransformer, rfl⟩⟩
  have hfunctions : f.signature ∈ s.analysis.registry.functions :=
    ((functions_shuffle hrun hdone).sublist _ (List.mem_map_of_mem hunit)).subset hof
  have hordered : f.signature ∈ s.analysis.registry.inSourceOrder :=
    (sortBy_perm Signature.compareStart _).mem_iff.mpr hfunctions
  exact List.mem_map_of_mem hordered

/-- **What a clean result stands for.** Let compiling an accepted package give no diagnostics, however
its visits are interleaved. If any of its documents is visible, the package has no compilation errors.
If its default module has documents and none of them is hidden by a test document, the package has no
compilation errors, and a transformer that the default module declares is among the functions
exposed. -/
theorem clean_exposes {path : Path} {text : String} (hparse : Package.parse path text = .ok p)
    (hm : p.defaultModule? = some m) (hrun : p.start.Reaches s) (hdone : s.IsDone) (format : Formatter)
    (c : ServiceConfig) (hclean : (s.analysis.result format c).diagnostics = []) :
    ((∃ u ∈ p.units, u.1.isTest u.2.id = false) → p.hasCompilationErrors = false) ∧
    (m.documents ≠ [] → (∀ d ∈ m.documents, ∀ e ∈ m.testDocuments, e.id ≠ d.id) →
      p.hasCompilationErrors = false ∧ (s.analysis.result format c).transformers ≠ [] ∧
      ∃ d ∈ m.documents, ∃ f, .function f ∈ d.members ∧ f.IsTransformer ∧
        f.name ∈ (s.analysis.result format c).transformers) := by
  have hone := Package.defaultModuleCount_of_parse hparse
  have hreported : s.analysis.reported = [] := Analysis.diagnostics_eq_nil_iff.mp hclean
  have hno : (∃ u ∈ p.units, u.1.isTest u.2.id = false) → p.hasCompilationErrors = false :=
    fun hvisible => no_errors_of_clean hvisible hrun hdone hreported
  refine ⟨hno, fun hdocuments hunhidden => ?_⟩
  obtain ⟨d, hd⟩ := List.exists_mem_of_ne_nil _ hdocuments
  have hunit := (Package.mem_units_isDefault hone hm).mpr ⟨d, List.mem_append_left _ hd, rfl⟩
  have herrors := hno ⟨_, hunit.1, Module.isTest_eq_false_iff.mpr (hunhidden d hd)⟩
  obtain ⟨e, he, hvisible, f, hf, htransformer⟩ :=
    exists_transformer_of_clean herrors hone hm hdocuments hunhidden hrun hdone hreported
  have hmem := mem_transformers herrors hone hm hrun hdone he hvisible hf htransformer format c
  exact ⟨herrors, List.ne_nil_of_mem hmem, e, he, f, hf, htransformer, hmem⟩

end Interleaving

namespace Package

/-- A default module with the given documents and test documents. -/
def onlyModule (documents testDocuments : List Document) (errors : Bool) : Package where
  name := ""
  modules := [⟨"", "", true, documents, testDocuments⟩]
  hasCompilationErrors := errors
  symbols := .empty

/-- One document with one transformer. -/
def oneTransformer : Package :=
  onlyModule [⟨"a", "a", [plainTransformer "f" (samplePlace "a" 1)]⟩] [] false

set_option maxRecDepth 4000 in
theorem parse_oneTransformer :
    Package.parse ⟨"package.json"⟩ ("[\"\",[[\"\",\"\",true,[[\"a\",\"a\",[[\"function\",\"f\"," ++
      "[\"public\",\"isolated\"],[],[],null,\x7b\"expression\":\x7b\"name\":\"x\"\x7d\x7d," ++
      "[\"a\",1,0,1,1]]]]]]]]") = .ok oneTransformer := by
  cbv

end Package

namespace Interleaving

theorem clean_exposes_oneTransformer :
    let p := Package.oneTransformer
    let c : ServiceConfig := {}
    (∃ text, Package.parse ⟨"package.json"⟩ text = .ok p) ∧ (p.compile c.formatter c).diagnostics = [] ∧
      p.hasCompilationErrors = false ∧ (p.compile c.formatter c).transformers ≠ [] := by
  intro p c
  obtain ⟨s, hrun, hdone, hs⟩ := reaches_visitAll p (List.Perm.refl p.units)
  have hcompile : p.compile c.formatter c = s.analysis.result c.formatter c := by rw [hs]; rfl
  have hclean : (p.compile c.formatter c).diagnostics = [] := by decide +kernel
  have hexposes :=
    clean_exposes Package.parse_oneTransformer rfl hrun hdone c.formatter c (hcompile ▸ hclean)
  obtain ⟨herrors, hnonempty, _⟩ := hexposes.2 (List.cons_ne_nil _ _) (by decide)
  exact ⟨⟨_, Package.parse_oneTransformer⟩, hclean, herrors, hcompile ▸ hnonempty⟩

end Interleaving

namespace Package

/-- With no document in the default module the result is clean, although nothing is exposed, and
although there are compilation errors. The same holds if its only document is hidden by a test document. -/
theorem clean_without_documents :
    let c : ServiceConfig := {}
    let p := onlyModule [] [] false
    let q := onlyModule [] [] true
    let r := onlyModule [⟨"a", "a", []⟩] [⟨"a", "t", []⟩] false
    ((∃ text, Package.parse ⟨"package.json"⟩ text = .ok p) ∧ (p.compile c.formatter c).diagnostics = [] ∧
      (p.compile c.formatter c).transformers = []) ∧
    ((∃ text, Package.parse ⟨"package.json"⟩ text = .ok q) ∧ (q.compile c.formatter c).diagnostics = [] ∧
      q.hasCompilationErrors = true) ∧
    ((∃ text, Package.parse ⟨"package.json"⟩ text = .ok r) ∧ (r.compile c.formatter c).diagnostics = [] ∧
      (r.compile c.formatter c).transformers = []) := by
  intro c p q r
  have hp : Package.parse ⟨"package.json"⟩ "[\"\",[[\"\",\"\",true]]]" = .ok p := by cbv
  have hq : Package.parse ⟨"package.json"⟩ "[\"\",[[\"\",\"\",true]],true]" = .ok q := by cbv
  have hr : Package.parse ⟨"package.json"⟩ "[\"\",[[\"\",\"\",true,[[\"a\",\"a\"]],[[\"a\",\"t\"]]]]]" =
      .ok r := by cbv
  exact ⟨⟨⟨_, hp⟩, by decide +kernel, by decide +kernel⟩, ⟨⟨_, hq⟩, by decide +kernel, rfl⟩,
    ⟨_, hr⟩, by decide +kernel, by decide +kernel⟩

end Package

end FunctionService
