import FunctionService.Proofs.Scheduling
import FunctionService.Proofs.ServiceUnits

/-!
# What a compilation depends on

Visiting the documents of a package one after another comes down to running one list of actions, those of
all visits in order (`Package.analyze_eq_foldl`). Two packages that ask for the same actions are compiled
to the same result, so what a compilation does not depend on can be read off that list.

* Test documents ask for no action, so they may be exchanged for others as long as the same source
  documents bear the identifier of one.
* Of the actions only the registrations bear on the service, and of a registered function only its name,
  its parameters, its return type and its place. Types that are not supported, other members, other
  modules and diagnostics of any kind have no part in it.
-/

namespace FunctionService

namespace Package

variable {p q : Package}

/-- What the visits of a package do, one after another. -/
def actions (p : Package) : List Action :=
  p.units.flatMap fun u => p.visitActions u.1 u.2

theorem analyze_eq_foldl (p : Package) (a : Analysis) : p.analyze a = p.actions.foldl Action.run a :=
  List.foldl_flatMap.symm

theorem compile_eq_of_actions_eq (h : p.actions = q.actions) (format : Formatter) (c : ServiceConfig) :
    p.compile format c = q.compile format c := by
  rw [compile, compile, analyze_eq_foldl, analyze_eq_foldl, h]

end Package

/-! ## Test documents -/

/-- The modules differ in their test documents at most, and the same source documents have the identifier
of a test document. -/
structure Module.SameSources (m n : Module) : Prop where
  apart : n = { m with testDocuments := n.testDocuments }
  hidden : ∀ d ∈ m.documents,
    d.id ∈ m.testDocuments.map Document.id ↔ d.id ∈ n.testDocuments.map Document.id

/-- The packages differ in the test documents of their modules at most, and the same source documents
have the identifier of a test document. -/
structure Package.SameSources (p q : Package) : Prop where
  apart : q = { p with modules := q.modules }
  modules : List.Forall₂ Module.SameSources p.modules q.modules

namespace Package

variable {p q : Package}

/-- What the visits of a module do is what the visits of its source documents do. -/
theorem flatMap_visitActions (p : Package) (m : Module) :
    m.allDocuments.flatMap (p.visitActions m) = m.documents.flatMap (p.visitActions m) := by
  have htests : m.testDocuments.flatMap (p.visitActions m) = [] := by
    rw [List.flatMap_eq_nil_iff]
    intro d hd
    rw [visitActions, Module.isTest_of_mem hd]
    rfl
  rw [Module.allDocuments, List.flatMap_append, htests, List.append_nil]

theorem actions_eq_flatMap (p : Package) :
    p.actions = p.modules.flatMap fun m => m.documents.flatMap (p.visitActions m) := by
  simp only [actions, units, List.flatMap_assoc, List.flatMap_map, flatMap_visitActions]

/-- The visit of a source document does not depend on the test documents that do not hide it. -/
theorem visitActions_sameSources {m n : Module} (h : m.SameSources n) {d : Document}
    (hd : d ∈ m.documents) (ms : List Module) :
    { p with modules := ms }.visitActions n d = p.visitActions m d := by
  have hhidden : n.isTest d.id = m.isTest d.id := by
    rw [Bool.eq_iff_iff, Module.isTest_iff, Module.isTest_iff]
    exact (h.hidden d hd).symm
  rw [visitActions, visitActions, hhidden, h.apart]

theorem actions_sameSources (h : p.SameSources q) : p.actions = q.actions := by
  obtain ⟨hapart, hmodules⟩ := h
  rw [actions_eq_flatMap, actions_eq_flatMap, List.flatMap_def, List.flatMap_def]
  congr 1
  rw [← List.forall₂_eq_eq_eq, List.forall₂_map_left_iff, List.forall₂_map_right_iff]
  refine hmodules.imp fun m n hsame => ?_
  have hdocuments : n.documents = m.documents := by rw [hsame.apart]
  rw [hdocuments, hapart]
  exact List.flatMap_congr fun d hd => (visitActions_sameSources hsame hd q.modules).symm

/-- **Test documents are invisible.** Packages that differ only in their test documents, and in which the
same source documents have the identifier of a test document, are compiled to the same result: the same
diagnostics, the same source and the same transformers. -/
theorem compile_sameSources (h : p.SameSources q) (format : Formatter) (c : ServiceConfig) :
    p.compile format c = q.compile format c :=
  compile_eq_of_actions_eq (actions_sameSources h) format c

/-- The package with other test documents in each of its modules. -/
def withTests (p : Package) (tests : List Document) : Package :=
  { p with modules := p.modules.map fun m => { m with testDocuments := tests } }

/-- A transformer in each of two documents. -/
def twoTransformers : Package :=
  twoDocuments [plainTransformer "load" (samplePlace "a.bal" 1)]
    [plainTransformer "keep" (samplePlace "b.bal" 1)] false

/-- The second of two documents is hidden by a test document. What else the tests hold does not matter. -/
theorem compile_sameSources_sample :
    let c : ServiceConfig := {}
    let p := twoTransformers.withTests
      [⟨"b", "b_test.bal", [.declaration .class ⟨none, samplePlace "b_test.bal" 1⟩]⟩]
    let q := twoTransformers.withTests
      [⟨"main", "main.bal", [sampleMain, sampleTransformer]⟩, ⟨"b", "other.bal", []⟩]
    p.SameSources q ∧ (p.compile c.formatter c).transformers = ["load"] ∧
      p.compile c.formatter c = q.compile c.formatter c := by
  intro c p q
  have hsame : p.SameSources q := ⟨rfl, .cons ⟨rfl, by decide⟩ .nil⟩
  exact ⟨hsame, by decide +kernel, compile_sameSources hsame c.formatter c⟩

end Package

/-! ## Interfaces -/

/-- The functions have the same name, parameters, return type and place. Their bodies, annotations and
qualifiers may differ. -/
structure FunctionDef.SameInterface (f g : FunctionDef) : Prop where
  name : f.name = g.name
  parameters : f.parameters = g.parameters
  returnType : f.returnType = g.returnType
  location : f.location = g.location

/-- The transformers that the visible documents of default modules declare, in order. -/
def Package.defaultTransformers (p : Package) : List FunctionDef :=
  p.visibleMembers.filterMap fun
    | (m, .function f) => if m.isDefault ∧ f.IsTransformer then some f else none
    | _ => none

namespace Signature

/-- The signature with its four marks set alike for all functions, since no service shows them. -/
def unmarked (f : Signature) : Signature :=
  { f with isPublic := true, isIsolated := true, isExpressionBodied := true, isAnnotated := false }

theorem synthesize_unmarked (c : ServiceConfig) (fs : List Signature) :
    synthesize c (fs.map unmarked) = synthesize c fs := by
  rw [synthesize, synthesize, List.map_map, List.filterMap_map]
  rfl

theorem map_unmarked_mergeSort (fs : List Signature) :
    (fs.mergeSort startsNoLater).map unmarked = (fs.map unmarked).mergeSort startsNoLater :=
  List.map_mergeSort fun _ _ _ _ => rfl

end Signature

theorem FunctionDef.SameInterface.unmarked_eq {f g : FunctionDef} (h : f.SameInterface g) :
    f.signature.unmarked = g.signature.unmarked := by
  simp only [Signature.unmarked, signature, h.name, h.parameters, h.returnType, h.location]

namespace Action

/-- Running actions adds the functions that they register to the registry, in order. -/
theorem functions_foldl_run (acts : List Action) (a : Analysis) :
    (acts.foldl run a).registry.functions =
      a.registry.functions ++ (acts.flatMap atoms).filterMap Atom.appended? := by
  induction acts generalizing a with
  | nil => exact (List.append_nil _).symm
  | cons act acts ih =>
      have hact : (act.run a).registry.functions =
          a.registry.functions ++ act.atoms.filterMap Atom.appended? := by
        cases act with
        | report d => exact (List.append_nil _).symm
        | register f => rfl
        | claim d =>
            simp only [run, Analysis.claim]
            split <;> exact (List.append_nil _).symm
        | arrive total d =>
            simp only [run, Analysis.arrive]
            split <;> exact (List.append_nil _).symm
      rw [List.foldl_cons, ih, hact, List.flatMap_cons, List.filterMap_append, List.append_assoc]

end Action

namespace Package

variable {p q : Package}

theorem declaredTransformers_eq_map (p : Package) :
    p.declaredTransformers = p.defaultTransformers.map FunctionDef.signature := by
  rw [declaredTransformers, defaultTransformers, List.map_filterMap, List.filterMap_eq_flatMap_toList]
  refine List.flatMap_congr fun u _ => ?_
  obtain ⟨m, x⟩ := u
  cases x with
  | function f =>
      by_cases hf : f.IsTransformer <;> cases hm : m.isDefault <;> simp [Member.transformer?, hf, hm]
  | declaration kind d => cases m.isDefault <;> rfl
  | other kind l => cases m.isDefault <;> rfl

/-- Compiling a package without compilation errors registers the transformers of its default modules, in
order; with compilation errors no function is registered. -/
theorem analyze_functions (p : Package) :
    (p.analyze {}).registry.functions =
      if p.hasCompilationErrors then [] else p.defaultTransformers.map FunctionDef.signature := by
  have hvisits : (p.analyze {}).registry.functions = p.units.flatMap p.transformersOf := by
    rw [analyze_eq_foldl, Action.functions_foldl_run, actions, List.flatMap_assoc,
      List.filterMap_flatMap]
    exact List.flatMap_congr fun u _ => p.filterMap_appended_visitAtoms u
  rw [hvisits]
  cases herrors : p.hasCompilationErrors with
  | true => simp [transformersOf, herrors]
  | false =>
      rw [if_neg Bool.false_ne_true, ← declaredTransformers_eq_map, declaredTransformers,
        ← flatMap_units fun m x => if m.isDefault then x.transformer?.toList else []]
      refine List.flatMap_congr fun u _ => ?_
      rw [transformersOf, herrors, List.filterMap_eq_flatMap_toList]
      cases u.1.isTest u.2.id <;> cases u.1.isDefault <;> simp

/-- The functions registered for two packages are the same, marks apart, if their interfaces are. -/
theorem unmarked_functions_eq (herrors : p.hasCompilationErrors = q.hasCompilationErrors)
    (h : List.Forall₂ FunctionDef.SameInterface p.defaultTransformers q.defaultTransformers) :
    (p.analyze {}).registry.functions.map Signature.unmarked =
      (q.analyze {}).registry.functions.map Signature.unmarked := by
  have hsame : p.defaultTransformers.map (Signature.unmarked ∘ FunctionDef.signature) =
      q.defaultTransformers.map (Signature.unmarked ∘ FunctionDef.signature) := by
    rw [← List.forall₂_eq_eq_eq, List.forall₂_map_left_iff, List.forall₂_map_right_iff]
    exact h.imp fun f g hfg => hfg.unmarked_eq
  rw [analyze_functions, analyze_functions, herrors]
  split
  · rfl
  · rw [List.map_map, List.map_map, hsame]

end Package

/-- The functions of an analysis decide what is generated and exposed, and their marks have no part in
it. -/
theorem Analysis.result_eq_of_unmarked {a b : Analysis}
    (h : a.registry.functions.map Signature.unmarked = b.registry.functions.map Signature.unmarked)
    (format : Formatter) (c : ServiceConfig) :
    (a.result format c).generated = (b.result format c).generated ∧
      (a.result format c).transformers = (b.result format c).transformers := by
  have hordered : a.registry.inSourceOrder.map Signature.unmarked =
      b.registry.inSourceOrder.map Signature.unmarked := by
    rw [Registry.inSourceOrder, Registry.inSourceOrder, Signature.map_unmarked_mergeSort,
      Signature.map_unmarked_mergeSort, h]
  have hunit : synthesize c a.registry.inSourceOrder = synthesize c b.registry.inSourceOrder := by
    rw [← Signature.synthesize_unmarked, hordered, Signature.synthesize_unmarked]
  obtain ⟨hgenerated, htransformers⟩ := a.result_formats format c
  obtain ⟨hgenerated', htransformers'⟩ := b.result_formats format c
  rw [hgenerated, hgenerated', htransformers, htransformers', hunit]
  exact ⟨rfl, rfl⟩

namespace Package

variable {p q : Package}

/-- The functions exposed are the transformers of the default modules, in source order. -/
theorem compile_transformers (p : Package) (format : Formatter) (c : ServiceConfig) :
    (p.compile format c).transformers = if p.hasCompilationErrors then [] else
      (p.defaultTransformers.mergeSort fun f g => (f.location.compareStart g.location).isLE).map
        FunctionDef.name := by
  show ((p.analyze {}).registry.functions.mergeSort Signature.startsNoLater).map Signature.name = _
  rw [analyze_functions]
  split
  · rw [List.mergeSort_nil, List.map_nil]
  · have hsort := List.map_mergeSort (f := FunctionDef.signature) (s := Signature.startsNoLater)
      (r := fun f g => (f.location.compareStart g.location).isLE) (l := p.defaultTransformers)
      fun _ _ _ _ => rfl
    rw [← hsort, List.map_map]
    rfl

/-- **A service depends on interfaces only.** If two packages both have compilation errors or both have
none, and the transformers of their default modules have the same interfaces one by one, then the same
source is generated for both and the same functions are exposed: without compilation errors those
transformers, in source order, and otherwise none. Nothing else about the packages matters. -/
theorem compile_sameInterfaces (herrors : p.hasCompilationErrors = q.hasCompilationErrors)
    (h : List.Forall₂ FunctionDef.SameInterface p.defaultTransformers q.defaultTransformers)
    (format : Formatter) (c : ServiceConfig) :
    (p.compile format c).generated = (q.compile format c).generated ∧
    (p.compile format c).transformers = (q.compile format c).transformers ∧
    (p.compile format c).transformers = if p.hasCompilationErrors then [] else
      (p.defaultTransformers.mergeSort fun f g => (f.location.compareStart g.location).isLE).map
        FunctionDef.name := by
  obtain ⟨hgenerated, htransformers⟩ :=
    Analysis.result_eq_of_unmarked (unmarked_functions_eq herrors h) format c
  exact ⟨hgenerated, htransformers, p.compile_transformers format c⟩

/-- A transformer that takes a person, next to a package in which it has another body and an annotation,
in which `Person` is no known type, and in which other modules and members break rules. -/
theorem compile_sameInterfaces_sample :
    let c : ServiceConfig := {}
    let load (annotations : List Annotation) (body : String) : Member :=
      .function ⟨"load", [.isPublic, .isIsolated], annotations, [⟨"x", .named "Person", .required⟩], none,
        .expression (.name body), samplePlace "a.bal" 2⟩
    let p := { twoDocuments [load [] "x"] [] false with symbols := .ofList [("Person", .record)] }
    let q := sample [sampleMain, load [⟨"display"⟩] "y"]
    List.Forall₂ FunctionDef.SameInterface p.defaultTransformers q.defaultTransformers ∧
      p.check = [] ∧ ⟨.unsupportedParameter "load", samplePlace "a.bal" 2⟩ ∈ q.check ∧
      (q.compile c.formatter c).transformers = ["load"] ∧
      (p.compile c.formatter c).generated = (q.compile c.formatter c).generated := by
  intro c load p q
  have hsame : List.Forall₂ FunctionDef.SameInterface p.defaultTransformers q.defaultTransformers :=
    .cons ⟨rfl, rfl, rfl, rfl⟩ .nil
  refine ⟨hsame, ?_, ?_, ?_, (compile_sameInterfaces (p := p) (q := q) rfl hsame c.formatter c).1⟩
  · decide +kernel
  · exact Analysis.mem_diagnostics.mpr (by decide +kernel)
  · decide +kernel

end Package

end FunctionService
