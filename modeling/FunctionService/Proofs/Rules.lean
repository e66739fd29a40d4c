import FunctionService.Proofs.Interleaving
import Mathlib.Data.List.Count

/-!
# The rules are applied exactly

`Member.Breaks` states the rules for members one by one, without a word about visits, actions or states.
Whatever the order in which the documents of a package are visited, the diagnostics about members are
those that the rules ask for: a diagnostic is reported once for every member of a visible document that
stands at its place and breaks its rule, and never otherwise. Likewise the functions registered are the
transformers of the visible documents of default modules, each as often as it is declared there.
-/

namespace FunctionService

/-! ## The rules -/

/-- A public isolated function whose body is an expression. -/
def FunctionDef.IsTransformer (f : FunctionDef) : Prop :=
  .isPublic ∈ f.qualifiers ∧ .isIsolated ∈ f.qualifiers ∧ ∃ value, f.body = .expression value

/-- The rules that a member of a module breaks, one constructor a rule. The types of a function are
judged only where it is a transformer of a default module, and its return type only if there is nothing
wrong with its parameters. -/
inductive Member.Breaks (t : SymbolTable) (inDefault : Bool) : Member → Violation → Prop
  | entryPoint {f : FunctionDef} : f.name = "main" → Breaks t inDefault (.function f) .entryPoint
  | publicBlockBody {f : FunctionDef} :
      .isPublic ∈ f.qualifiers → f.body = .block →
      Breaks t inDefault (.function f) .publicBlockBody
  | annotated {f : FunctionDef} : f.annotations ≠ [] → Breaks t inDefault (.function f) .annotated
  | parameter {f : FunctionDef} {q : Parameter} :
      inDefault = true → f.IsTransformer → q ∈ f.parameters → q.type.supported t = false →
      Breaks t inDefault (.function f) (.unsupportedParameter f.name)
  | return {f : FunctionDef} {r : TypeDesc} :
      inDefault = true → f.IsTransformer → (∀ q ∈ f.parameters, q.type.supported t = true) →
      f.returnType = some r → r.supported t = false →
      Breaks t inDefault (.function f) (.unsupportedReturn f.name)
  | listener (d : Declaration) : Breaks t inDefault (.declaration .listener d) .listener
  | classDecl (d : Declaration) : Breaks t inDefault (.declaration .class d) .class
  | service (d : Declaration) : Breaks t inDefault (.declaration .service d) .service
  | annotationDecl (d : Declaration) :
      Breaks t inDefault (.declaration .annotationDecl d) (.disallowedMember "annotation")
  | other (kind : String) (l : Location) :
      Breaks t inDefault (.other kind l) (.disallowedMember kind)

/-- The members of the documents whose identifier is not that of a test document of their module, each
with its module. -/
def Package.visibleMembers (p : Package) : List (Module × Member) :=
  p.modules.flatMap fun m =>
    (m.allDocuments.filter fun d => d.id ∉ m.testDocuments.map Document.id).flatMap fun d =>
      d.members.map fun x => (m, x)

/-! ## Functions -/

theorem mem_ite_singleton {α : Type} {c : Prop} [Decidable c] {v w : α} :
    v ∈ (if c then [w] else []) ↔ c ∧ v = w := by
  by_cases h : c <;> simp [h]

namespace FunctionDef

variable {f : FunctionDef} {t : SymbolTable} {v : Violation}

theorem isTransformer_iff : f.signature.isTransformer = true ↔ f.IsTransformer := by
  have hbody : f.body.isExpression = true ↔ ∃ value, f.body = .expression value := by
    cases f.body <;> simp [FunctionBody.isExpression]
  simp [signature, Signature.isTransformer, IsTransformer, hbody, and_assoc]

instance : Decidable f.IsTransformer :=
  decidable_of_iff _ isTransformer_iff

theorem mem_violations :
    v ∈ f.signature.violations ↔
      (f.name = "main" ∧ v = .entryPoint) ∨
      ((.isPublic ∈ f.qualifiers ∧ f.body = .block) ∧ v = .publicBlockBody) ∨
      (f.annotations ≠ [] ∧ v = .annotated) := by
  have hbody : f.body.isExpression = false ↔ f.body = .block := by
    cases f.body <;> simp [FunctionBody.isExpression]
  rw [Signature.violations, List.mem_append, List.mem_append, mem_ite_singleton, mem_ite_singleton,
    mem_ite_singleton, or_assoc]
  simp [signature, hbody]

end FunctionDef

theorem Signature.mem_verdict_violations {f : Signature} {t : SymbolTable} {v : Violation} :
    v ∈ (f.verdict t).violations f.name ↔
      ((∃ q ∈ f.parameters, q.type.supported t = false) ∧ v = .unsupportedParameter f.name) ∨
      ((∀ q ∈ f.parameters, q.type.supported t = true) ∧
        (∃ r, f.returnType = some r ∧ r.supported t = false) ∧ v = .unsupportedReturn f.name) := by
  -- The return type is judged only where all the parameter types are supported.
  by_cases hq : ∀ q ∈ f.parameters, q.type.supported t = true
  · have hall : f.parameters.all (fun q => q.type.supported t) = true := by simpa using hq
    have hnone : ¬ ∃ q ∈ f.parameters, q.type.supported t = false := by
      rintro ⟨q, hmem, hfalse⟩
      rw [hq q hmem] at hfalse
      cases hfalse
    cases hr : f.returnType with
    | none => simp [verdict, Verdict.violations, hall, hr, hnone]
    | some r =>
        cases hs : r.supported t with
        | true => simp [verdict, Verdict.violations, hall, hr, hs, hnone]
        | false => simpa [verdict, Verdict.violations, hall, hr, hs, hnone] using fun _ => hq
  · have hall : f.parameters.all (fun q => q.type.supported t) = false := by simpa using hq
    have hsome : ∃ q ∈ f.parameters, q.type.supported t = false := by simpa using hq
    simp [verdict, Verdict.violations, hall, hsome, hq]

/-! ## Members -/

namespace Member

variable {t : SymbolTable} {inDefault : Bool} {x : Member} {v : Violation}

/-- The violations that a visit reports about a member, in order. -/
def violations (t : SymbolTable) (inDefault : Bool) : Member → List Violation
  | .function f =>
    f.signature.violations ++
      if inDefault && f.signature.isTransformer then
        (f.signature.verdict t).violations f.signature.name
      else []
  | .declaration kind _ => kind.violations
  | .other kind _ => [.disallowedMember kind]

/-- The function that a visit registers for a member. -/
def transformer? : Member → Option Signature
  | .function f => if f.IsTransformer then some f.signature else none
  | _ => none

theorem mem_function_violations {f : FunctionDef} :
    v ∈ violations t inDefault (.function f) ↔ (Member.function f).Breaks t inDefault v := by
  have htypes : (v ∈ if (inDefault && f.signature.isTransformer) = true then
        (f.signature.verdict t).violations f.signature.name else []) ↔
      inDefault = true ∧ f.IsTransformer ∧ v ∈ (f.signature.verdict t).violations f.signature.name := by
    rw [← FunctionDef.isTransformer_iff]
    cases inDefault <;> cases f.signature.isTransformer <;> simp
  rw [violations, List.mem_append, htypes, FunctionDef.mem_violations, Signature.mem_verdict_violations]
  constructor
  · rintro ((⟨h, rfl⟩ | ⟨⟨h, hb⟩, rfl⟩ | ⟨h, rfl⟩) |
      ⟨hd, hf, ⟨⟨q, hq, hs⟩, rfl⟩ | ⟨hall, ⟨r, hr, hs⟩, rfl⟩⟩)
    · exact .entryPoint h
    · exact .publicBlockBody h hb
    · exact .annotated h
    · exact .parameter hd hf hq hs
    · exact .return hd hf hall hr hs
  · intro h
    cases h with
    | entryPoint h => exact Or.inl (Or.inl ⟨h, rfl⟩)
    | publicBlockBody h hb => exact Or.inl (Or.inr (Or.inl ⟨⟨h, hb⟩, rfl⟩))
    | annotated h => exact Or.inl (Or.inr (Or.inr ⟨h, rfl⟩))
    | parameter hd hf hq hs => exact Or.inr ⟨hd, hf, Or.inl ⟨⟨_, hq, hs⟩, rfl⟩⟩
    | «return» hd hf hall hr hs => exact Or.inr ⟨hd, hf, Or.inr ⟨hall, ⟨_, hr, hs⟩, rfl⟩⟩

theorem mem_violations : v ∈ x.violations t inDefault ↔ x.Breaks t inDefault v := by
  cases x with
  | function f => exact mem_function_violations
  | declaration kind d =>
      constructor
      · intro h
        cases kind <;> simp only [violations, DeclarationKind.violations, List.mem_singleton,
          List.not_mem_nil] at h <;> subst h <;> constructor
      · intro h
        cases h <;> simp [violations, DeclarationKind.violations, DeclarationKind.word]
  | other kind l =>
      constructor
      · intro h
        rw [List.mem_singleton.mp h]
        exact .other kind l
      · intro h
        cases h
        exact List.mem_singleton_self _

instance : Decidable (x.Breaks t inDefault v) :=
  decidable_of_iff _ mem_violations

theorem Breaks.ne_noTransformer (h : x.Breaks t inDefault v) : v ≠ .noTransformer := by
  cases h <;> exact Violation.noConfusion

/-- A member breaks a rule at most once. -/
theorem violations_nodup (t : SymbolTable) (inDefault : Bool) (x : Member) :
    (x.violations t inDefault).Nodup := by
  cases x with
  | function f =>
      rw [violations, Signature.violations]
      cases f.signature.verdict t <;> split_ifs <;> simp [Verdict.violations]
  | declaration kind d =>
      cases kind <;> simp [violations, DeclarationKind.violations]
  | other kind l => exact List.nodup_singleton _

/-- The diagnostics about a member. -/
def diagnostics (t : SymbolTable) (inDefault : Bool) (x : Member) : List Diagnostic :=
  (x.violations t inDefault).map fun v => ⟨v, x.location⟩

theorem count_diagnostics (t : SymbolTable) (inDefault : Bool) (x : Member) (d : Diagnostic) :
    (x.diagnostics t inDefault).count d =
      if x.location = d.location ∧ x.Breaks t inDefault d.violation then 1 else 0 := by
  obtain ⟨v, l⟩ := d
  by_cases hl : x.location = l
  · subst hl
    have hinj : Function.Injective fun v => Diagnostic.mk v x.location :=
      fun v w h => (Diagnostic.mk.inj h).1
    rw [diagnostics, List.count_map_of_injective _ _ hinj, (violations_nodup t inDefault x).count]
    simp only [mem_violations, true_and]
  · rw [if_neg fun h => hl h.1, List.count_eq_zero]
    intro hmem
    obtain ⟨w, _, hw⟩ := List.mem_map.mp hmem
    exact hl (Diagnostic.mk.inj hw).2

/-! ## The visit of a member -/

theorem filterMap_finding_reports {vs : List Violation} (h : ∀ v ∈ vs, v ≠ .noTransformer)
    (l : Location) :
    ((vs.map fun v => Action.report ⟨v, l⟩).flatMap Action.atoms).filterMap Atom.finding? =
      vs.map fun v => ⟨v, l⟩ := by
  induction vs with
  | nil => rfl
  | cons v vs ih =>
      have hv : v ≠ .noTransformer := h v List.mem_cons_self
      have hvs := ih fun w hw => h w (List.mem_cons_of_mem v hw)
      simp only [List.map_cons, List.flatMap_cons, List.filterMap_append, hvs]
      simp [Action.atoms, Atom.finding?, hv]

theorem filterMap_appended_reports (vs : List Violation) (l : Location) :
    ((vs.map fun v => Action.report ⟨v, l⟩).flatMap Action.atoms).filterMap Atom.appended? = [] := by
  induction vs with
  | nil => rfl
  | cons v vs ih =>
      simp only [List.map_cons, List.flatMap_cons, List.filterMap_append, ih]
      rfl

/-- What a visit does about a member: it reports the violations, and then registers a transformer of the
default module. -/
theorem actions_eq (t : SymbolTable) (inDefault : Bool) (x : Member) :
    x.actions t inDefault =
      ((x.violations t inDefault).map fun v => .report ⟨v, x.location⟩) ++
        if inDefault then x.transformer?.toList.map .register else [] := by
  cases x with
  | function f =>
      simp only [actions, Signature.actions, violations, transformer?,
        ← FunctionDef.isTransformer_iff, location]
      cases inDefault <;> cases f.signature.isTransformer <;> simp [FunctionDef.signature]
  | declaration kind d => cases inDefault <;> simp [actions, violations, transformer?, location]
  | other kind l => cases inDefault <;> simp [actions, violations, transformer?, location]

theorem filterMap_finding_actions (t : SymbolTable) (inDefault : Bool) (x : Member) :
    ((x.actions t inDefault).flatMap Action.atoms).filterMap Atom.finding? =
      x.diagnostics t inDefault := by
  have hne : ∀ v ∈ x.violations t inDefault, v ≠ .noTransformer :=
    fun v hv => (mem_violations.mp hv).ne_noTransformer
  have hreports := filterMap_finding_reports hne x.location
  rw [actions_eq, List.flatMap_append, List.filterMap_append, hreports]
  cases inDefault with
  | false => exact List.append_nil _
  | true => cases x.transformer? <;> exact List.append_nil _

theorem filterMap_appended_actions (t : SymbolTable) (inDefault : Bool) (x : Member) :
    ((x.actions t inDefault).flatMap Action.atoms).filterMap Atom.appended? =
      if inDefault then x.transformer?.toList else [] := by
  rw [actions_eq, List.flatMap_append, List.filterMap_append, filterMap_appended_reports]
  cases inDefault with
  | false => rfl
  | true => cases x.transformer? <;> rfl

/-- The accesses of the visit of a member, one by one. -/
theorem mem_atoms_iff {y : Atom} :
    y ∈ (x.actions t inDefault).flatMap Action.atoms ↔
      (∃ v, x.Breaks t inDefault v ∧ y = .report ⟨v, x.location⟩) ∨
      (inDefault = true ∧ ∃ f, x.transformer? = some f ∧ (y = .markFound ∨ y = .append f)) := by
  have hreports : (∃ act ∈ (x.violations t inDefault).map fun v => Action.report ⟨v, x.location⟩,
      y ∈ act.atoms) ↔ ∃ v, x.Breaks t inDefault v ∧ y = .report ⟨v, x.location⟩ := by
    simp only [List.mem_map, exists_exists_and_eq_and, mem_violations, Action.atoms, List.mem_singleton]
  rw [actions_eq, List.flatMap_append, List.mem_append, List.mem_flatMap, hreports]
  cases inDefault <;> cases x.transformer? <;> simp [Action.atoms]

theorem isRegular_of_mem_atoms {y : Atom}
    (hy : y ∈ (x.actions t inDefault).flatMap Action.atoms) : y.IsRegular := by
  rcases mem_atoms_iff.mp hy with ⟨v, _, rfl⟩ | ⟨_, f, _, rfl | rfl⟩ <;> trivial

end Member

/-! ## The visits of a package -/

theorem Module.isTest_iff {m : Module} {id : String} :
    m.isTest id = true ↔ id ∈ m.testDocuments.map Document.id := by
  simp [Module.isTest]

namespace Package

variable {p : Package}

/-- The transformers that the visible documents of default modules declare. -/
def declaredTransformers (p : Package) : List Signature :=
  p.visibleMembers.flatMap fun u => if u.1.isDefault then u.2.transformer?.toList else []

theorem visitAtoms_eq (h : p.hasCompilationErrors = false) (m : Module) (d : Document) :
    p.visitAtoms (m, d) =
      if m.isTest d.id then []
      else (d.members.flatMap fun x => (x.actions p.symbols m.isDefault).flatMap Action.atoms) ++
        if m.isDefault then [.countVisit m.documents.length ⟨.noTransformer, d.location⟩] else [] := by
  rw [visitAtoms, visitActions, h]
  cases m.isTest d.id with
  | true => rfl
  | false =>
      cases m.isDefault <;> simp [List.flatMap_assoc, Action.atoms]

theorem mem_visitAtoms_iff (h : p.hasCompilationErrors = false) {m : Module} {d : Document}
    {y : Atom} :
    y ∈ p.visitAtoms (m, d) ↔
      m.isTest d.id = false ∧
        ((∃ x ∈ d.members, y ∈ (x.actions p.symbols m.isDefault).flatMap Action.atoms) ∨
          (m.isDefault = true ∧ y = .countVisit m.documents.length ⟨.noTransformer, d.location⟩)) := by
  rw [visitAtoms_eq h]
  cases m.isTest d.id with
  | true => simp
  | false => rw [if_neg Bool.false_ne_true, List.mem_append, mem_ite_singleton, List.mem_flatMap]; simp

theorem isRegular_of_mem_visitAtoms (h : p.hasCompilationErrors = false) {u : Module × Document}
    {y : Atom} (hy : y ∈ p.visitAtoms u) : y.IsRegular := by
  rcases ((mem_visitAtoms_iff h).mp hy).2 with ⟨x, _, hy⟩ | ⟨_, rfl⟩
  · exact Member.isRegular_of_mem_atoms hy
  · rfl

/-- What is gathered document by document from the members of visible documents is gathered member by
member from the visible members. -/
theorem flatMap_units {β : Type} (g : Module → Member → List β) :
    (p.units.flatMap fun u => if u.1.isTest u.2.id then [] else u.2.members.flatMap (g u.1)) =
      p.visibleMembers.flatMap fun u => g u.1 u.2 := by
  have hfilter : ∀ (m : Module) (ds : List Document),
      (ds.flatMap fun d => if m.isTest d.id then [] else d.members.flatMap (g m)) =
        (ds.filter fun d => d.id ∉ m.testDocuments.map Document.id).flatMap fun d =>
          d.members.flatMap (g m) := by
    intro m ds
    induction ds with
    | nil => rfl
    | cons d ds ih =>
        rw [List.flatMap_cons, ih, List.filter_cons]
        by_cases hd : d.id ∈ m.testDocuments.map Document.id
        · rw [if_pos (Module.isTest_iff.mpr hd), if_neg (by simpa using hd), List.nil_append]
        · rw [if_neg (Module.isTest_iff.not.mpr hd), if_pos (by simpa using hd), List.flatMap_cons]
  simp only [units, visibleMembers, List.flatMap_assoc, List.flatMap_map, hfilter]

/-- What the visit of a document has to do is what its members ask for, apart from the counting of
documents. -/
theorem filterMap_visitAtoms {β : Type} (h : p.hasCompilationErrors = false) {g : Atom → Option β}
    (hg : ∀ total d, g (.countVisit total d) = none) (u : Module × Document) :
    (p.visitAtoms u).filterMap g =
      if u.1.isTest u.2.id then []
      else u.2.members.flatMap fun x =>
        ((x.actions p.symbols u.1.isDefault).flatMap Action.atoms).filterMap g := by
  obtain ⟨m, d⟩ := u
  rw [visitAtoms_eq h]
  cases m.isTest d.id with
  | true => rfl
  | false => cases m.isDefault <;> simp [List.filterMap_flatMap, hg]

/-- What a run has still to do when it starts is what the visible members ask for, apart from the
counting of documents. -/
theorem start_pending_filterMap {β : Type} (h : p.hasCompilationErrors = false)
    {g : Atom → Option β} (hg : ∀ total d, g (.countVisit total d) = none) :
    p.start.pending.filterMap g =
      ↑(p.visibleMembers.flatMap fun u =>
        ((u.2.actions p.symbols u.1.isDefault).flatMap Action.atoms).filterMap g) := by
  rw [Interleaving.start_pending, Multiset.filterMap_coe, List.filterMap_flatMap]
  simp only [filterMap_visitAtoms h hg]
  rw [flatMap_units fun m x => ((x.actions p.symbols m.isDefault).flatMap Action.atoms).filterMap g]

end Package

namespace Interleaving

variable {p : Package} {s : Interleaving}

theorem start_isRegular (h : p.hasCompilationErrors = false) : p.start.IsRegular := by
  intro y hy
  obtain ⟨u, _, hy⟩ := mem_start_pending.mp hy
  exact Package.isRegular_of_mem_visitAtoms h hy

/-- The findings of a finished run are the diagnostics about the visible members. -/
theorem findings_perm (h : p.hasCompilationErrors = false) (hrun : p.start.Reaches s)
    (hdone : s.IsDone) :
    s.analysis.findings.Perm
      (p.visibleMembers.flatMap fun u => u.2.diagnostics p.symbols u.1.isDefault) := by
  have hstart : p.start.findings =
      ↑(p.visibleMembers.flatMap fun u => u.2.diagnostics p.symbols u.1.isDefault) := by
    rw [findings, Package.start_pending_filterMap h fun _ _ => rfl]
    simp only [Member.filterMap_finding_actions]
    exact zero_add _
  rw [← Multiset.coe_eq_coe, ← hdone.findings_eq, hrun.findings_eq (start_isRegular h), hstart]

/-- The functions that a finished run has registered are the transformers that the visible documents of
default modules declare. -/
theorem functions_perm (h : p.hasCompilationErrors = false) (hrun : p.start.Reaches s)
    (hdone : s.IsDone) : s.analysis.registry.functions.Perm p.declaredTransformers := by
  have hstart : p.start.registered = ↑p.declaredTransformers := by
    rw [registered, Package.start_pending_filterMap h fun _ _ => rfl]
    simp only [Member.filterMap_appended_actions]
    exact zero_add _
  rw [← Multiset.coe_eq_coe, ← hdone.registered_eq, hrun.registered_eq, hstart]

end Interleaving

namespace Package

theorem count_flatMap_diagnostics (t : SymbolTable) (xs : List (Module × Member)) (d : Diagnostic) :
    (xs.flatMap fun u => u.2.diagnostics t u.1.isDefault).count d =
      xs.countP fun u => u.2.location = d.location ∧ u.2.Breaks t u.1.isDefault d.violation := by
  induction xs with
  | nil => rfl
  | cons u xs ih =>
      rw [List.flatMap_cons, List.count_append, ih, Member.count_diagnostics, List.countP_cons,
        Nat.add_comm]
      simp only [decide_eq_true_eq]

/-- **The rules are applied exactly.** In whatever order the documents of a package without compilation
errors are visited, a diagnostic other than that there is no transformer is reported as often as there
are visible members at its place that break its rule, and the functions registered are the transformers
declared in visible documents of default modules. -/
theorem visitAll_exact (p : Package) (h : p.hasCompilationErrors = false)
    {order : List (Module × Document)} (horder : order.Perm p.units) :
    (∀ d : Diagnostic, d.violation ≠ .noTransformer →
      (p.visitAll {} order).reported.count d =
        p.visibleMembers.countP fun u =>
          u.2.location = d.location ∧ u.2.Breaks p.symbols u.1.isDefault d.violation) ∧
    (p.visitAll {} order).registry.functions.Perm p.declaredTransformers := by
  -- An order is one of the runs, and every finished run has the same findings.
  obtain ⟨s, hrun, hdone, hs⟩ := Interleaving.reaches_visitAll p horder
  rw [← hs]
  refine ⟨fun d hd => ?_, Interleaving.functions_perm h hrun hdone⟩
  have hcount : s.analysis.findings.count d = s.analysis.reported.count d :=
    List.count_filter (by simpa using hd)
  rw [← hcount, (Interleaving.findings_perm h hrun hdone).count_eq, count_flatMap_diagnostics]

/-- A place in a sample document. -/
def samplePlace (file : String) (line : UInt64) : Location :=
  ⟨⟨file⟩, line, 0, line, 1⟩

/-- A default module with one source document, which has the given members, and one test document. -/
def sampleModule (members : List Member) : Module where
  id := "sample"
  name := "sample"
  isDefault := true
  documents := [⟨"main", "main.bal", members⟩]
  testDocuments := [⟨"main_test", "test.bal", [.declaration .class ⟨none, samplePlace "test.bal" 1⟩]⟩]

/-- The default module above next to another module with a member that is not allowed. -/
def sample (members : List Member) : Package where
  name := "sample"
  modules :=
    [sampleModule members,
      ⟨"sample.util", "util", false,
        [⟨"util", "util.bal", [.other "client" (samplePlace "util.bal" 1)]⟩], []⟩]
  hasCompilationErrors := false
  symbols := .empty

/-- An annotated public `main` with a block for a body. -/
def sampleMain : Member :=
  .function ⟨"main", [.isPublic], [⟨"display"⟩], [], none, .block, samplePlace "main.bal" 1⟩

/-- A transformer with a parameter that cannot cross the boundary. -/
def sampleTransformer : Member :=
  .function ⟨"load", [.isIsolated, .isPublic], [], [⟨"x", .other "xml", .required⟩],
    some (.other "xml"), .expression (.name "x"), samplePlace "main.bal" 2⟩

theorem visitAll_exact_sample :
    let p := sample [sampleMain, sampleTransformer]
    let a := p.visitAll {} p.units.reverse
    p.hasCompilationErrors = false ∧ p.units.reverse.Perm p.units ∧
      a.reported.count ⟨.annotated, samplePlace "main.bal" 1⟩ = 1 ∧
      a.reported.count ⟨.unsupportedParameter "load", samplePlace "main.bal" 2⟩ = 1 ∧
      a.reported.count ⟨.unsupportedReturn "load", samplePlace "main.bal" 2⟩ = 0 ∧
      a.reported.count ⟨.class, samplePlace "test.bal" 1⟩ = 0 ∧
      a.reported.count ⟨.disallowedMember "client", samplePlace "util.bal" 1⟩ = 1 ∧
      (a.registry.functions.map Signature.name).Perm ["load"] := by
  intro p a
  obtain ⟨hcount, hfunctions⟩ := visitAll_exact p rfl p.units.reverse_perm
  refine ⟨rfl, p.units.reverse_perm, ?_, ?_, ?_, ?_, ?_, ?_⟩
  · exact (hcount _ (by decide)).trans (by decide)
  · exact (hcount _ (by decide)).trans (by decide)
  · exact (hcount _ (by decide)).trans (by decide)
  · exact (hcount _ (by decide)).trans (by decide)
  · exact (hcount _ (by decide)).trans (by decide)
  · exact hfunctions.map Signature.name

end Package

end FunctionService
