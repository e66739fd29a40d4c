import FunctionService.Proofs.Dependence
import FunctionService.Proofs.Support

/-!
# Adding type definitions

A package gains a type definition when its table binds a name that was free. The new binding may close a
cycle through names that led nowhere before, but nothing that was supported followed such a name, so
support is never lost:

* `SymbolTable.support_monotone`: what is supported under a table is supported under every larger one, and
  a package in which more names are bound is reported for no more functions.
* `SymbolTable.definition_unmasks_return`: a function whose parameters become supported may be reported for
  its return type instead.
* `TypeDesc.supported_behind_name`: a type that is supported as it is written in a signature is supported
  as the meaning of a name. Written out, a type is judged one level deep and a table only by the map that is
  its row, so the rule for written types is the stricter one.
-/

namespace FunctionService

/-! ## Larger tables -/

namespace SymbolTable

variable {t u : SymbolTable}

/-- An inserted entry is looked up as one in front of the others. -/
theorem lookup_insertEntry (name : String) (symbol : TypeSymbol) (entries : List (String × TypeSymbol))
    (n : String) :
    (insertEntry name symbol entries).lookup n = ((name, symbol) :: entries).lookup n := by
  induction entries with
  | nil => rfl
  | cons e rest ih =>
      obtain ⟨k, s⟩ := e
      rw [insertEntry]
      split_ifs with hlt heq
      · rfl
      · subst heq
        simp only [List.lookup_cons]
        cases n == name <;> rfl
      · -- The entries pass each other, which no name notices.
        simp only [List.lookup_cons] at ih ⊢
        rw [ih]
        cases hk : n == k <;> cases hn : n == name
        · rfl
        · rfl
        · rfl
        · exact absurd ((beq_iff_eq.mp hn).symm.trans (beq_iff_eq.mp hk)) heq

theorem resolve_insert (t : SymbolTable) (name : String) (symbol : TypeSymbol) (n : String) :
    (t.insert name symbol).resolve n = if n = name then some symbol else t.resolve n := by
  rw [resolve, insert, lookup_insertEntry, List.lookup_cons]
  by_cases h : n = name
  · rw [if_pos h, beq_iff_eq.mpr h]
  · rw [if_neg h, beq_eq_false_iff_ne.mpr h]
    rfl

/-- Binding a free name extends a table. -/
theorem extendedBy_insert {name : String} (hfree : t.resolve name = none) (symbol : TypeSymbol) :
    t.ExtendedBy (t.insert name symbol) := by
  intro n s hn
  have hne : n ≠ name := by
    rintro rfl
    rw [hfree] at hn
    cases hn
  rw [resolve_insert, if_neg hne, hn]

theorem supportsSymbol_mono (h : t.ExtendedBy u) {s : TypeSymbol} (hs : t.supportsSymbol s = true) :
    u.supportsSymbol s = true :=
  TypeSymbol.supportedWith_mono (fun _ => supportsName_mono h) s hs

end SymbolTable

/-- Of the types in a signature only names are judged by the table. -/
theorem TypeDesc.supported_mono {t u : SymbolTable} (h : t.ExtendedBy u) {d : TypeDesc}
    (hd : d.supported t = true) : d.supported u = true := by
  cases d with
  | named n => exact SymbolTable.supportsName_mono h hd
  | table row => cases row <;> exact hd
  | _ => exact hd

namespace Signature

variable {t u : SymbolTable} {f : Signature}

theorem verdict_mono (h : t.ExtendedBy u) (hf : f.verdict t = .ok) : f.verdict u = .ok := by
  obtain ⟨hparameters, hreturn⟩ := verdict_eq_ok_iff.mp hf
  exact verdict_eq_ok_iff.mpr ⟨fun p hp => TypeDesc.supported_mono h (hparameters p hp),
    fun r hr => TypeDesc.supported_mono h (hreturn r hr)⟩

theorem verdict_eq_parametersUnsupported_iff :
    f.verdict t = .parametersUnsupported ↔ ∃ p ∈ f.parameters, p.type.supported t = false := by
  have hall : f.parameters.all (fun p => p.type.supported t) = false ↔
      ∃ p ∈ f.parameters, p.type.supported t = false := by
    simp
  rw [← hall]
  unfold verdict
  cases f.parameters.all (fun p => p.type.supported t) <;>
    cases f.returnType.all (fun r => r.supported t) <;> simp

/-- Parameters that are unsupported under a table are so under every smaller one. -/
theorem verdict_parametersUnsupported_anti (h : t.ExtendedBy u)
    (hf : f.verdict u = .parametersUnsupported) : f.verdict t = .parametersUnsupported := by
  rw [verdict_eq_parametersUnsupported_iff] at hf ⊢
  obtain ⟨p, hp, hu⟩ := hf
  refine ⟨p, hp, ?_⟩
  cases ht : p.type.supported t with
  | false => rfl
  | true => exact absurd (TypeDesc.supported_mono h ht) (hu ▸ Bool.false_ne_true)

end Signature

/-! ## Functions that are reported for their types -/

/-- A verdict amounts to a violation about its function, and other verdicts and functions to another. -/
theorem Verdict.mem_violations_iff {w w' : Verdict} {v : Violation} {n n' : String}
    (hv : v ∈ w.violations n) : v ∈ w'.violations n' ↔ n' = n ∧ w' = w := by
  cases w <;> cases w' <;> simp_all [Verdict.violations, eq_comm]

theorem Verdict.violation_cases {w : Verdict} {v : Violation} {n : String} (hv : v ∈ w.violations n) :
    v = .unsupportedParameter n ∨ v = .unsupportedReturn n := by
  cases w <;> simp_all [Verdict.violations]

namespace FunctionDef

/-- A function at a place, with a name and a verdict about its types. -/
def IsJudged (t : SymbolTable) (w : Verdict) (n : String) (l : Location) (f : FunctionDef) : Prop :=
  f.location = l ∧ f.name = n ∧ f.signature.verdict t = w

instance (t : SymbolTable) (w : Verdict) (n : String) (l : Location) :
    DecidablePred (IsJudged t w n l) :=
  fun _ => inferInstanceAs (Decidable (_ ∧ _))

end FunctionDef

/-- A violation that a verdict amounts to is found only in transformers of a default module with that
verdict. -/
theorem Member.breaks_verdict_iff {t : SymbolTable} {inDefault : Bool} {x : Member} {w : Verdict}
    {v : Violation} {n : String} (hv : v ∈ w.violations n) :
    x.Breaks t inDefault v ↔ ∃ f, x = .function f ∧ inDefault = true ∧ f.IsTransformer ∧
      f.name = n ∧ f.signature.verdict t = w := by
  have hkind := Verdict.violation_cases hv
  constructor
  · intro h
    have hmem := mem_violations.mpr h
    cases x with
    | function f =>
        have hown : v ∉ f.signature.violations := by
          rw [FunctionDef.mem_violations]
          rcases hkind with rfl | rfl <;> simp
        have htypes := (List.mem_append.mp hmem).resolve_left hown
        split at htypes
        next hcond =>
          obtain ⟨hdefault, hf⟩ := Bool.and_eq_true_iff.mp hcond
          exact ⟨f, rfl, hdefault, FunctionDef.isTransformer_iff.mp hf,
            (Verdict.mem_violations_iff hv).mp htypes⟩
        next => cases htypes
    | declaration kind d =>
        rcases hkind with rfl | rfl <;> cases h
    | other kind l =>
        rcases hkind with rfl | rfl <;> cases h
  · rintro ⟨f, rfl, rfl, hf, hjudged⟩
    refine mem_violations.mp (List.mem_append_right _ ?_)
    rw [FunctionDef.isTransformer_iff.mpr hf]
    exact (Verdict.mem_violations_iff hv).mpr hjudged

namespace Package

variable {p q : Package}

/-- The members that a visit reports for their types are transformers of default modules. -/
theorem countP_breaks_verdict {t : SymbolTable} {w : Verdict} {v : Violation} {n : String}
    (hv : v ∈ w.violations n) (l : Location) (p : Package) :
    (p.visibleMembers.countP fun u => u.2.location = l ∧ u.2.Breaks t u.1.isDefault v) =
      p.defaultTransformers.countP fun f => f.IsJudged t w n l := by
  rw [defaultTransformers, List.countP_filterMap]
  refine List.countP_congr fun u _ => ?_
  obtain ⟨m, x⟩ := u
  rw [decide_eq_true_eq, Member.breaks_verdict_iff hv]
  cases x with
  | function f =>
      by_cases hf : m.isDefault = true ∧ f.IsTransformer
      · simp only [if_pos hf, Option.map_some, Option.getD_some, decide_eq_true_eq]
        simp [hf, FunctionDef.IsJudged, Member.location]
      · simp only [if_neg hf]
        simp_all
  | declaration kind d => simp
  | other kind l => simp

end Package

namespace Interleaving

variable {p q : Package} {s s' : Interleaving}

/-- How often a finished run reports functions of a name and a place for their types. -/
theorem count_diagnostics_verdict (hrun : p.start.Reaches s) (hdone : s.IsDone) {w : Verdict}
    {v : Violation} {n : String} (hv : v ∈ w.violations n) (l : Location) :
    s.analysis.diagnostics.count ⟨v, l⟩ =
      if p.hasCompilationErrors then 0
      else p.defaultTransformers.countP fun f => f.IsJudged p.symbols w n l := by
  have hkind : v ≠ .noTransformer ∧ v ≠ .compilationErrors := by
    rcases Verdict.violation_cases hv with rfl | rfl <;> simp
  have hsorted : s.analysis.diagnostics.count ⟨v, l⟩ = s.analysis.reported.count ⟨v, l⟩ :=
    (sortBy_perm Diagnostic.compare s.analysis.reported).count_eq _
  rw [hsorted]
  cases herrors : p.hasCompilationErrors with
  | true =>
      rw [if_pos rfl, List.count_eq_zero]
      intro hmem
      have hoverall := isOverall_eq hrun hmem
      simp [Diagnostic.isOverall, herrors, hkind] at hoverall
  | false =>
      have hfindings : s.analysis.findings.count ⟨v, l⟩ = s.analysis.reported.count ⟨v, l⟩ :=
        List.count_filter (by simpa using hkind.1)
      rw [if_neg Bool.false_ne_true, ← hfindings, (findings_perm herrors hrun hdone).count_eq,
        Package.count_flatMap_diagnostics, Package.countP_breaks_verdict hv]

end Interleaving

/-- Of the functions of a list, those with one verdict and those with another. -/
theorem FunctionDef.countP_isJudged_add (t : SymbolTable) (n : String) (l : Location)
    (fs : List FunctionDef) :
    (fs.countP fun f => f.IsJudged t .parametersUnsupported n l) +
        (fs.countP fun f => f.IsJudged t .returnUnsupported n l) =
      fs.countP fun f => f.location = l ∧ f.name = n ∧ f.signature.verdict t ≠ .ok := by
  induction fs with
  | nil => rfl
  | cons f fs ih =>
      rw [List.countP_cons, List.countP_cons, List.countP_cons, ← ih]
      cases hw : f.signature.verdict t <;> by_cases hl : f.location = l <;>
        by_cases hn : f.name = n <;> simp [IsJudged, hw, hl, hn] <;> omega

namespace SymbolTable

/-- **Support is monotone in the table.** If a table binds every name that another one binds, and to the same
symbol, then every symbol, type and signature that the other accepts is accepted under it. So if a package
gains type definitions and keeps its transformers, then however its documents are visited before and after,
no function is reported for its parameters that was not, and none for its parameters or its return type that
was not reported for one of them; functions of one name at one place are counted. -/
theorem support_monotone {t u : SymbolTable} (h : t.ExtendedBy u) :
    (∀ s : TypeSymbol, t.supportsSymbol s = true → u.supportsSymbol s = true) ∧
    (∀ d : TypeDesc, d.supported t = true → d.supported u = true) ∧
    (∀ f : Signature, f.verdict t = .ok → f.verdict u = .ok) ∧
    ∀ p q : Package, p.symbols = t → q.symbols = u →
      q.hasCompilationErrors = p.hasCompilationErrors →
      q.defaultTransformers = p.defaultTransformers →
      ∀ before after : Interleaving, p.start.Reaches before → before.IsDone →
        q.start.Reaches after → after.IsDone → ∀ (n : String) (l : Location),
          let parameter : Diagnostic := ⟨.unsupportedParameter n, l⟩
          let result : Diagnostic := ⟨.unsupportedReturn n, l⟩
          after.analysis.diagnostics.count parameter ≤ before.analysis.diagnostics.count parameter ∧
          after.analysis.diagnostics.count parameter + after.analysis.diagnostics.count result ≤
            before.analysis.diagnostics.count parameter + before.analysis.diagnostics.count result := by
  refine ⟨fun s => supportsSymbol_mono h, fun d => TypeDesc.supported_mono h,
    fun f => Signature.verdict_mono h, ?_⟩
  rintro p q rfl rfl herrors htransformers before after hrun hdone hrun' hdone' n l
  have hparameter : .unsupportedParameter n ∈ Verdict.parametersUnsupported.violations n :=
    List.mem_singleton_self _
  have hresult : .unsupportedReturn n ∈ Verdict.returnUnsupported.violations n :=
    List.mem_singleton_self _
  simp only [Interleaving.count_diagnostics_verdict hrun hdone hparameter,
    Interleaving.count_diagnostics_verdict hrun hdone hresult,
    Interleaving.count_diagnostics_verdict hrun' hdone' hparameter,
    Interleaving.count_diagnostics_verdict hrun' hdone' hresult, herrors, htransformers]
  split
  · exact ⟨le_rfl, le_rfl⟩
  · rw [FunctionDef.countP_isJudged_add, FunctionDef.countP_isJudged_add]
    constructor
    · refine List.countP_mono_left fun f _ hf => ?_
      obtain ⟨hl, hn, hw⟩ := of_decide_eq_true hf
      exact decide_eq_true ⟨hl, hn, Signature.verdict_parametersUnsupported_anti h hw⟩
    · refine List.countP_mono_left fun f _ hf => ?_
      obtain ⟨hl, hn, hw⟩ := of_decide_eq_true hf
      exact decide_eq_true ⟨hl, hn, mt (Signature.verdict_mono h) hw⟩

end SymbolTable

/-- The package of two transformers of which one takes rows of numbers, and the other a type that leads
nowhere. -/
def Package.sampleRows (symbols : SymbolTable) : Package :=
  let takes (function type : String) (place : Location) : Member :=
    .function ⟨function, [.isPublic, .isIsolated], [], [⟨"x", .named type, .required⟩], none,
      .expression (.name "x"), place⟩
  { twoDocuments [takes "total" "Rows" (samplePlace "a.bal" 1)]
      [takes "walk" "Loop" (samplePlace "b.bal" 1)] false with symbols := symbols }

namespace SymbolTable

/-- A new binding closes a cycle through a name that was not bound. -/
theorem support_monotone_cycle :
    let t := ofList [("Rows", .table (.map (.alias "Cell"))), ("Cell", .primitive .int),
      ("Loop", .array (.alias "Gap"))]
    let u := t.insert "Gap" (.alias "Loop")
    let total : Diagnostic := ⟨.unsupportedParameter "total", Package.samplePlace "a.bal" 1⟩
    let walk : Diagnostic := ⟨.unsupportedParameter "walk", Package.samplePlace "b.bal" 1⟩
    t.ExtendedBy u ∧ t.supportsSymbol (.alias "Rows") = true ∧ u.supportsSymbol (.alias "Rows") = true ∧
      (Package.sampleRows t).check = [walk] ∧ (Package.sampleRows u).check.count walk ≤ 1 ∧
      total ∉ (Package.sampleRows u).check := by
  intro t u total walk
  have hextended : t.ExtendedBy u := extendedBy_insert rfl _
  have hrows : t.supportsSymbol (.alias "Rows") = true := by decide +kernel
  have hcheck : (Package.sampleRows t).check = [walk] := by decide +kernel
  obtain ⟨hsymbols, _, _, hreports⟩ := support_monotone hextended
  obtain ⟨before, hrun, hdone, hbefore⟩ := Interleaving.reaches_visitAll (Package.sampleRows t) (.refl _)
  obtain ⟨after, hrun', hdone', hafter⟩ := Interleaving.reaches_visitAll (Package.sampleRows u) (.refl _)
  have hcount := hreports (Package.sampleRows t) (Package.sampleRows u) rfl rfl rfl rfl
    before after hrun hdone hrun' hdone'
  rw [hbefore, hafter] at hcount
  have hle (n : String) (l : Location) :
      (Package.sampleRows u).check.count ⟨.unsupportedParameter n, l⟩ ≤
        [walk].count ⟨.unsupportedParameter n, l⟩ :=
    hcheck ▸ (hcount n l).1
  refine ⟨hextended, hrows, hsymbols _ hrows, hcheck, hle _ _, ?_⟩
  exact List.count_eq_zero.mp (Nat.le_zero.mp (hle _ _))

end SymbolTable

/-- A package with a transformer from a named type to one that is not supported. -/
def Package.sampleConversion (symbols : SymbolTable) : Package :=
  let convert : FunctionDef := ⟨"convert", [.isPublic, .isIsolated], [], [⟨"x", .named "Foo", .required⟩],
    some (.other "xml"), .expression (.name "x"), samplePlace "a.bal" 1⟩
  { twoDocuments [.function convert] [] false with symbols := symbols }

/-- A type definition can introduce a report. Under the empty table the function is reported for its
parameter; once the type of the parameter is defined, it is reported for its return type, for which it was
not reported before. -/
theorem SymbolTable.definition_unmasks_return :
    let t := SymbolTable.empty
    let u := t.insert "Foo" (.primitive .int)
    let place := Package.samplePlace "a.bal" 1
    t.ExtendedBy u ∧ (Package.sampleConversion t).check = [⟨.unsupportedParameter "convert", place⟩] ∧
      (Package.sampleConversion u).check = [⟨.unsupportedReturn "convert", place⟩] := by
  intro t u place
  exact ⟨extendedBy_insert rfl _, by decide +kernel, by decide +kernel⟩

/-! ## Types behind names -/

namespace TypeDesc

variable {t : SymbolTable} {d : TypeDesc}

/-- The symbol of the same shape as a type, in which a name stands for its meaning. The nil type, unions and
types of unknown structure have none. -/
def symbol? : TypeDesc → Option TypeSymbol
  | .primitive kind => some (.primitive kind)
  | .array element => element.symbol?.map .array
  | .map value => value.symbol?.map .map
  | .table row => row.symbol?.map .table
  | .named name => some (.alias name)
  | .nil | .union _ | .other _ => none

theorem Shallow.supported (h : d.Shallow) (t : SymbolTable) : d.supported t = true := by
  cases h <;> rfl

theorem Shallow.exists_symbol (h : d.Shallow) (t : SymbolTable) :
    ∃ s, d.symbol? = some s ∧ t.supportsSymbol s = true := by
  cases h <;> exact ⟨_, rfl, rfl⟩

/-- A table is supported if it is one of maps, and then its row is a map that is supported. -/
theorem supported_table_iff :
    (TypeDesc.table d).supported t = true ↔ ∃ value, d = .map value ∧ d.supported t = true := by
  cases d <;> simp [supported]

/-- The part of a supported container is supported. -/
theorem supported_of_container {container : TypeDesc → TypeDesc}
    (hcontainer : container ∈ [TypeDesc.array, .map, .table])
    (h : (container d).supported t = true) : d.supported t = true := by
  simp only [List.mem_cons, List.not_mem_nil, or_false] at hcontainer
  rcases hcontainer with rfl | rfl | rfl
  · exact (isShallow_iff.mp h).supported t
  · exact (isShallow_iff.mp h).supported t
  · obtain ⟨_, _, hd⟩ := supported_table_iff.mp h
    exact hd

/-- A supported type other than the nil type has a symbol, which is supported. -/
theorem exists_symbol_of_supported (h : d.supported t = true) (hnil : d ≠ .nil) :
    ∃ s, d.symbol? = some s ∧ t.supportsSymbol s = true := by
  have hmap {value : TypeDesc} (hvalue : value.isShallow = true) :
      ∃ s, (TypeDesc.map value).symbol? = some s ∧ t.supportsSymbol s = true := by
    obtain ⟨s, hs, hsup⟩ := (isShallow_iff.mp hvalue).exists_symbol t
    exact ⟨.map s, by rw [symbol?, hs, Option.map_some], hsup⟩
  cases d with
  | primitive kind => exact ⟨_, rfl, rfl⟩
  | array element =>
      obtain ⟨s, hs, hsup⟩ := (isShallow_iff.mp h).exists_symbol t
      exact ⟨.array s, by rw [symbol?, hs, Option.map_some], hsup⟩
  | map value => exact hmap h
  | table row =>
      obtain ⟨value, rfl, hvalue⟩ := supported_table_iff.mp h
      obtain ⟨s, hs, hsup⟩ := hmap hvalue
      exact ⟨.table s, by rw [symbol?, hs, Option.map_some], hsup⟩
  | named n => exact ⟨.alias n, rfl, h⟩
  | nil => exact absurd rfl hnil
  | union members => cases h
  | other text => cases h

/-- **Support passes to parts and behind names.** The part of a supported array, map or table is supported. If
a type other than the nil type is supported as it is written, then the symbol of its shape exists and is
supported, and in every table that binds a name to that symbol, and what the first table binds as before, the
name is supported. -/
theorem supported_behind_name (t : SymbolTable) (d : TypeDesc) :
    (∀ container ∈ [TypeDesc.array, .map, .table],
      (container d).supported t = true → d.supported t = true) ∧
    (d.supported t = true → d ≠ .nil → ∃ s, d.symbol? = some s ∧ t.supportsSymbol s = true ∧
      ∀ (u : SymbolTable) (n : String), t.ExtendedBy u → u.resolve n = some s →
        (TypeDesc.named n).supported u = true) := by
  refine ⟨fun _ hcontainer h => supported_of_container hcontainer h, fun h hnil => ?_⟩
  obtain ⟨s, hs, hsup⟩ := exists_symbol_of_supported h hnil
  refine ⟨s, hs, hsup, fun u n hextended hn => ?_⟩
  have hbound : u.Supports (.alias n) :=
    .bound hn (SymbolTable.supportsSymbol_iff_supports.mp (SymbolTable.supportsSymbol_mono hextended hsup))
  exact SymbolTable.supportsSymbol_complete hbound

/-- A table of maps of maps moves behind a name, and so does a name. -/
theorem supported_behind_name_rows :
    let t := SymbolTable.ofList [("Person", .record)]
    let row := TypeDesc.map (.map (.primitive .json))
    (TypeDesc.table row).supported t = true ∧ row.supported t = true ∧
      (TypeDesc.named "Rows").supported (t.insert "Rows" (.table (.map (.map (.primitive .json))))) = true ∧
      (TypeDesc.named "Customer").supported (t.insert "Customer" (.alias "Person")) = true := by
  intro t row
  have htable : (TypeDesc.table row).supported t = true := rfl
  have hperson : (TypeDesc.named "Person").supported t = true := by decide +kernel
  have hnamed {d : TypeDesc} {s : TypeSymbol} (n : String) (hfree : t.resolve n = none)
      (hd : d.supported t = true) (hnil : d ≠ .nil) (hs : d.symbol? = some s) :
      (TypeDesc.named n).supported (t.insert n s) = true := by
    obtain ⟨s', hs', _, hbehind⟩ := (supported_behind_name t d).2 hd hnil
    obtain rfl : s' = s := Option.some.inj (hs'.symm.trans hs)
    refine hbehind _ n (SymbolTable.extendedBy_insert hfree s') ?_
    rw [SymbolTable.resolve_insert, if_pos rfl]
  refine ⟨htable, (supported_behind_name t row).1 .table (by simp) htable, ?_, ?_⟩
  · exact hnamed "Rows" (by decide +kernel) htable TypeDesc.noConfusion rfl
  · exact hnamed "Customer" (by decide +kernel) hperson TypeDesc.noConfusion rfl

end TypeDesc

end FunctionService
