import FunctionService.Proofs.Rules
import Mathlib.Data.Multiset.Count

/-!
# The report at the end of the count

That the default module has no transformer is reported by the visit that completes the count of its
documents. The counter, the flag and the list of functions are separate cells, so between the access
that completes the count and the access that looks at the flag any other visit may go on.

The argument is in three parts. A `Tally` forgets everything about an interleaving but six quantities,
and `Interleaving.Step.tally` says what a step can do to them. In every visit the registrations stand
before the counted visit (`Guarded`), so when the last visit has been counted no flag is still to be
set. From these two facts follow the invariants: where nothing is to be found the report is made once
the count reaches the total (`Tally.Unfound`), and where something is to be found it is never made
(`Tally.Found`).
-/

namespace FunctionService

/-! ## Tallies -/

namespace Atom

/-- Counts a visited document. -/
def isVisit : Atom → Bool
  | .countVisit _ _ => true
  | _ => false

/-- Sets the flag that something was found. -/
def isMark : Atom → Bool
  | .markFound => true
  | _ => false

/-- Looks at the flag. -/
def isLook : Atom → Bool
  | .lookFound _ => true
  | _ => false

/-- Reports that there is no transformer. -/
def isAlarm : Atom → Bool
  | .report d => d.violation = .noTransformer
  | _ => false

attribute [simp] isVisit isMark isLook isAlarm

/-- How many accesses of a kind there are. -/
def number (kind : Atom → Bool) (xs : Multiset Atom) : Nat :=
  xs.countP fun x => kind x

@[simp] theorem number_cons (kind : Atom → Bool) (x : Atom) (xs : Multiset Atom) :
    number kind (x ::ₘ xs) = number kind xs + (kind x).toNat := by
  rw [number, Multiset.countP_cons]
  cases kind x <;> rfl

theorem eq_markFound {x : Atom} (h : x.isMark = true) : x = .markFound := by
  cases x with
  | markFound => rfl
  | _ => cases h

/-- What follows from an access neither sets the flag nor counts. -/
theorem notMem_step (a : Analysis) {x y : Atom} (hy : y ∈ (x.step a).2) :
    y.isMark = false ∧ y.isVisit = false := by
  cases x with
  | report d => cases hy
  | markFound => cases hy
  | append f => cases hy
  | countVisit total d => rw [(mem_ite_singleton.mp hy).2]; exact ⟨rfl, rfl⟩
  | lookFound d =>
      simp only [step] at hy
      split at hy
      · cases hy
      · rw [List.mem_singleton.mp hy]
        exact ⟨rfl, rfl⟩
  | claim d => rw [(mem_ite_singleton.mp hy).2]; exact ⟨rfl, rfl⟩

theorem markFound_notMem_step (a : Analysis) (x : Atom) : .markFound ∉ (x.step a).2 :=
  fun h => Bool.noConfusion (notMem_step a h).1

theorem countVisit_notMem_step (a : Analysis) (x : Atom) (total : Nat) (d : Diagnostic) :
    .countVisit total d ∉ (x.step a).2 :=
  fun h => Bool.noConfusion (notMem_step a h).2

/-- Whatever sets the flag is followed by a counted visit. -/
def Guarded : List Atom → Prop
  | [] => True
  | x :: rest => (x = .markFound → ∃ y ∈ rest, y.isVisit = true) ∧ Guarded rest

theorem Guarded.append {l rest : List Atom} (hrest : Guarded rest) (hl : .markFound ∉ l) :
    Guarded (l ++ rest) := by
  induction l with
  | nil => exact hrest
  | cons x l ih =>
      have hx : x ≠ .markFound := fun h => hl (h ▸ List.mem_cons_self)
      exact ⟨fun h => absurd h hx, ih fun h => hl (List.mem_cons_of_mem x h)⟩

theorem Guarded.of_notMem {l : List Atom} (hl : .markFound ∉ l) : Guarded l := by
  have h : Guarded (l ++ []) := Guarded.append trivial hl
  rwa [List.append_nil] at h

theorem Guarded.append_visit (l : List Atom) (total : Nat) (d : Diagnostic) :
    Guarded (l ++ [.countVisit total d]) := by
  induction l with
  | nil => exact ⟨fun h => Atom.noConfusion h, trivial⟩
  | cons x l ih =>
      exact ⟨fun _ => ⟨_, List.mem_append_right l (List.mem_singleton_self _), rfl⟩, ih⟩

theorem Guarded.exists_visit {l : List Atom} (h : Guarded l) (hl : .markFound ∈ l) :
    ∃ y ∈ l, y.isVisit = true := by
  induction l with
  | nil => cases hl
  | cons x l ih =>
      rcases List.mem_cons.mp hl with hx | hl
      · obtain ⟨y, hy, hvisit⟩ := h.1 hx.symm
        exact ⟨y, List.mem_cons_of_mem x hy, hvisit⟩
      · obtain ⟨y, hy, hvisit⟩ := ih h.2 hl
        exact ⟨y, List.mem_cons_of_mem x hy, hvisit⟩

end Atom

/-- How often it was reported that there is no transformer. -/
def Analysis.alarms (a : Analysis) : Nat :=
  a.reported.countP fun d => d.violation = .noTransformer

/-- The quantities of an interleaving that decide about the report at the end of the count: the counter
and the flag, how many accesses of the first three kinds are pending, and how many reports are made or
pending. -/
structure Tally where
  visited : Nat
  found : Bool
  visits : Nat
  marks : Nat
  looks : Nat
  alarms : Nat

/-- What one step can do to a tally, if the total to be reached is `N`. -/
inductive Tally.Step (N : Nat) : Tally → Tally → Prop
  | quiet (t : Tally) : Step N t t
  | mark (v : Nat) (f : Bool) (i m l a : Nat) : Step N ⟨v, f, i, m + 1, l, a⟩ ⟨v, true, i, m, l, a⟩
  | visit (v : Nat) (f : Bool) (i m l a : Nat) :
      v + 1 ≠ N → Step N ⟨v, f, i + 1, m, l, a⟩ ⟨v + 1, f, i, m, l, a⟩
  | complete (v : Nat) (f : Bool) (i m l a : Nat) :
      v + 1 = N → Step N ⟨v, f, i + 1, m, l, a⟩ ⟨v + 1, f, i, m, l + 1, a⟩
  | lookFound (v i m l a : Nat) : Step N ⟨v, true, i, m, l + 1, a⟩ ⟨v, true, i, m, l, a⟩
  | lookUnfound (v i m l a : Nat) : Step N ⟨v, false, i, m, l + 1, a⟩ ⟨v, false, i, m, l, a + 1⟩

namespace Interleaving

variable {N : Nat} {s s' : Interleaving}

/-- The quantities of a state and a collection of pending accesses. -/
def tallyOf (a : Analysis) (pending : Multiset Atom) : Tally where
  visited := a.registry.visited
  found := a.registry.foundAny
  visits := Atom.number Atom.isVisit pending
  marks := Atom.number Atom.isMark pending
  looks := Atom.number Atom.isLook pending
  alarms := a.alarms + Atom.number Atom.isAlarm pending

/-- The quantities of an interleaving. -/
def tally (s : Interleaving) : Tally :=
  tallyOf s.analysis s.pending

/-- Every counted visit is counted towards the total `N`. -/
def Totals (N : Nat) (s : Interleaving) : Prop :=
  ∀ total d, Atom.countVisit total d ∈ s.pending → total = N

theorem tallyOf_step {x : Atom} (a : Analysis) (rest : Multiset Atom) (hx : x.IsRegular)
    (htotal : ∀ total d, x = .countVisit total d → total = N) :
    Tally.Step N (tallyOf a (x ::ₘ rest)) (tallyOf (x.step a).1 (↑(x.step a).2 + rest)) := by
  cases x with
  | report d =>
      -- A report moves from the pending ones to the made ones.
      have htally : tallyOf (a.report d) rest = tallyOf a (.report d ::ₘ rest) := by
        by_cases hd : d.violation = .noTransformer <;>
          simp [tallyOf, Analysis.report, Analysis.alarms, hd]
        omega
      simp only [Atom.step, Multiset.coe_nil, zero_add]
      rw [htally]
      exact .quiet _
  | markFound =>
      simpa [tallyOf, Analysis.alarms, Atom.step] using Tally.Step.mark _ _ _ _ _ _
  | append f =>
      simpa [tallyOf, Analysis.alarms, Atom.step] using Tally.Step.quiet _
  | countVisit total d =>
      obtain rfl := htotal total d rfl
      by_cases hc : a.registry.visited + 1 = total
      · simpa [tallyOf, Analysis.alarms, Atom.step, Registry.countVisit, hc] using
          Tally.Step.complete _ _ _ _ _ _ hc
      · simpa [tallyOf, Analysis.alarms, Atom.step, Registry.countVisit, hc] using
          Tally.Step.visit _ _ _ _ _ _ hc
  | lookFound d =>
      -- Only here does a step make a report pending, and only if the flag is not set.
      have hd : d.violation = .noTransformer := hx
      cases hf : a.registry.foundAny with
      | true =>
          simpa [tallyOf, Analysis.alarms, Atom.step, hf] using Tally.Step.lookFound _ _ _ _ _
      | false =>
          simpa [tallyOf, Analysis.alarms, Atom.step, hf, hd, ← Nat.add_assoc] using
            Tally.Step.lookUnfound _ _ _ _ _
  | claim d => exact hx.elim

theorem Step.tally (h : s.Step s') (hreg : s.IsRegular) (htotal : s.Totals N) :
    Tally.Step N s.tally s'.tally := by
  obtain ⟨x, rest, hs, hs', ha⟩ := h.exists_atom
  have hx : x ∈ s.pending := hs ▸ Multiset.mem_cons_self x rest
  rw [Interleaving.tally, Interleaving.tally, hs, hs', ha]
  exact tallyOf_step s.analysis rest (hreg x hx) fun total d he => htotal total d (he ▸ hx)

theorem Step.totals (h : s.Step s') (hs : s.Totals N) : s'.Totals N := by
  obtain ⟨x, rest, hpend, hpend', _⟩ := h.exists_atom
  intro total d hmem
  rw [hpend', Multiset.mem_add] at hmem
  rcases hmem with hmem | hmem
  · exact absurd hmem (Atom.countVisit_notMem_step s.analysis x total d)
  · exact hs total d (hpend ▸ Multiset.mem_cons_of_mem hmem)

/-! ## Registrations stand before the counted visit -/

/-- In every visit, what sets the flag stands before a counted visit. -/
def IsGuarded (s : Interleaving) : Prop :=
  ∀ l ∈ s.threads, Atom.Guarded l

theorem Step.isGuarded (h : s.Step s') (hs : s.IsGuarded) : s'.IsGuarded := by
  obtain ⟨a, x, rest, others⟩ := h
  intro l hl
  rcases Multiset.mem_cons.mp hl with rfl | hl
  · have hrest : Atom.Guarded rest := (hs _ (Multiset.mem_cons_self _ _)).2
    exact hrest.append (Atom.markFound_notMem_step a x)
  · exact hs l (Multiset.mem_cons_of_mem hl)

/-- When every visit has been counted, no flag is still to be set. -/
theorem IsGuarded.marks_eq_zero (h : s.IsGuarded) (hvisits : s.tally.visits = 0) :
    s.tally.marks = 0 := by
  refine Multiset.countP_eq_zero.mpr fun x hx hmark => ?_
  obtain ⟨l, hl, hxl⟩ := Multiset.mem_bind.mp hx
  obtain ⟨y, hy, hvisit⟩ := (h l hl).exists_visit (Atom.eq_markFound hmark ▸ hxl)
  exact Multiset.countP_eq_zero.mp hvisits y (Multiset.mem_bind.mpr ⟨l, hl, hy⟩) hvisit

/-! ## The invariants -/

/-- What holds throughout a run in which `K` visits are counted towards the total `N`. -/
structure Counting (N K : Nat) (s : Interleaving) : Prop where
  regular : s.IsRegular
  totals : s.Totals N
  guarded : s.IsGuarded
  balance : s.tally.visited + s.tally.visits = K

end Interleaving

namespace Tally

variable {N : Nat} {t t' : Tally}

theorem Step.balance (h : Step N t t') : t'.visited + t'.visits = t.visited + t.visits := by
  cases h <;> simp only <;> omega

/-- Nothing is to be found. The report is made, or on its way, as soon as the count is complete. -/
structure Unfound (N : Nat) (t : Tally) : Prop where
  found : t.found = false
  marks : t.marks = 0
  alarms : t.alarms + t.looks = if 0 < N ∧ N ≤ t.visited then 1 else 0

/-- Something is to be found. Nobody looks at the flag before it is set. -/
structure Found (t : Tally) : Prop where
  marks : t.found = true ∨ 0 < t.marks
  looks : 0 < t.looks → t.found = true
  alarms : t.alarms = 0

theorem Unfound.step (h : Step N t t') (hle : t.visited + t.visits ≤ N) (ht : Unfound N t) :
    Unfound N t' := by
  obtain ⟨hfound, hmarks, halarms⟩ := ht
  cases h with
  | quiet t => exact ⟨hfound, hmarks, halarms⟩
  | mark v f i m l a => cases hmarks
  | visit v f i m l a hne =>
      simp only at hle halarms
      have hbefore : ¬ (0 < N ∧ N ≤ v) := by omega
      have hafter : ¬ (0 < N ∧ N ≤ v + 1) := by omega
      rw [if_neg hbefore] at halarms
      exact ⟨hfound, hmarks, by rw [if_neg hafter]; exact halarms⟩
  | complete v f i m l a heq =>
      simp only at hle halarms
      have hbefore : ¬ (0 < N ∧ N ≤ v) := by omega
      have hafter : 0 < N ∧ N ≤ v + 1 := by omega
      rw [if_neg hbefore] at halarms
      refine ⟨hfound, hmarks, ?_⟩
      show a + (l + 1) = _
      rw [if_pos hafter]
      omega
  | lookFound v i m l a => cases hfound
  | lookUnfound v i m l a =>
      refine ⟨rfl, hmarks, ?_⟩
      show a + 1 + l = _
      rw [← halarms]
      show a + 1 + l = a + (l + 1)
      omega

theorem Found.step (h : Step N t t') (hle : t.visited + t.visits ≤ N)
    (hguard : t'.visits = 0 → t'.marks = 0) (ht : Found t) : Found t' := by
  obtain ⟨hmarks, hlooks, halarms⟩ := ht
  cases h with
  | quiet t => exact ⟨hmarks, hlooks, halarms⟩
  | mark v f i m l a => exact ⟨Or.inl rfl, fun _ => rfl, halarms⟩
  | visit v f i m l a hne => exact ⟨hmarks, hlooks, halarms⟩
  | complete v f i m l a heq =>
      -- The last visit has been counted, so every flag has been set.
      simp only at hle hguard hmarks
      have hmarks0 : m = 0 := hguard (by omega)
      have hfound : f = true := hmarks.resolve_right (by omega)
      exact ⟨hmarks, fun _ => hfound, halarms⟩
  | lookFound v i m l a => exact ⟨Or.inl rfl, fun _ => rfl, halarms⟩
  | lookUnfound v i m l a => cases hlooks (Nat.succ_pos l)

end Tally

namespace Interleaving

variable {N K : Nat} {s s' : Interleaving}

theorem Counting.step (h : s.Step s') (hs : s.Counting N K) : s'.Counting N K where
  regular := h.isRegular hs.regular
  totals := h.totals hs.totals
  guarded := h.isGuarded hs.guarded
  balance := (h.tally hs.regular hs.totals).balance.trans hs.balance

theorem Counting.unfound (h : s.Reaches s') (hs : s.Counting N K) (hle : K ≤ N)
    (hunfound : s.tally.Unfound N) : s'.Counting N K ∧ s'.tally.Unfound N := by
  refine Reaches.invariant (P := fun u => u.Counting N K ∧ u.tally.Unfound N) ?_ h ⟨hs, hunfound⟩
  rintro u u' hstep ⟨hu, hunfound⟩
  have hbalance : u.tally.visited + u.tally.visits ≤ N := hu.balance.trans_le hle
  exact ⟨hu.step hstep, hunfound.step (hstep.tally hu.regular hu.totals) hbalance⟩

theorem Counting.found (h : s.Reaches s') (hs : s.Counting N K) (hle : K ≤ N)
    (hfound : s.tally.Found) : s'.tally.Found := by
  have hinv := Reaches.invariant (P := fun u => u.Counting N K ∧ u.tally.Found) ?_ h ⟨hs, hfound⟩
  · exact hinv.2
  · rintro u u' hstep ⟨hu, hfound⟩
    have hu' : u'.Counting N K := hu.step hstep
    have hbalance : u.tally.visited + u.tally.visits ≤ N := hu.balance.trans_le hle
    exact ⟨hu', hfound.step (hstep.tally hu.regular hu.totals) hbalance hu'.guarded.marks_eq_zero⟩

end Interleaving

/-! ## How a run starts -/

namespace Module

variable {m : Module} {d : Document}

/-- The number of source documents that are visited and counted. -/
def countedDocuments (m : Module) : Nat :=
  m.documents.countP fun d => !m.isTest d.id

/-- The module has documents, none of them is hidden by a test document, and none declares a
transformer. -/
structure ExposesNothing (m : Module) : Prop where
  nonempty : m.documents ≠ []
  unhidden : ∀ d ∈ m.documents, ∀ e ∈ m.testDocuments, e.id ≠ d.id
  untransformed : ∀ d ∈ m.documents, ∀ f, .function f ∈ d.members → ¬ f.IsTransformer

theorem isTest_of_mem (h : d ∈ m.testDocuments) : m.isTest d.id = true :=
  isTest_iff.mpr (List.mem_map_of_mem h)

theorem isTest_eq_false_iff : m.isTest d.id = false ↔ ∀ e ∈ m.testDocuments, e.id ≠ d.id := by
  simp [isTest]

theorem countP_allDocuments (m : Module) :
    (m.allDocuments.countP fun d => !m.isTest d.id) = m.countedDocuments := by
  have htests : (m.testDocuments.countP fun d => !m.isTest d.id) = 0 := by
    rw [List.countP_eq_zero]
    intro d hd
    rw [isTest_of_mem hd]
    exact Bool.false_ne_true
  rw [allDocuments, List.countP_append, htests, Nat.add_zero, countedDocuments]

theorem countedDocuments_le (m : Module) : m.countedDocuments ≤ m.documents.length :=
  List.countP_le_length

theorem length_le_countedDocuments_iff :
    m.documents.length ≤ m.countedDocuments ↔
      ∀ d ∈ m.documents, ∀ e ∈ m.testDocuments, e.id ≠ d.id := by
  have hiff := List.countP_eq_length (p := fun d => !m.isTest d.id) (l := m.documents)
  simp only [Bool.not_eq_true', isTest_eq_false_iff] at hiff
  rw [← hiff]
  have hle := m.countedDocuments_le
  unfold countedDocuments at hle ⊢
  omega

end Module

theorem Member.transformer?_eq_some {x : Member} {f : Signature} :
    x.transformer? = some f ↔ ∃ g, x = .function g ∧ g.IsTransformer ∧ g.signature = f := by
  cases x <;> simp [transformer?]

namespace Package

variable {p : Package} {m : Module}

/-- The units of the only default module. -/
theorem units_filter_isDefault (hone : p.defaultModuleCount = 1) (hm : p.defaultModule? = some m) :
    p.units.filter (fun u => u.1.isDefault) = m.allDocuments.map fun d => (m, d) := by
  have hmodules : p.modules.filter (·.isDefault) = [m] := by
    obtain ⟨m', hm'⟩ := List.length_eq_one_iff.mp hone
    rw [defaultModule?, ← List.head?_filter, hm'] at hm
    rw [hm', Option.some.inj hm]
  have hfilter : ∀ ms : List Module,
      (ms.flatMap fun m => m.allDocuments.map fun d => (m, d)).filter (fun u => u.1.isDefault) =
        (ms.filter (·.isDefault)).flatMap fun m => m.allDocuments.map fun d => (m, d) := by
    intro ms
    induction ms with
    | nil => rfl
    | cons m ms ih =>
        rw [List.flatMap_cons, List.filter_append, ih, List.filter_cons, List.filter_map]
        cases hd : m.isDefault <;> simp [Function.comp_def, hd]
  rw [units, hfilter, hmodules, List.flatMap_cons, List.flatMap_nil, List.append_nil]

theorem mem_units_isDefault (hone : p.defaultModuleCount = 1) (hm : p.defaultModule? = some m)
    {u : Module × Document} :
    u ∈ p.units ∧ u.1.isDefault = true ↔ ∃ d ∈ m.allDocuments, (m, d) = u := by
  rw [← List.mem_map, ← units_filter_isDefault hone hm, List.mem_filter]

theorem guarded_visitAtoms (h : p.hasCompilationErrors = false) (u : Module × Document) :
    Atom.Guarded (p.visitAtoms u) := by
  rw [visitAtoms_eq h]
  split
  · trivial
  · cases hd : u.1.isDefault with
    | true => exact Atom.Guarded.append_visit _ _ _
    | false =>
        refine Atom.Guarded.of_notMem fun hmark => ?_
        rw [if_neg Bool.false_ne_true, List.append_nil, List.mem_flatMap] at hmark
        obtain ⟨x, _, hx⟩ := hmark
        rcases Member.mem_atoms_iff.mp hx with ⟨v, _, hv⟩ | ⟨hfalse, _⟩
        · cases hv
        · cases hfalse

theorem countP_isVisit_visitAtoms (h : p.hasCompilationErrors = false) (u : Module × Document) :
    (p.visitAtoms u).countP Atom.isVisit =
      if (!u.1.isTest u.2.id && u.1.isDefault) = true then 1 else 0 := by
  have hmembers : (u.2.members.flatMap fun x =>
      (x.actions p.symbols u.1.isDefault).flatMap Action.atoms).countP Atom.isVisit = 0 := by
    rw [List.countP_eq_zero]
    intro y hy
    obtain ⟨x, _, hx⟩ := List.mem_flatMap.mp hy
    rcases Member.mem_atoms_iff.mp hx with ⟨v, _, rfl⟩ | ⟨_, f, _, rfl | rfl⟩ <;>
      exact Bool.false_ne_true
  rw [visitAtoms_eq h]
  cases u.1.isTest u.2.id with
  | true => rfl
  | false =>
      rw [if_neg Bool.false_ne_true, List.countP_append, hmembers]
      cases u.1.isDefault <;> rfl

/-- Where every element yields one that counts or none, the elements that do are counted. -/
theorem countP_flatMap_of_forall {α β : Type} {f : α → List β} {kind : β → Bool} {c : α → Bool}
    (h : ∀ x, (f x).countP kind = if c x = true then 1 else 0) (xs : List α) :
    (xs.flatMap f).countP kind = xs.countP c := by
  induction xs with
  | nil => rfl
  | cons x xs ih => rw [List.flatMap_cons, List.countP_append, ih, h, List.countP_cons, Nat.add_comm]

/-- A run starts with a counted visit for every visible source document of the default module. -/
theorem start_visits (h : p.hasCompilationErrors = false) (hone : p.defaultModuleCount = 1)
    (hm : p.defaultModule? = some m) : p.start.tally.visits = m.countedDocuments := by
  have hsum : (p.units.flatMap p.visitAtoms).countP Atom.isVisit =
      p.units.countP fun u => !u.1.isTest u.2.id && u.1.isDefault :=
    countP_flatMap_of_forall (countP_isVisit_visitAtoms h) p.units
  calc p.start.tally.visits
      = (p.units.flatMap p.visitAtoms).countP Atom.isVisit := by
        show Atom.number Atom.isVisit p.start.pending = _
        rw [Interleaving.start_pending, Atom.number, Multiset.coe_countP]
        simp only [Bool.decide_eq_true]
    _ = (p.units.filter fun u => u.1.isDefault).countP fun u => !u.1.isTest u.2.id := by
        rw [hsum, List.countP_filter]
    _ = m.allDocuments.countP fun d => !m.isTest d.id := by
        rw [units_filter_isDefault hone hm, List.countP_map]
        rfl
    _ = m.countedDocuments := m.countP_allDocuments

/-- Every visit of a unit of the only default module is counted towards the number of its documents. -/
theorem total_eq_of_mem_visitAtoms (h : p.hasCompilationErrors = false)
    (hone : p.defaultModuleCount = 1) (hm : p.defaultModule? = some m) {u : Module × Document}
    (hu : u ∈ p.units) {total : Nat} {d : Diagnostic} (hmem : .countVisit total d ∈ p.visitAtoms u) :
    total = m.documents.length := by
  rcases ((mem_visitAtoms_iff h).mp hmem).2 with ⟨x, _, hx⟩ | ⟨hd, heq⟩
  · rcases Member.mem_atoms_iff.mp hx with ⟨v, _, hv⟩ | ⟨_, f, _, hv | hv⟩ <;> cases hv
  · obtain ⟨e, _, rfl⟩ := (mem_units_isDefault hone hm).mp ⟨hu, hd⟩
    exact (Atom.countVisit.inj heq).1

theorem start_counting (h : p.hasCompilationErrors = false) (hone : p.defaultModuleCount = 1)
    (hm : p.defaultModule? = some m) :
    p.start.Counting m.documents.length m.countedDocuments where
  regular := Interleaving.start_isRegular h
  totals := by
    intro total d hmem
    obtain ⟨u, hu, hmem⟩ := Interleaving.mem_start_pending.mp hmem
    exact total_eq_of_mem_visitAtoms h hone hm hu hmem
  guarded := by
    intro l hl
    obtain ⟨u, _, rfl⟩ := List.mem_map.mp (Multiset.mem_coe.mp hl)
    exact guarded_visitAtoms h u
  balance := by
    rw [start_visits h hone hm]
    exact Nat.zero_add _

/-- No visit starts out to look at the flag or to report that there is no transformer. -/
theorem not_isLook_isAlarm_of_mem_visitAtoms (h : p.hasCompilationErrors = false)
    {u : Module × Document} {y : Atom} (hy : y ∈ p.visitAtoms u) :
    ¬ y.isLook = true ∧ ¬ y.isAlarm = true := by
  rcases ((mem_visitAtoms_iff h).mp hy).2 with ⟨x, _, hx⟩ | ⟨_, rfl⟩
  · rcases Member.mem_atoms_iff.mp hx with ⟨v, hv, rfl⟩ | ⟨_, f, _, rfl | rfl⟩
    · exact ⟨Bool.false_ne_true, by simpa [Atom.isAlarm] using hv.ne_noTransformer⟩
    · exact ⟨Bool.false_ne_true, Bool.false_ne_true⟩
    · exact ⟨Bool.false_ne_true, Bool.false_ne_true⟩
  · exact ⟨Bool.false_ne_true, Bool.false_ne_true⟩

/-- Visits start with nobody looking at the flag and no report that there is no transformer to be
made. -/
theorem visiting_looks_alarms (h : p.hasCompilationErrors = false) (a : Analysis)
    (us : List (Module × Document)) :
    (p.visiting a us).tally.looks = 0 ∧ (p.visiting a us).tally.alarms = a.alarms := by
  have hkind : ∀ y ∈ (p.visiting a us).pending, ¬ y.isLook = true ∧ ¬ y.isAlarm = true := by
    intro y hy
    obtain ⟨u, _, hy⟩ := Interleaving.mem_visiting_pending.mp hy
    exact not_isLook_isAlarm_of_mem_visitAtoms h hy
  refine ⟨Multiset.countP_eq_zero.mpr fun y hy => (hkind y hy).1, ?_⟩
  have halarms : Atom.number Atom.isAlarm (p.visiting a us).pending = 0 :=
    Multiset.countP_eq_zero.mpr fun y hy => (hkind y hy).2
  show a.alarms + Atom.number Atom.isAlarm (p.visiting a us).pending = a.alarms
  rw [halarms, Nat.add_zero]

/-- A run starts with nobody looking at the flag and no report that there is no transformer. -/
theorem start_looks_alarms (h : p.hasCompilationErrors = false) :
    p.start.tally.looks = 0 ∧ p.start.tally.alarms = 0 :=
  visiting_looks_alarms h {} p.units

/-- A run starts with a flag to be set exactly if a visible source document of the default module
declares a transformer. -/
theorem start_marks_pos_iff (h : p.hasCompilationErrors = false) (hone : p.defaultModuleCount = 1)
    (hm : p.defaultModule? = some m) :
    0 < p.start.tally.marks ↔
      ∃ d ∈ m.documents, m.isTest d.id = false ∧
        ∃ f, .function f ∈ d.members ∧ f.IsTransformer := by
  have hmark : 0 < p.start.tally.marks ↔ ∃ u ∈ p.units, .markFound ∈ p.visitAtoms u := by
    rw [← Interleaving.mem_start_pending]
    refine Multiset.countP_pos.trans ⟨?_, fun hmem => ⟨_, hmem, rfl⟩⟩
    rintro ⟨x, hx, hkind⟩
    exact Atom.eq_markFound hkind ▸ hx
  rw [hmark]
  constructor
  · rintro ⟨u, hu, hmem⟩
    obtain ⟨hvisible, ⟨x, hx, hmem⟩ | ⟨_, heq⟩⟩ := (mem_visitAtoms_iff h).mp hmem
    · rcases Member.mem_atoms_iff.mp hmem with ⟨v, _, hv⟩ | ⟨hd, f, hf, _⟩
      · cases hv
      · obtain ⟨d, hdoc, rfl⟩ := (mem_units_isDefault hone hm).mp ⟨hu, hd⟩
        obtain ⟨g, rfl, hg, _⟩ := Member.transformer?_eq_some.mp hf
        rcases List.mem_append.mp hdoc with hdoc | hdoc
        · exact ⟨d, hdoc, hvisible, g, hx, hg⟩
        · rw [Module.isTest_of_mem hdoc] at hvisible
          cases hvisible
    · cases heq
  · rintro ⟨d, hdoc, hvisible, f, hf, htransformer⟩
    have hunit := (mem_units_isDefault hone hm).mpr ⟨d, List.mem_append_left _ hdoc, rfl⟩
    refine ⟨(m, d), hunit.1, (mem_visitAtoms_iff h).mpr ⟨hvisible, Or.inl ⟨_, hf, ?_⟩⟩⟩
    have hsome := Member.transformer?_eq_some.mpr ⟨f, rfl, htransformer, rfl⟩
    exact Member.mem_atoms_iff.mpr (Or.inr ⟨hunit.2, _, hsome, Or.inl rfl⟩)

end Package

/-! ## The report is exact -/

namespace Interleaving

variable {p : Package} {m : Module} {s : Interleaving}

theorem IsDone.tally_eq (h : s.IsDone) : s.tally.visits = 0 ∧ s.tally.looks = 0 ∧
    s.tally.alarms = s.analysis.alarms := by
  unfold tally
  rw [h.pending_eq]
  exact ⟨rfl, rfl, Nat.add_zero _⟩

/-- If a visible source document declares a transformer, no run reports that there is none. -/
theorem alarms_of_transformer (h : p.hasCompilationErrors = false) (hone : p.defaultModuleCount = 1)
    (hm : p.defaultModule? = some m) (hrun : p.start.Reaches s) (hdone : s.IsDone)
    (hmarks : 0 < p.start.tally.marks) : s.analysis.alarms = 0 := by
  obtain ⟨hlooks, halarms⟩ := Package.start_looks_alarms h
  have hstart : p.start.tally.Found := ⟨Or.inr hmarks, fun h => by omega, halarms⟩
  have hend := (Package.start_counting h hone hm).found hrun m.countedDocuments_le hstart
  rw [← hdone.tally_eq.2.2, hend.alarms]

/-- If no visible source document declares a transformer, a finished run has reported so exactly if all
source documents are visible and there is one. -/
theorem alarms_of_no_transformer (h : p.hasCompilationErrors = false)
    (hone : p.defaultModuleCount = 1) (hm : p.defaultModule? = some m) (hrun : p.start.Reaches s)
    (hdone : s.IsDone) (hmarks : p.start.tally.marks = 0) :
    s.analysis.alarms =
      if 0 < m.documents.length ∧ m.documents.length ≤ m.countedDocuments then 1 else 0 := by
  obtain ⟨hlooks, halarms⟩ := Package.start_looks_alarms h
  have hzero : p.start.tally.visited = 0 := rfl
  have hstart : p.start.tally.Unfound m.documents.length := by
    refine ⟨rfl, hmarks, ?_⟩
    rw [hlooks, halarms, hzero, if_neg (by omega)]
  obtain ⟨hcount, hend⟩ :=
    (Package.start_counting h hone hm).unfound hrun m.countedDocuments_le hstart
  obtain ⟨hvisits, hlooks', halarms'⟩ := hdone.tally_eq
  have hvisited : s.tally.visited = m.countedDocuments := by
    have hbalance := hcount.balance
    omega
  have hreport := hend.alarms
  rw [hlooks', halarms', hvisited] at hreport
  exact hreport

/-- **The report at the end of the count is exact.** In a package without compilation errors and with
one default module, every finished run, however the visits are interleaved, reports exactly once that
there is no transformer if the default module exposes nothing, and never otherwise. -/
theorem noTransformer_exact (h : p.hasCompilationErrors = false) (hone : p.defaultModuleCount = 1)
    (hm : p.defaultModule? = some m) (hrun : p.start.Reaches s) (hdone : s.IsDone) :
    (m.ExposesNothing →
      (s.analysis.reported.countP fun d => d.violation = .noTransformer) = 1) ∧
    (¬ m.ExposesNothing →
      (s.analysis.reported.countP fun d => d.violation = .noTransformer) = 0) := by
  show (m.ExposesNothing → s.analysis.alarms = 1) ∧ (¬ m.ExposesNothing → s.analysis.alarms = 0)
  have hmarks := Package.start_marks_pos_iff h hone hm
  by_cases hpos : 0 < p.start.tally.marks
  · obtain ⟨d, hd, _, f, hf, htransformer⟩ := hmarks.mp hpos
    refine ⟨fun hnothing => ?_, fun _ => alarms_of_transformer h hone hm hrun hdone hpos⟩
    exact absurd htransformer (hnothing.untransformed d hd f hf)
  · rw [alarms_of_no_transformer h hone hm hrun hdone (by omega)]
    constructor
    · intro hnothing
      have hlength : 0 < m.documents.length := List.length_pos_iff.mpr hnothing.nonempty
      rw [if_pos ⟨hlength, Module.length_le_countedDocuments_iff.mpr hnothing.unhidden⟩]
    · intro hsomething
      refine if_neg fun ⟨hlength, hall⟩ => hsomething ?_
      have hunhidden := Module.length_le_countedDocuments_iff.mp hall
      refine ⟨List.length_pos_iff.mp hlength, hunhidden, fun d hd f hf htransformer => ?_⟩
      exact hpos (hmarks.mpr
        ⟨d, hd, Module.isTest_eq_false_iff.mpr (hunhidden d hd), f, hf, htransformer⟩)

theorem noTransformer_exact_sample :
    let p := Package.sample [Package.sampleMain]
    let m := Package.sampleModule [Package.sampleMain]
    p.hasCompilationErrors = false ∧ p.defaultModuleCount = 1 ∧ p.defaultModule? = some m ∧
      m.ExposesNothing ∧ ∃ s, p.start.Reaches s ∧ s.IsDone ∧
        (s.analysis.reported.countP fun d => d.violation = .noTransformer) = 1 := by
  intro p m
  have hnothing : m.ExposesNothing := by
    refine ⟨List.cons_ne_nil _ _, by decide, fun d hd f hf htransformer => ?_⟩
    obtain rfl := List.mem_singleton.mp hd
    cases List.mem_singleton.mp hf
    obtain ⟨_, _, value, hbody⟩ := htransformer
    cases hbody
  obtain ⟨s, hrun, hdone, _⟩ := reaches_visitAll p p.units.reverse_perm
  exact ⟨rfl, rfl, rfl, hnothing, s, hrun, hdone,
    (noTransformer_exact rfl rfl rfl hrun hdone).1 hnothing⟩

end Interleaving

end FunctionService
