import FunctionService.Compile
import Mathlib.Data.List.Perm.Basic

/-!
# Source order

Diagnostics and functions are sorted by where they start. The sort is stable, so its result is decided by
two things only: what is sorted, and in which order the elements of each place stand (`sortBy_eq_iff`).

That is what makes a sorted list independent of how it was put together. A `Shuffle` is a list put
together from parts that each keep their order. If no two parts have elements at one place, all shuffles
of the parts are sorted into one and the same list (`Shuffle.sortBy_eq`).

Places are ordered by file, line and column, and files by their components. Two places are at one point
of that order exactly if the components of their files, their lines and their columns coincide
(`Location.compareStart_eq_iff`).
-/

namespace FunctionService

/-! ## Stable sorting -/

section Sorting

variable {α : Type} {cmp : α → α → Ordering} {l l' : List α}

/-- A list sorted by a comparison. -/
def sortBy (cmp : α → α → Ordering) (l : List α) : List α :=
  l.mergeSort fun a b => (cmp a b).isLE

theorem sortBy_perm (cmp : α → α → Ordering) (l : List α) : (sortBy cmp l).Perm l :=
  List.mergeSort_perm l _

/-- The elements of a list at the place of an element. -/
def elementsAt (cmp : α → α → Ordering) (a : α) (l : List α) : List α :=
  l.filter fun b => cmp a b = .eq

theorem mem_elementsAt {a b : α} : b ∈ elementsAt cmp a l ↔ b ∈ l ∧ cmp a b = .eq := by
  simp [elementsAt]

theorem elementsAt_cons_of_eq {a b : α} (h : cmp a b = .eq) (l : List α) :
    elementsAt cmp a (b :: l) = b :: elementsAt cmp a l :=
  List.filter_cons_of_pos (by simpa using h)

theorem elementsAt_cons_of_ne {a b : α} (h : cmp a b ≠ .eq) (l : List α) :
    elementsAt cmp a (b :: l) = elementsAt cmp a l :=
  List.filter_cons_of_neg (by simpa using h)

theorem elementsAt_append (a : α) (l l' : List α) :
    elementsAt cmp a (l ++ l') = elementsAt cmp a l ++ elementsAt cmp a l' :=
  List.filter_append ..

theorem mem_of_elementsAt_eq [Std.ReflCmp cmp]
    (heq : ∀ a, elementsAt cmp a l = elementsAt cmp a l') {a : α} (h : a ∈ l) : a ∈ l' := by
  have hat : a ∈ elementsAt cmp a l := mem_elementsAt.mpr ⟨h, Std.ReflCmp.compare_self⟩
  rw [heq a] at hat
  exact (mem_elementsAt.mp hat).1

variable [Std.TransCmp cmp]

theorem isLE_or_isLE (a b : α) : ((cmp a b).isLE || (cmp b a).isLE) = true := by
  have hswap : cmp b a = (cmp a b).swap := Std.OrientedCmp.eq_swap
  rw [hswap]
  cases cmp a b <;> rfl

theorem sortBy_pairwise (l : List α) : (sortBy cmp l).Pairwise fun a b => (cmp a b).isLE :=
  List.pairwise_mergeSort (fun _ _ _ => Std.TransCmp.isLE_trans) isLE_or_isLE l

/-- A sorted part of a list is a part of the sorted list. -/
theorem sublist_sortBy {part : List α} (hsorted : part.Pairwise fun a b => (cmp a b).isLE)
    (hpart : part.Sublist l) : part.Sublist (sortBy cmp l) :=
  List.sublist_mergeSort (fun _ _ _ => Std.TransCmp.isLE_trans) isLE_or_isLE hsorted hpart

theorem elementsAt_pairwise (a : α) (l : List α) :
    (elementsAt cmp a l).Pairwise fun b c => (cmp b c).isLE := by
  refine List.pairwise_of_forall_mem_list fun b hb c hc => ?_
  have hba : cmp b a = .eq := Std.OrientedCmp.eq_symm (mem_elementsAt.mp hb).2
  rw [Std.TransCmp.eq_trans hba (mem_elementsAt.mp hc).2]
  rfl

/-- The sort is stable: it keeps the order of the elements of each place. -/
theorem elementsAt_sortBy (a : α) (l : List α) :
    elementsAt cmp a (sortBy cmp l) = elementsAt cmp a l := by
  have hsub : (elementsAt cmp a l).Sublist (sortBy cmp l) :=
    sublist_sortBy (elementsAt_pairwise a l) List.filter_sublist
  have hat : elementsAt cmp a (elementsAt cmp a l) = elementsAt cmp a l := by
    simp [elementsAt, List.filter_filter]
  have hlength : (elementsAt cmp a l).length = (elementsAt cmp a (sortBy cmp l)).length :=
    ((sortBy_perm cmp l).filter _).length_eq.symm
  have hkept := hsub.filter fun b => decide (cmp a b = .eq)
  exact ((hat ▸ hkept : (elementsAt cmp a l).Sublist _).eq_of_length hlength).symm

/-- A sorted list is decided by its elements at each place. -/
theorem eq_of_elementsAt_eq (h : l.Pairwise fun a b => (cmp a b).isLE)
    (h' : l'.Pairwise fun a b => (cmp a b).isLE)
    (heq : ∀ a, elementsAt cmp a l = elementsAt cmp a l') : l = l' := by
  induction l generalizing l' with
  | nil =>
      refine (List.eq_nil_iff_forall_not_mem.mpr fun b hb => ?_).symm
      exact List.not_mem_nil (mem_of_elementsAt_eq (fun a => (heq a).symm) hb)
  | cons a l ih =>
      cases l' with
      | nil => exact absurd (mem_of_elementsAt_eq heq List.mem_cons_self) List.not_mem_nil
      | cons b l' =>
          -- Each head is the first of its list and an element of the other, so both are at one place.
          have hab : (cmp a b).isLE := by
            rcases List.mem_cons.mp (mem_of_elementsAt_eq (fun c => (heq c).symm) List.mem_cons_self)
              with rfl | hb
            · exact Std.ReflCmp.isLE_rfl
            · exact List.rel_of_pairwise_cons h hb
          have hba : (cmp b a).isLE := by
            rcases List.mem_cons.mp (mem_of_elementsAt_eq heq List.mem_cons_self) with rfl | ha
            · exact Std.ReflCmp.isLE_rfl
            · exact List.rel_of_pairwise_cons h' ha
          have hplace : cmp a b = .eq := Std.OrientedCmp.isLE_antisymm hab hba
          have hheads := heq a
          rw [elementsAt_cons_of_eq Std.ReflCmp.compare_self, elementsAt_cons_of_eq hplace] at hheads
          obtain rfl : a = b := (List.cons.inj hheads).1
          rw [ih h.of_cons h'.of_cons fun c => ?_]
          have hc := heq c
          by_cases hca : cmp c a = .eq
          · rw [elementsAt_cons_of_eq hca, elementsAt_cons_of_eq hca] at hc
            exact (List.cons.inj hc).2
          · rwa [elementsAt_cons_of_ne hca, elementsAt_cons_of_ne hca] at hc

/-- **What a stable sort forgets.** Two lists are sorted into the same list exactly if they have the same
elements in the same order at each place. -/
theorem sortBy_eq_iff :
    sortBy cmp l = sortBy cmp l' ↔ ∀ a, elementsAt cmp a l = elementsAt cmp a l' := by
  constructor
  · intro h a
    rw [← elementsAt_sortBy a l, h, elementsAt_sortBy]
  · intro h
    refine eq_of_elementsAt_eq (sortBy_pairwise l) (sortBy_pairwise l') fun a => ?_
    rw [elementsAt_sortBy, elementsAt_sortBy, h a]

/-- Leaving elements out of a list and sorting it can be done in either order. -/
theorem filter_sortBy (keep : α → Bool) (l : List α) :
    (sortBy cmp l).filter keep = sortBy cmp (l.filter keep) := by
  refine eq_of_elementsAt_eq ((sortBy_pairwise l).filter keep) (sortBy_pairwise _) fun a => ?_
  have hcomm : ∀ xs : List α, elementsAt cmp a (xs.filter keep) = (elementsAt cmp a xs).filter keep := by
    intro xs
    simp only [elementsAt, List.filter_filter, Bool.and_comm]
  rw [elementsAt_sortBy, hcomm, hcomm, elementsAt_sortBy]

/-! ## Shuffles -/

/-- A list put together from parts, each of which keeps its order. -/
structure Shuffle (parts : List (List α)) (l : List α) : Prop where
  perm : l.Perm parts.flatten
  sublist : ∀ part ∈ parts, part.Sublist l

/-- No two of the parts have elements at one place. -/
def Apart (cmp : α → α → Ordering) (parts : List (List α)) : Prop :=
  parts.Pairwise fun part part' => ∀ a ∈ part, ∀ b ∈ part', cmp a b ≠ .eq

/-- Of parts that are apart, the one that has an element at a place has all of them. -/
theorem Apart.elementsAt_flatten {parts : List (List α)} (h : Apart cmp parts) {part : List α}
    (hpart : part ∈ parts) {a : α} (ha : elementsAt cmp a part ≠ []) :
    elementsAt cmp a parts.flatten = elementsAt cmp a part := by
  obtain ⟨b, hb⟩ := List.exists_mem_of_ne_nil _ ha
  obtain ⟨hb, hab⟩ := mem_elementsAt.mp hb
  induction parts with
  | nil => cases hpart
  | cons first rest ih =>
      obtain ⟨hfirst, hrest⟩ := List.pairwise_cons.mp h
      rw [List.flatten_cons, elementsAt_append]
      rcases List.mem_cons.mp hpart with rfl | hmem
      · have hnone : elementsAt cmp a rest.flatten = [] := by
          refine List.eq_nil_iff_forall_not_mem.mpr fun c hc => ?_
          obtain ⟨hc, hac⟩ := mem_elementsAt.mp hc
          obtain ⟨other, hother, hc⟩ := List.mem_flatten.mp hc
          exact hfirst other hother b hb c hc (Std.TransCmp.eq_trans (Std.OrientedCmp.eq_symm hab) hac)
        rw [hnone, List.append_nil]
      · have hnone : elementsAt cmp a first = [] := by
          refine List.eq_nil_iff_forall_not_mem.mpr fun c hc => ?_
          obtain ⟨hc, hac⟩ := mem_elementsAt.mp hc
          exact hfirst part hmem c hc b hb (Std.TransCmp.eq_trans (Std.OrientedCmp.eq_symm hac) hab)
        rw [hnone, List.nil_append, ih hrest hmem]

theorem Shuffle.elementsAt_eq {parts : List (List α)} (hl : Shuffle parts l) (h : Apart cmp parts)
    (a : α) : elementsAt cmp a l = elementsAt cmp a parts.flatten := by
  have hperm : (elementsAt cmp a l).Perm (elementsAt cmp a parts.flatten) := hl.perm.filter _
  by_cases hsome : ∃ part ∈ parts, elementsAt cmp a part ≠ []
  · obtain ⟨part, hpart, ha⟩ := hsome
    rw [h.elementsAt_flatten hpart ha] at hperm ⊢
    have hsub : (elementsAt cmp a part).Sublist (elementsAt cmp a l) := (hl.sublist part hpart).filter _
    exact (hsub.eq_of_length hperm.length_eq.symm).symm
  · have hnone : elementsAt cmp a parts.flatten = [] := by
      refine List.eq_nil_iff_forall_not_mem.mpr fun c hc => hsome ?_
      obtain ⟨hc, hac⟩ := mem_elementsAt.mp hc
      obtain ⟨part, hpart, hc⟩ := List.mem_flatten.mp hc
      exact ⟨part, hpart, List.ne_nil_of_mem (mem_elementsAt.mpr ⟨hc, hac⟩)⟩
    rw [hnone] at hperm ⊢
    exact hperm.eq_nil

/-- All shuffles of parts that are apart are sorted into the same list. -/
theorem Shuffle.sortBy_eq {parts : List (List α)} (hl : Shuffle parts l) (h : Apart cmp parts) :
    sortBy cmp l = sortBy cmp parts.flatten :=
  sortBy_eq_iff.mpr (hl.elementsAt_eq h)

/-- Whatever the other parts do, the elements that a part has at one place stay in their order. -/
theorem Shuffle.elementsAt_sublist {parts : List (List α)} (hl : Shuffle parts l) {part : List α}
    (hpart : part ∈ parts) (a : α) : (elementsAt cmp a part).Sublist (sortBy cmp l) :=
  sublist_sortBy (elementsAt_pairwise a part) (List.filter_sublist.trans (hl.sublist part hpart))

end Sorting

/-! ## The order of places -/

/-- Values are ordered by a part of them as that part is ordered. -/
theorem transCmp_on {α β : Type} (cmp : α → α → Ordering) [Std.TransCmp cmp] (part : β → α) :
    Std.TransCmp fun a b => cmp (part a) (part b) where
  eq_swap := Std.OrientedCmp.eq_swap
  isLE_trans := Std.TransCmp.isLE_trans

namespace Path

theorem Component.compare_eq_compareLex :
    Component.compare = compareLex (compareOn fun c => c.key.1) (compareOn fun c => c.key.2) :=
  rfl

instance : Std.TransCmp Component.compare := by
  rw [Component.compare_eq_compareLex]
  infer_instance

theorem Component.key_injective : Function.Injective Component.key := by
  intro a b h
  cases a <;> cases b <;> simp_all [Component.key]

instance : Std.LawfulEqCmp Component.compare where
  eq_of_compare := by
    intro a b h
    obtain ⟨hclass, htext⟩ := Ordering.then_eq_eq.mp h
    exact Component.key_injective
      (Prod.ext (Std.LawfulEqCmp.eq_of_compare hclass) (Std.LawfulEqCmp.eq_of_compare htext))

theorem compareComponents_eq_compareLex :
    compareComponents = List.compareLex Component.compare := by
  funext as bs
  induction as generalizing bs with
  | nil => cases bs <;> rfl
  | cons a as ih =>
      cases bs with
      | nil => rfl
      | cons b bs => rw [compareComponents, List.compareLex_cons_cons, ih]

instance : Std.TransCmp compareComponents := by
  rw [compareComponents_eq_compareLex]
  infer_instance

instance : Std.LawfulEqCmp compareComponents := by
  rw [compareComponents_eq_compareLex]
  infer_instance

instance : Std.TransCmp Path.compare :=
  transCmp_on compareComponents components

theorem compare_eq_iff {p q : Path} : p.compare q = .eq ↔ p.components = q.components := by
  rw [Path.compare, Std.LawfulEqCmp.compare_eq_iff_eq]

end Path

namespace Location

/-- The files have the same components, and lines and columns of the start coincide. -/
def SameStart (a b : Location) : Prop :=
  a.file.components = b.file.components ∧ a.startLine = b.startLine ∧ a.startCol = b.startCol

instance (a b : Location) : Decidable (a.SameStart b) :=
  inferInstanceAs (Decidable (_ ∧ _))

theorem compareStart_eq_iff {a b : Location} : a.compareStart b = .eq ↔ a.SameStart b := by
  rw [compareStart, Ordering.then_eq_eq, Ordering.then_eq_eq, Path.compare_eq_iff,
    Std.LawfulEqCmp.compare_eq_iff_eq, Std.LawfulEqCmp.compare_eq_iff_eq, SameStart]

theorem compareStart_eq_compareLex :
    compareStart = compareLex (fun a b => a.file.compare b.file)
      (compareLex (compareOn startLine) (compareOn startCol)) :=
  rfl

instance : Std.TransCmp compareStart := by
  have := transCmp_on Path.compare file
  rw [compareStart_eq_compareLex]
  infer_instance

end Location

namespace Diagnostic

theorem compare_eq_compareLex :
    Diagnostic.compare = compareLex (fun a b => a.location.compareStart b.location)
      (compareOn fun d => d.violation.number) :=
  rfl

instance : Std.TransCmp Diagnostic.compare := by
  have := transCmp_on Location.compareStart location
  rw [compare_eq_compareLex]
  infer_instance

theorem sameStart_of_compare_eq {a b : Diagnostic} (h : a.compare b = .eq) :
    a.location.SameStart b.location :=
  Location.compareStart_eq_iff.mp (Ordering.then_eq_eq.mp h).1

theorem sort_eq_sortBy (ds : List Diagnostic) : sort ds = sortBy Diagnostic.compare ds :=
  rfl

end Diagnostic

/-- The order of signatures by where the functions start. -/
def Signature.compareStart (f g : Signature) : Ordering :=
  f.location.compareStart g.location

instance : Std.TransCmp Signature.compareStart :=
  transCmp_on Location.compareStart Signature.location

theorem Signature.elementsAt_compareStart (f : Signature) (fs : List Signature) :
    elementsAt compareStart f fs = fs.filter fun g => f.location.SameStart g.location := by
  simp only [elementsAt, compareStart, Location.compareStart_eq_iff]

theorem Registry.inSourceOrder_eq_sortBy (r : Registry) :
    r.inSourceOrder = sortBy Signature.compareStart r.functions :=
  rfl

end FunctionService
