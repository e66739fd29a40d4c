import FunctionService.Proofs.SourceOrder
import Mathlib.Data.String.Basic

/-!
# Reports and functions in source order

Diagnostics are sorted by the file, the line and the column of their start and by the number of the
rule, functions by the first three of these. `IsStableSort` says what a stable sort is, by the relations
"comes before" and "has the same key", and these are spelled out here apart from the comparisons that
the sorts use.

Files come in the order of their components, at the first difference or by being shorter. That order is
total and transitive, and it does not tell two spellings of one path apart. So the spelling of a file has
no influence on where anything that stands in it is sorted to (`sortsBySource_exact`).
-/

namespace FunctionService

/-! ## The order of paths -/

namespace Path

/-- Root, leading `.`, `..` and names come in this order, names in the order of their texts. -/
def Component.Before (a b : Component) : Prop :=
  Prod.Lex (· < ·) (· < ·) a.key b.key

/-- Where two paths first differ, the component of the one comes before that of the other, or the one
has ended. -/
def Before (p q : Path) : Prop :=
  List.Lex Component.Before p.components q.components

/-- A path comes before another or has the same components. -/
def NoLater (p q : Path) : Prop :=
  p.Before q ∨ p.components = q.components

theorem Component.compare_eq_lt_iff {a b : Component} : a.compare b = .lt ↔ a.Before b := by
  rw [Component.compare, Ordering.then_eq_lt, Nat.compare_eq_lt, Nat.compare_eq_eq,
    compare_lt_iff_lt, Component.Before, Prod.lex_def]

theorem compareComponents_eq_lt_iff {as bs : List Component} :
    compareComponents as bs = .lt ↔ List.Lex Component.Before as bs := by
  induction as generalizing bs with
  | nil =>
      cases bs with
      | nil => simp [compareComponents]
      | cons b bs => simp [compareComponents]
  | cons a as ih =>
      cases bs with
      | nil => simp [compareComponents]
      | cons b bs =>
          rw [compareComponents, Ordering.then_eq_lt, Component.compare_eq_lt_iff,
            Std.LawfulEqCmp.compare_eq_iff_eq, ih, List.cons_lex_cons_iff]

theorem compare_eq_lt_iff {p q : Path} : p.compare q = .lt ↔ p.Before q :=
  compareComponents_eq_lt_iff

theorem noLater_iff {p q : Path} : p.NoLater q ↔ (p.compare q).isLE = true := by
  rw [NoLater, ← compare_eq_lt_iff, ← compare_eq_iff, Ordering.isLE_iff_eq_lt_or_eq_eq]

/-- The order of paths: total, transitive, shorter paths first, and blind to spelling alone. -/
structure OrderedByComponents : Prop where
  total : ∀ p q : Path, p.NoLater q ∨ q.NoLater p
  trans : ∀ p q r : Path, p.NoLater q → q.NoLater r → p.NoLater r
  shorter : ∀ p q : Path, p.components <+: q.components → p.components ≠ q.components → p.Before q
  equivalent : ∀ p q : Path, p.NoLater q ∧ q.NoLater p ↔ p.components = q.components

theorem lex_append {as bs : List Component} (h : bs ≠ []) : List.Lex Component.Before as (as ++ bs) := by
  induction as with
  | nil =>
      cases bs with
      | nil => exact absurd rfl h
      | cons b bs => exact .nil
  | cons a as ih => exact .cons ih

theorem orderedByComponents : OrderedByComponents where
  total p q := by
    rw [noLater_iff, noLater_iff, ← Bool.or_eq_true_iff]
    exact isLE_or_isLE p q
  trans p q r hpq hqr := by
    rw [noLater_iff] at hpq hqr ⊢
    exact Std.TransCmp.isLE_trans hpq hqr
  shorter p q hprefix hne := by
    obtain ⟨rest, hrest⟩ := hprefix
    rw [Before, ← hrest]
    refine lex_append fun hnil => hne ?_
    rw [← hrest, hnil, List.append_nil]
  equivalent p q := by
    rw [← compare_eq_iff, noLater_iff, noLater_iff]
    constructor
    · rintro ⟨hpq, hqp⟩
      exact Std.OrientedCmp.isLE_antisymm hpq hqp
    · intro heq
      rw [heq, Std.OrientedCmp.eq_symm heq]
      exact ⟨rfl, rfl⟩

/-! ## Spellings of a path -/

theorem segmentsOf_ne_nil (cs : List Char) : segmentsOf cs ≠ [] := by
  cases cs with
  | nil => simp [segmentsOf]
  | cons c cs =>
      rw [segmentsOf]
      split
      · simp
      · split <;> simp

/-- A slash divides the segments of what is in front of it from those of what is behind it. -/
theorem segmentsOf_append (cs ds : List Char) :
    segmentsOf (cs ++ '/' :: ds) = segmentsOf cs ++ segmentsOf ds := by
  induction cs with
  | nil => rfl
  | cons c cs ih =>
      rw [List.cons_append, segmentsOf, segmentsOf, ih]
      split
      · rfl
      · cases hsegments : segmentsOf cs with
        | nil => exact absurd hsegments (segmentsOf_ne_nil cs)
        | cons segment segments => rfl

/-- The steps that a text contributes to the components of a path, when it stands behind a slash. -/
def stepsOf (cs : List Char) : List Component :=
  ((segmentsOf cs).map String.ofList).filterMap component?

/-- What follows the first slash of a path matters by its steps only. -/
theorem components_eq_of_stepsOf_eq {front back back' : String}
    (h : stepsOf back.toList = stepsOf back'.toList) :
    (Path.mk (front ++ "/" ++ back)).components = (Path.mk (front ++ "/" ++ back')).components := by
  have hsegments : ∀ back : String, (Path.mk (front ++ "/" ++ back)).segments =
      (segmentsOf front.toList).map String.ofList ++ (segmentsOf back.toList).map String.ofList := by
    intro back
    simp [segments, segmentsOf_append]
  have hne : (segmentsOf front.toList).map String.ofList ≠ [] := by
    simpa using segmentsOf_ne_nil front.toList
  have habsolute : (Path.mk (front ++ "/" ++ back)).isAbsolute =
      (Path.mk (front ++ "/" ++ back')).isAbsolute := by
    simp only [isAbsolute, String.toList_append, List.append_assoc]
    cases front.toList <;> rfl
  simp only [components, habsolute, hsegments, List.filterMap_append,
    List.head?_append_of_ne_nil _ hne]
  simp only [stepsOf] at h
  rw [h]

/-- Doubled slashes, `.` between slashes and a slash at the end are spellings of one path. -/
theorem components_respelled (a b : String) :
    (Path.mk (a ++ "//" ++ b)).components = (Path.mk (a ++ "/" ++ b)).components ∧
    (Path.mk (a ++ "/./" ++ b)).components = (Path.mk (a ++ "/" ++ b)).components ∧
    (Path.mk (a ++ "/" ++ b ++ "/")).components = (Path.mk (a ++ "/" ++ b)).components := by
  have hdouble : a ++ "//" ++ b = a ++ "/" ++ ("/" ++ b) := by simp [← String.toList_inj]
  have hdot : a ++ "/./" ++ b = a ++ "/" ++ ("./" ++ b) := by simp [← String.toList_inj]
  have hend : a ++ "/" ++ b ++ "/" = a ++ "/" ++ (b ++ "/") := String.append_assoc
  rw [hdouble, hdot, hend]
  refine ⟨components_eq_of_stepsOf_eq ?_, components_eq_of_stepsOf_eq ?_,
    components_eq_of_stepsOf_eq ?_⟩
  · simp [stepsOf, segmentsOf, component?]
  · simp [stepsOf, segmentsOf, component?]
  · simp [stepsOf, segmentsOf_append, segmentsOf, component?]

end Path

/-! ## Stable sorts -/

section Sorting

variable {α : Type}

/-- The second list is the first one, sorted: the same elements, each before or at the key of those
behind it, and those of one key in their old order. -/
structure IsStableSort (before same : α → α → Prop) [DecidableRel same] (l sorted : List α) : Prop where
  perm : sorted.Perm l
  ordered : sorted.Pairwise fun a b => before a b ∨ same a b
  stable : ∀ a, (sorted.filter fun b => same a b) = l.filter fun b => same a b

theorem isStableSort_sortBy {cmp : α → α → Ordering} [Std.TransCmp cmp] {before same : α → α → Prop}
    [DecidableRel same] (hbefore : ∀ a b, cmp a b = .lt ↔ before a b)
    (hsame : ∀ a b, cmp a b = .eq ↔ same a b) (l : List α) :
    IsStableSort before same l (sortBy cmp l) where
  perm := sortBy_perm cmp l
  ordered := by
    refine (sortBy_pairwise l).imp fun {a b} hle => ?_
    rwa [← hbefore, ← hsame, ← Ordering.isLE_iff_eq_lt_or_eq_eq]
  stable a := by
    have hat : ∀ xs : List α, elementsAt cmp a xs = xs.filter fun b => same a b := fun xs => by
      simp only [elementsAt, hsame]
    rw [← hat, ← hat]
    exact elementsAt_sortBy a l

/-- Two lists made from one list, by functions that do not differ in how they compare, are sorted by the
same moves. -/
theorem exists_sortBy_map {β : Type} {cmp : β → β → Ordering} {f g : α → β} {l : List α}
    (h : ∀ a ∈ l, ∀ b ∈ l, cmp (f a) (f b) = cmp (g a) (g b)) :
    ∃ l' : List α, l'.Perm l ∧ sortBy cmp (l.map f) = l'.map f ∧ sortBy cmp (l.map g) = l'.map g := by
  have hmap : ∀ k : α → β, (∀ a ∈ l, ∀ b ∈ l, cmp (f a) (f b) = cmp (k a) (k b)) →
      sortBy cmp (l.map k) = (sortBy (fun a b => cmp (f a) (f b)) l).map k := by
    intro k hk
    refine (List.map_mergeSort fun a ha b hb => ?_).symm
    exact congrArg Ordering.isLE (hk a ha b hb)
  exact ⟨_, sortBy_perm _ l, hmap f fun _ _ _ _ => rfl, hmap g h⟩

end Sorting

/-! ## Places, diagnostics and functions -/

namespace Location

/-- One location starts before another, by file, then line, then column. -/
def StartsBefore (a b : Location) : Prop :=
  a.file.Before b.file ∨ a.file.components = b.file.components ∧
    (a.startLine < b.startLine ∨ a.startLine = b.startLine ∧ a.startCol < b.startCol)

/-- The location with its file spelled in another way. -/
def inFile (l : Location) (file : Path) : Location :=
  { l with file }

theorem compareStart_eq_lt_iff {a b : Location} : a.compareStart b = .lt ↔ a.StartsBefore b := by
  rw [compareStart, Ordering.then_eq_lt, Ordering.then_eq_lt, Path.compare_eq_lt_iff,
    Path.compare_eq_iff, Std.compare_eq_lt, Std.compare_eq_lt, Std.LawfulEqCmp.compare_eq_iff_eq,
    StartsBefore]

/-- Only the components of files are compared. -/
theorem compareStart_inFile {a b : Location} {p q : Path} (hp : p.components = a.file.components)
    (hq : q.components = b.file.components) :
    (a.inFile p).compareStart (b.inFile q) = a.compareStart b := by
  simp only [compareStart, inFile, Path.compare, hp, hq]

end Location

namespace Diagnostic

/-- One diagnostic comes before another, by where it starts, then by the number of the rule. -/
def Before (a b : Diagnostic) : Prop :=
  a.location.StartsBefore b.location ∨
    a.location.SameStart b.location ∧ a.violation.number < b.violation.number

/-- Two diagnostics start at one place and are about one rule. -/
def SameKey (a b : Diagnostic) : Prop :=
  a.location.SameStart b.location ∧ a.violation.number = b.violation.number

instance : DecidableRel SameKey := fun _ _ =>
  inferInstanceAs (Decidable (_ ∧ _))

/-- The diagnostic with its file spelled in another way. -/
def inFile (d : Diagnostic) (file : Path) : Diagnostic :=
  { d with location := d.location.inFile file }

theorem compare_eq_lt_iff (a b : Diagnostic) : a.compare b = .lt ↔ a.Before b := by
  rw [Diagnostic.compare, Ordering.then_eq_lt, Location.compareStart_eq_lt_iff,
    Location.compareStart_eq_iff, Nat.compare_eq_lt, Before]

theorem compare_eq_eq_iff (a b : Diagnostic) : a.compare b = .eq ↔ a.SameKey b := by
  rw [Diagnostic.compare, Ordering.then_eq_eq, Location.compareStart_eq_iff, Nat.compare_eq_eq, SameKey]

theorem compare_inFile {a b : Diagnostic} {p q : Path} (hp : p.components = a.location.file.components)
    (hq : q.components = b.location.file.components) :
    (a.inFile p).compare (b.inFile q) = a.compare b :=
  congrArg (Ordering.then · _) (Location.compareStart_inFile hp hq)

end Diagnostic

namespace Signature

/-- The signature with its file spelled in another way. -/
def inFile (f : Signature) (file : Path) : Signature :=
  { f with location := f.location.inFile file }

theorem compareStart_eq_lt_iff (f g : Signature) :
    f.compareStart g = .lt ↔ f.location.StartsBefore g.location :=
  Location.compareStart_eq_lt_iff

theorem compareStart_eq_eq_iff (f g : Signature) :
    f.compareStart g = .eq ↔ f.location.SameStart g.location :=
  Location.compareStart_eq_iff

end Signature

/-- A way to sort things that stand in files is stable, and it makes the same moves if files are spelled
in another way: each thing comes with a spelling of its file, and sorting the things as they are and
sorting them with these spellings both rearrange the list in the same way. -/
structure SortsBySource {α : Type} (before same : α → α → Prop) [DecidableRel same]
    (location : α → Location) (inFile : α → Path → α) (sort : List α → List α) : Prop where
  isStableSort : ∀ l, IsStableSort before same l (sort l)
  respelled : ∀ l : List (α × Path), (∀ r ∈ l, r.2.components = (location r.1).file.components) →
    ∃ l' : List (α × Path), l'.Perm l ∧ sort (l.map fun r => r.1) = (l'.map fun r => r.1) ∧
      sort (l.map fun r => inFile r.1 r.2) = l'.map fun r => inFile r.1 r.2

/-- **Source order.** Diagnostics are sorted stably by file, line, column and rule, functions by file,
line and column. Files are ordered by their components, so respelling them changes no position. -/
theorem sortsBySource_exact :
    SortsBySource Diagnostic.Before Diagnostic.SameKey Diagnostic.location Diagnostic.inFile
      Diagnostic.sort ∧
    (∀ r : Registry,
      SortsBySource (fun f g => f.location.StartsBefore g.location)
        (fun f g => f.location.SameStart g.location) Signature.location Signature.inFile
        fun fs => { r with functions := fs }.inSourceOrder) ∧
    Path.OrderedByComponents ∧
    ∀ a b : String,
      (Path.mk (a ++ "//" ++ b)).components = (Path.mk (a ++ "/" ++ b)).components ∧
      (Path.mk (a ++ "/./" ++ b)).components = (Path.mk (a ++ "/" ++ b)).components ∧
      (Path.mk (a ++ "/" ++ b ++ "/")).components = (Path.mk (a ++ "/" ++ b)).components := by
  refine ⟨⟨?_, ?_⟩, fun r => ⟨?_, ?_⟩, Path.orderedByComponents, Path.components_respelled⟩
  · exact isStableSort_sortBy Diagnostic.compare_eq_lt_iff Diagnostic.compare_eq_eq_iff
  · intro l hl
    exact exists_sortBy_map fun a ha b hb => (Diagnostic.compare_inFile (hl a ha) (hl b hb)).symm
  · show ∀ fs, IsStableSort _ _ fs (sortBy Signature.compareStart fs)
    exact isStableSort_sortBy Signature.compareStart_eq_lt_iff Signature.compareStart_eq_eq_iff
  · intro l hl
    exact exists_sortBy_map fun a ha b hb => (Location.compareStart_inFile (hl a ha) (hl b hb)).symm

end FunctionService
