import FunctionService.Description

/-!
# Descriptions without unknown fields

Reading a description first takes out of its tree what is stepped over. Where the tree spells the JSON
form of a package there is nothing to take out, and the tree stays as it is (`Package.keeps_skim`). The
argument is about values, not about trees: `Tree.Keeps f v` says that `f` changes no tree of the value
`v`, and the operations that `skim` is put together from have one lemma each.
-/

namespace FunctionService

open Json

namespace Json.Tree

/-- The tree has the value, at some bound on its nesting. -/
def Denotes (tree : Tree) (v : Json) : Prop :=
  ∃ room, tree.valueWithin room = some v

/-- The function changes no tree that has the value. -/
def Keeps (f : Tree → Tree) (v : Json) : Prop :=
  ∀ tree : Tree, tree.Denotes v → f tree = tree

theorem depth_ofNumeral {literal : String} {v : Json} (h : ofNumeral literal = some v) :
    v.depth = 0 := by
  obtain ⟨n, -, hn⟩ := Option.bind_eq_some_iff.mp h
  split at hn
  · cases hn
    rfl
  · split at hn
    · cases hn
      rfl
    · cases hn

theorem exists_of_itemsWithin {room : Nat} : ∀ {items : List Tree} {values : List Json},
    itemsWithin room items = some values → ∀ item ∈ items, ∃ v ∈ values, item.Denotes v
  | [], _, _, item, hitem => nomatch hitem
  | first :: rest, _, h, item, hitem => by
    obtain ⟨value, hvalue, values, hvalues, rfl⟩ :
        ∃ value, first.valueWithin room = some value ∧
          ∃ values, itemsWithin room rest = some values ∧ value :: values = _ := by
      simpa [itemsWithin, Option.bind_eq_some_iff] using h
    rcases List.mem_cons.mp hitem with rfl | hrest
    · exact ⟨value, List.mem_cons_self, room, hvalue⟩
    · obtain ⟨v, hv, hdenotes⟩ := exists_of_itemsWithin hvalues item hrest
      exact ⟨v, List.mem_cons_of_mem _ hv, hdenotes⟩

theorem exists_of_fieldsWithin {room : Nat} :
    ∀ {fields : List (Option String × Tree)} {values : List (String × Json)},
      fieldsWithin room fields = some values →
        ∀ field ∈ fields, ∃ v ∈ values, field.1 = some v.1 ∧ field.2.Denotes v.2
  | [], _, _, field, hfield => nomatch hfield
  | (key, first) :: rest, _, h, field, hfield => by
    obtain ⟨name, rfl, value, hvalue, values, hvalues, rfl⟩ :
        ∃ name, key = some name ∧ ∃ value, first.valueWithin room = some value ∧
          ∃ values, fieldsWithin room rest = some values ∧ (name, value) :: values = _ := by
      simpa [fieldsWithin, Option.bind_eq_some_iff] using h
    rcases List.mem_cons.mp hfield with rfl | hrest
    · exact ⟨(name, value), List.mem_cons_self, rfl, room, hvalue⟩
    · obtain ⟨v, hv, hdenotes⟩ := exists_of_fieldsWithin hvalues field hrest
      exact ⟨v, List.mem_cons_of_mem _ hv, hdenotes⟩

/-- A tree with a value is an array of trees with values, an object of such trees, or a leaf. -/
theorem Denotes.cases {tree : Tree} {v : Json} (h : tree.Denotes v) :
    (∃ items values, tree = .array items ∧ v = .arr values ∧
      ∀ item ∈ items, ∃ v ∈ values, item.Denotes v) ∨
    (∃ fields values, tree = .object fields ∧ v = .obj values ∧
      ∀ field ∈ fields, ∃ v ∈ values, field.1 = some v.1 ∧ field.2.Denotes v.2) ∨
    (v.depth = 0 ∧ (∀ items, tree ≠ .array items) ∧ ∀ fields, tree ≠ .object fields) := by
  obtain ⟨room, h⟩ := h
  cases tree with
  | null => cases h; simp [depth]
  | bool value => cases h; simp [depth]
  | number literal => simp [depth_ofNumeral h]
  | string text =>
      obtain ⟨_, -, rfl⟩ := Option.map_eq_some_iff.mp h
      simp [depth]
  | array items =>
      cases room with
      | zero => cases h
      | succ room =>
          obtain ⟨values, hitems, rfl⟩ := Option.map_eq_some_iff.mp h
          exact .inl ⟨items, values, rfl, rfl, exists_of_itemsWithin hitems⟩
  | object fields =>
      cases room with
      | zero => cases h
      | succ room =>
          obtain ⟨values, hfields, rfl⟩ := Option.map_eq_some_iff.mp h
          exact .inr (.inl ⟨fields, values, rfl, rfl, exists_of_fieldsWithin hfields⟩)

theorem Denotes.array {tree : Tree} {values : List Json} (h : tree.Denotes (.arr values)) :
    ∃ items, tree = .array items ∧ ∀ item ∈ items, ∃ v ∈ values, item.Denotes v := by
  obtain ⟨items, _, htree, heq, hitems⟩ | ⟨_, _, -, heq, -⟩ | ⟨hdepth, -, -⟩ := h.cases
  · cases heq
    exact ⟨items, htree, hitems⟩
  · cases heq
  · simp [depth] at hdepth

theorem Denotes.object {tree : Tree} {values : List (String × Json)}
    (h : tree.Denotes (.obj values)) :
    ∃ fields, tree = .object fields ∧
      ∀ field ∈ fields, ∃ v ∈ values, field.1 = some v.1 ∧ field.2.Denotes v.2 := by
  obtain ⟨_, _, -, heq, -⟩ | ⟨fields, _, htree, heq, hfields⟩ | ⟨hdepth, -, -⟩ := h.cases
  · cases heq
  · cases heq
    exact ⟨fields, htree, hfields⟩
  · simp [depth] at hdepth

/-! ## What the operations on trees keep -/

theorem Keeps.comp {f g : Tree → Tree} {v : Json} (hf : Keeps f v) (hg : Keeps g v) :
    Keeps (g ∘ f) v := by
  intro tree htree
  rw [Function.comp_apply, hf tree htree, hg tree htree]

theorem keeps_keepFields {names : List String} {values : List (String × Json)}
    (h : ∀ v ∈ values, v.1 ∈ names) : Keeps (keepFields names) (.obj values) := by
  intro tree htree
  obtain ⟨fields, rfl, hfields⟩ := htree.object
  have hall : ∀ field ∈ fields, field.1.all names.contains := by
    intro field hfield
    obtain ⟨v, hv, hkey, -⟩ := hfields field hfield
    simpa [hkey] using h v hv
  rw [keepFields, List.filter_eq_self.mpr hall]

theorem keeps_mapItems {f : Tree → Tree} {values : List Json} (h : ∀ v ∈ values, Keeps f v) :
    Keeps (mapItems f) (.arr values) := by
  intro tree htree
  obtain ⟨items, rfl, hitems⟩ := htree.array
  have hsame : ∀ item ∈ items, f item = item := by
    intro item hitem
    obtain ⟨v, hv, hdenotes⟩ := hitems item hitem
    exact h v hv item hdenotes
  rw [mapItems, List.map_congr_left hsame, List.map_id']

theorem keeps_mapFields {f : Tree → Tree} {values : List (String × Json)}
    (h : ∀ v ∈ values, Keeps f v.2) : Keeps (mapFields f) (.obj values) := by
  intro tree htree
  obtain ⟨fields, rfl, hfields⟩ := htree.object
  have hsame : ∀ field ∈ fields, (field.1, f field.2) = field := by
    intro field hfield
    obtain ⟨v, hv, -, hdenotes⟩ := hfields field hfield
    rw [h v hv field.2 hdenotes]
  rw [mapFields, List.map_congr_left hsame, List.map_id']

/-- Where the fields of one name are kept, applying the function to them changes nothing. -/
theorem map_slot_eq_self {name : String} {f : Tree → Tree} {values : List (String × Json)}
    {fields : List (Option String × Tree)}
    (hfields : ∀ field ∈ fields, ∃ v ∈ values, field.1 = some v.1 ∧ field.2.Denotes v.2)
    (h : ∀ v ∈ values, v.1 = name → Keeps f v.2) :
    fields.map (fun field => if field.1 == some name then (field.1, f field.2) else field) =
      fields := by
  have hsame : ∀ field ∈ fields,
      (if field.1 == some name then (field.1, f field.2) else field) = field := by
    intro field hfield
    split
    · rename_i hname
      obtain ⟨v, hv, hkey, hdenotes⟩ := hfields field hfield
      have hvname : v.1 = name := by simpa [hkey] using hname
      rw [h v hv hvname field.2 hdenotes]
    · rfl
  rw [List.map_congr_left hsame, List.map_id']

theorem keeps_mapSlot {name : String} {place : Nat} {f : Tree → Tree}
    {values : List (String × Json)} (h : ∀ v ∈ values, v.1 = name → Keeps f v.2) :
    Keeps (mapSlot name place f) (.obj values) := by
  intro tree htree
  obtain ⟨fields, rfl, hfields⟩ := htree.object
  rw [mapSlot, map_slot_eq_self hfields h]

end Json.Tree

open Json.Tree

/-! ## What skimming keeps -/

namespace TypeSymbol

theorem keeps_skim_leaf {v : Json} (h : v.depth = 0) (levels : Nat) : Keeps (skim levels) v := by
  intro tree htree
  obtain ⟨_, _, -, rfl, -⟩ | ⟨_, _, -, rfl, -⟩ | ⟨-, harray, hobject⟩ := htree.cases
  · simp [depth] at h
  · simp [depth] at h
  · cases levels with
    | zero => rfl
    | succ levels =>
        cases tree with
        | array items => exact absurd rfl (harray items)
        | object fields => exact absurd rfl (hobject fields)
        | _ => rfl

/-- Skimming keeps a tagged value if one level less keeps its content, whatever its kind. -/
theorem keeps_skim_obj {levels : Nat} {values : List (String × Json)}
    (hkeys : ∀ v ∈ values, v.1 ∈ [kindKey, contentKey])
    (hcontent : ∀ v ∈ values, v.1 = contentKey → Keeps (skim levels) v.2) :
    Keeps (skim (levels + 1)) (.obj values) := by
  intro tree htree
  rw [skim, keeps_keepFields hkeys tree htree]
  obtain ⟨fields, rfl, hfields⟩ := htree.object
  cases fields with
  | nil => rfl
  | cons field rest =>
      -- Only the fields after the first are skimmed, and only if the kind is that of a container;
      -- either way they stay.
      have hrest := map_slot_eq_self
        (fun field hfield => hfields field (List.mem_cons_of_mem _ hfield)) hcontent
      simp only [hrest, ite_self]

theorem keeps_skim_tagged {levels : Nat} {kind : String} {content : Json}
    (h : Keeps (skim levels) content) : Keeps (skim (levels + 1)) (encodeTagged kind content) :=
  keeps_skim_obj (by simp) (by simp [kindKey, contentKey, h])

theorem keeps_skim : ∀ (levels : Nat) (s : TypeSymbol), Keeps (skim levels) s.encode
  | 0, _ => fun _ _ => rfl
  | _ + 1, .record => keeps_skim_obj (by simp) (by simp [kindKey, contentKey])
  | levels + 1, .array element => keeps_skim_tagged (keeps_skim levels element)
  | levels + 1, .map value => keeps_skim_tagged (keeps_skim levels value)
  | levels + 1, .table row => keeps_skim_tagged (keeps_skim levels row)
  | levels + 1, .primitive _ | levels + 1, .alias _ | levels + 1, .other _ =>
    keeps_skim_tagged (keeps_skim_leaf rfl levels)

end TypeSymbol

theorem Document.keeps_skim (d : Document) : Keeps skim d.encode :=
  keeps_keepFields (by simp)

theorem Module.keeps_skim (m : Module) : Keeps skim m.encode := by
  have hdocuments : ∀ documents : List Document,
      Keeps (mapItems Document.skim) (.arr (documents.map Document.encode)) := by
    intro documents
    refine keeps_mapItems fun v hv => ?_
    obtain ⟨d, -, rfl⟩ := List.mem_map.mp hv
    exact d.keeps_skim
  show Keeps (mapSlot _ _ _ ∘ mapSlot _ _ _ ∘ keepFields _) (.obj _)
  refine .comp (.comp (keeps_keepFields (by simp)) (keeps_mapSlot ?_)) (keeps_mapSlot ?_)
  · simp [hdocuments]
  · simp [hdocuments]

theorem Package.keeps_skim (p : Package) : Keeps skim p.encode := by
  have hmodules : Keeps (mapItems Module.skim) (.arr (p.modules.map Module.encode)) := by
    refine keeps_mapItems fun v hv => ?_
    obtain ⟨m, -, rfl⟩ := List.mem_map.mp hv
    exact m.keeps_skim
  have hsymbols : Keeps (mapFields (TypeSymbol.skim maxDepth)) p.symbols.encode := by
    refine keeps_mapFields fun v hv => ?_
    obtain ⟨e, -, rfl⟩ := List.mem_map.mp hv
    exact TypeSymbol.keeps_skim maxDepth e.2
  show Keeps (mapSlot _ _ _ ∘ mapSlot _ _ _ ∘ keepFields _) (.obj _)
  refine .comp (.comp (keeps_keepFields (by simp)) (keeps_mapSlot ?_)) (keeps_mapSlot ?_)
  · simp [hmodules]
  · simp [hsymbols]

end FunctionService
