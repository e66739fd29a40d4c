import FunctionService.Proofs.Readings

/-!
# The format of descriptions as data

A description is made of records, members with a tag, types and symbols with a kind, choices, lists and the
symbol table. `Shape` names these parts, and `Shape.layout` says which fields a value of a shape has, what
stands under each of them, and at which value it may be left out. `Shape.decode` is how a part is read.

`Reshaped` relates two values whose fields agree up to respelled parts and fields left out at their default.
The main statement, `Shape.refines_of_layout`, is that reading a reshaped value gives what reading the value
gives, for every shape with fields.
-/

namespace FunctionService

open Json

/-! ## The format as data -/

/-- The parts of a package description, by how they are spelled. -/
inductive Shape where
  | package
  | module
  | document
  | member
  | annotationRecord
  | parameter
  | parameterKind
  | defaultable
  | body
  | type
  | symbol (reading : Reading)
  | table
  | expression
  | form (name : String)
  | argument
  | qualifiedName
  | location
  | list (item : Shape)
  /-- Texts, numbers, truth values and names without payload. -/
  | leaf

/-- A field of a record: its key, what stands under it, and the value that may be left out. -/
structure FieldShape where
  name : String
  shape : Shape
  default? : Option Json

namespace Shape

/-- The fields of a package. -/
def packageFields : List FieldShape :=
  [⟨"name", .leaf, none⟩, ⟨"modules", .list .module, some (.arr [])⟩,
    ⟨"has_compilation_errors", .leaf, some (.bool false)⟩, ⟨"symbols", .table, some (.obj [])⟩]

/-- The fields of a module. -/
def moduleFields : List FieldShape :=
  [⟨"id", .leaf, none⟩, ⟨"name", .leaf, none⟩, ⟨"is_default", .leaf, some (.bool false)⟩,
    ⟨"documents", .list .document, some (.arr [])⟩,
    ⟨"test_documents", .list .document, some (.arr [])⟩]

/-- The fields of a document. -/
def documentFields : List FieldShape :=
  [⟨"id", .leaf, none⟩, ⟨"name", .leaf, none⟩, ⟨"members", .list .member, some (.arr [])⟩]

/-- The fields of a function. -/
def functionFields : List FieldShape :=
  [⟨"name", .leaf, none⟩, ⟨"qualifiers", .leaf, some (.arr [])⟩,
    ⟨"annotations", .list .annotationRecord, some (.arr [])⟩,
    ⟨"parameters", .list .parameter, some (.arr [])⟩, ⟨"return_type", .type, some .null⟩,
    ⟨"body", .body, none⟩, ⟨"location", .location, none⟩]

/-- The fields of a declaration. -/
def declarationFields : List FieldShape :=
  [⟨"name", .leaf, some .null⟩, ⟨"location", .location, none⟩]

/-- The fields of a member of another kind. -/
def otherFields : List FieldShape :=
  [⟨"syntax_kind", .leaf, none⟩, ⟨"location", .location, none⟩]

/-- The fields of a member besides its tag. -/
def memberFields (tag : String) : List FieldShape :=
  if tag = "function" then functionFields
  else if tag = "other" then otherFields
  else declarationFields

/-- The fields of a parameter. -/
def parameterFields : List FieldShape :=
  [⟨"name", .leaf, none⟩, ⟨"type", .type, none⟩, ⟨"kind", .parameterKind, none⟩]

/-- The fields of a qualified name. -/
def qualifiedNameFields : List FieldShape :=
  [⟨"module", .leaf, some .null⟩, ⟨"name", .leaf, none⟩]

/-- The fields of a location. -/
def locationFields : List FieldShape :=
  [⟨"file", .leaf, none⟩, ⟨"start_line", .leaf, none⟩, ⟨"start_col", .leaf, none⟩,
    ⟨"end_line", .leaf, none⟩, ⟨"end_col", .leaf, none⟩]

/-- The fields of a form of expression, for the forms that are records. -/
def formFields : String → Option (List FieldShape)
  | "field_access" => some [⟨"target", .expression, none⟩, ⟨"field", .leaf, none⟩]
  | "elvis" => some [⟨"lhs", .expression, none⟩, ⟨"rhs", .expression, none⟩]
  | "call" => some [⟨"function", .leaf, none⟩, ⟨"arguments", .list .argument, none⟩]
  | "new" => some [⟨"type_name", .qualifiedName, none⟩, ⟨"arguments", .list .argument, none⟩]
  | _ => none

/-- The fields of the parts that are records whatever their value. -/
def recordFields : Shape → Option (List FieldShape)
  | .package => some packageFields
  | .module => some moduleFields
  | .document => some documentFields
  | .annotationRecord => some [⟨"name", .leaf, none⟩]
  | .parameter => some parameterFields
  | .defaultable => some [⟨"default", .expression, none⟩]
  | .form name => formFields name
  | .qualifiedName => some qualifiedNameFields
  | .location => some locationFields
  | _ => none

/-- What the tagged values of a kind hold, given the shape of the values themselves. -/
def contentShape {α : Type} (whole : Shape) : Option (Content α) → Shape
  | some (.one _) => whole
  | some (.many _) => .list whole
  | _ => .leaf

/-- What types of a kind hold. -/
def typeContent (kind : String) : Shape :=
  contentShape .type (TypeDesc.variants.lookup kind)

/-- What symbols of a kind hold, with how it is read. -/
def symbolContent (reading : Reading) (kind : String) : Shape :=
  contentShape (.symbol reading) (TypeSymbol.variants.lookup kind)

/-- The fields of a tagged value with a content. -/
def taggedFields (content : Shape) : List FieldShape :=
  [⟨kindKey, .leaf, none⟩, ⟨contentKey, content, none⟩]

/-- The fields of a value of a shape: those of a member depend on its tag, and what a type or a symbol
holds depends on its kind. Choices, tables and lists have none. -/
def layout : Shape → Json → Option (List FieldShape)
  | .member, v => (Member.splitTag v).map fun t => ⟨Member.tagKey, .leaf, none⟩ :: memberFields t.1
  | .type, v => (v.tagged TypeDesc.variants.kinds .buffered).map fun t => taggedFields (typeContent t.1)
  | .symbol reading, v =>
    (v.tagged TypeSymbol.variants.kinds reading).map fun t => taggedFields (symbolContent t.2.2 t.1)
  | s, _ => s.recordFields

/-- What stands behind the name of an alternative, for the alternatives that have something there to
respell. -/
def payload? : Shape → String → Option Shape
  | .parameterKind, "defaultable" => some .defaultable
  | .body, "expression" => some .expression
  | .argument, "positional" => some .expression
  | .argument, "rest" => some .expression
  | .expression, "list" => some (.list .expression)
  | .expression, name => some (.form name)
  | _, _ => none

end Shape

/-! ## Results that are kept -/

/-- Whatever the first computation gives, the second gives too. -/
def Refines {α : Type} (a b : Option α) : Prop :=
  ∀ x, a = some x → b = some x

namespace Refines

variable {α β : Type} {a b : Option α}

theorem refl (a : Option α) : Refines a a :=
  fun _ h => h

theorem none (b : Option α) : Refines .none b := by
  intro x h
  cases h

theorem bind {f g : α → Option β} (h : Refines a b) (hfg : ∀ x, Refines (f x) (g x)) :
    Refines (a >>= f) (b >>= g) := by
  intro y hy
  obtain ⟨x, hx, hy⟩ := Option.bind_eq_some_iff.mp hy
  exact Option.bind_eq_some_iff.mpr ⟨x, h x hx, hfg x y hy⟩

theorem bind_same (h : Refines a b) (f : α → Option β) : Refines (a >>= f) (b >>= f) :=
  h.bind fun _ => .refl _

theorem map (h : Refines a b) (f : α → β) : Refines (a.map f) (b.map f) := by
  intro y hy
  obtain ⟨x, hx, rfl⟩ := Option.map_eq_some_iff.mp hy
  exact Option.map_eq_some_iff.mpr ⟨x, h x hx, rfl⟩

/-- A list keeps its result if one of its elements does. -/
theorem mapM_middle {d : β → Option α} {x y : β} (h : Refines (d x) (d y)) (before after : List β) :
    Refines ((before ++ x :: after).mapM d) ((before ++ y :: after).mapM d) := by
  induction before with
  | nil =>
      rw [List.nil_append, List.nil_append, List.mapM_cons, List.mapM_cons]
      exact h.bind_same _
  | cons z before ih =>
      rw [List.cons_append, List.cons_append, List.mapM_cons, List.mapM_cons]
      exact (Refines.refl (d z)).bind fun _ => ih.bind_same _

end Refines

/-- The default of a parameter, from the payload that holds it. -/
def ParameterKind.decodeDefault (payload : Json) : Option Expression := do
  let [default] ← payload.slots ["default"] | none
  Json.required Expression.decode default

namespace Shape

/-- What a part of a description is read into. -/
def Value : Shape → Type
  | .package => Package
  | .module => Module
  | .document => Document
  | .member => Member
  | .annotationRecord => Annotation
  | .parameter => Parameter
  | .parameterKind => ParameterKind
  | .defaultable => Expression
  | .body => FunctionBody
  | .type => TypeDesc
  | .symbol _ => TypeSymbol
  | .table => SymbolTable
  | .expression => Expression
  | .form _ => Expression
  | .argument => Argument
  | .qualifiedName => QualifiedName
  | .location => Location
  | .list s => List s.Value
  | .leaf => Json

/-- How a part of a description is read. Members are put aside, so what they hold was put aside too. A
leaf is left to the field it stands in. -/
def decode : (s : Shape) → Json → Option s.Value
  | .package => Package.decode
  | .module => Module.decode
  | .document => Document.decode
  | .member => Member.decode
  | .annotationRecord => Annotation.decode
  | .parameter => Parameter.decode .buffered
  | .parameterKind => ParameterKind.decode .buffered
  | .defaultable => ParameterKind.decodeDefault
  | .body => FunctionBody.decode .buffered
  | .type => TypeDesc.decode .buffered
  | .symbol reading => TypeSymbol.read reading
  | .table => SymbolTable.decode
  | .expression => Expression.decode
  | .form name => Expression.ofForm Expression.decode Argument.decode name
  | .argument => Argument.decode
  | .qualifiedName => QualifiedName.decode
  | .location => Location.decode
  | .list s => list? s.decode
  | .leaf => some

/-- A decoder keeps its result whenever the decoder of the shape does. -/
def Respects {α : Type} (s : Shape) (d : Json → Option α) : Prop :=
  ∀ w w', w ≠ .null → w' ≠ .null → Refines (s.decode w) (s.decode w') → Refines (d w) (d w')

theorem respects_self (s : Shape) : s.Respects s.decode :=
  fun _ _ _ _ h => h

theorem respects_leaf {α : Type} (d : Json → Option α) : Respects .leaf d := by
  intro w w' _ _ h
  cases h w rfl
  exact .refl _

theorem Respects.nullable {α : Type} {s : Shape} {d : Json → Option α} (hd : s.Respects d) :
    s.Respects (Json.nullable d) := by
  intro w w' hw hw' h x hx
  have hsome : ∀ u : Json, u ≠ .null → Json.nullable d u = (d u).map some := by
    intro u hu
    cases u with
    | null => exact absurd rfl hu
    | _ => rfl
  rw [hsome w hw] at hx
  rw [hsome w' hw']
  obtain ⟨y, hy, rfl⟩ := Option.map_eq_some_iff.mp hx
  exact Option.map_eq_some_iff.mpr ⟨y, hd w w' hw hw' h y hy, rfl⟩

end Shape

/-- What may become of a field: it stays, it is respelled, or it is left out at its default. -/
inductive FieldRefines (f : FieldShape) : Option Json → Option Json → Prop
  | same (o : Option Json) : FieldRefines f o o
  | changed {w w' : Json} : w ≠ .null → w' ≠ .null → Refines (f.shape.decode w) (f.shape.decode w') →
      FieldRefines f (some w) (some w')
  | dropped {w : Json} : f.default? = some w → FieldRefines f (some w) none

namespace FieldRefines

variable {α : Type} {f : FieldShape} {o o' : Option Json} {d : Json → Option α}

theorem required (h : FieldRefines f o o') (hd : f.shape.Respects d) (hdefault : f.default? = none) :
    Refines (Json.required d o) (Json.required d o') := by
  cases h with
  | same o => exact .refl _
  | changed hw hw' h => exact hd _ _ hw hw' h
  | dropped h =>
      rw [hdefault] at h
      cases h

theorem orElse {a : α} {w : Json} (h : FieldRefines f o o') (hd : f.shape.Respects d)
    (hdefault : f.default? = some w) (hw : d w = some a) :
    Refines (Json.orElse a d o) (Json.orElse a d o') := by
  cases h with
  | same o => exact .refl _
  | changed hw hw' h => exact hd _ _ hw hw' h
  | @dropped u h =>
      obtain rfl : u = w := Option.some.inj (h.symm.trans hdefault)
      show Refines (d u) (some a)
      rw [hw]
      exact .refl _

theorem eq_of_leaf {name : String} (h : FieldRefines ⟨name, .leaf, none⟩ o o') : o' = o := by
  cases h with
  | same o => rfl
  | changed _ _ h => exact h _ rfl
  | dropped h => cases h

end FieldRefines

/-- What may become of the fields of a record, one by one. -/
inductive FieldsRefine : List FieldShape → List (Option Json) → List (Option Json) → Prop
  | nil : FieldsRefine [] [] []
  | cons {f : FieldShape} {fs : List FieldShape} {o o' : Option Json} {os os' : List (Option Json)} :
      FieldRefines f o o' → FieldsRefine fs os os' → FieldsRefine (f :: fs) (o :: os) (o' :: os')

/-- What may become of the items of an array that spells a record. -/
inductive ItemsRefine : List FieldShape → List Json → List Json → Prop
  | nil (fs : List FieldShape) : ItemsRefine fs [] []
  | cons {f : FieldShape} {fs : List FieldShape} {w w' : Json} {ws ws' : List Json} :
      FieldRefines f (some w) (some w') → ItemsRefine fs ws ws' →
      ItemsRefine (f :: fs) (w :: ws) (w' :: ws')
  | beyond (ws : List Json) : ItemsRefine [] ws ws

/-- What may become of a value with the given fields, seen from its reader. -/
inductive Reshaped (fs : List FieldShape) : Json → Json → Prop
  | obj {fields fields' : List (String × Json)} :
      (∀ f ∈ fs, ∀ o, slot fields f.name = some o →
        ∃ o', slot fields' f.name = some o' ∧ FieldRefines f o o') →
      Reshaped fs (.obj fields) (.obj fields')
  | arr {items items' : List Json} : ItemsRefine fs items items' → Reshaped fs (.arr items) (.arr items')

theorem ItemsRefine.length_eq {fs : List FieldShape} {ws ws' : List Json} (h : ItemsRefine fs ws ws') :
    ws'.length = ws.length := by
  induction h with
  | nil => rfl
  | cons _ _ ih => rw [List.length_cons, List.length_cons, ih]
  | beyond => rfl

theorem ItemsRefine.fields {fs : List FieldShape} {ws ws' : List Json} (h : ItemsRefine fs ws ws')
    (hlength : ws.length ≤ fs.length) :
    FieldsRefine fs (ws.map some ++ List.replicate (fs.length - ws.length) none)
      (ws'.map some ++ List.replicate (fs.length - ws'.length) none) := by
  induction h with
  | nil fs =>
      show FieldsRefine fs (List.replicate fs.length none) (List.replicate fs.length none)
      induction fs with
      | nil => exact .nil
      | cons f fs ih => exact .cons (.same none) (ih (Nat.zero_le _))
  | cons hw _ ih =>
      simp only [List.length_cons, Nat.add_sub_add_right]
      exact .cons hw (ih (Nat.le_of_succ_le_succ hlength))
  | beyond ws =>
      obtain rfl := List.eq_nil_of_length_eq_zero (Nat.le_zero.mp hlength)
      exact .nil

theorem Reshaped.slots {fs : List FieldShape} {v v' : Json} {os : List (Option Json)}
    (h : Reshaped fs v v') (hos : v.slots (fs.map FieldShape.name) = some os) :
    ∃ os', v'.slots (fs.map FieldShape.name) = some os' ∧ FieldsRefine fs os os' := by
  cases h with
  | @obj fields fields' h =>
      rw [slots_obj] at hos ⊢
      induction fs generalizing os with
      | nil =>
          cases hos
          exact ⟨[], rfl, .nil⟩
      | cons f fs ih =>
          obtain ⟨hf, hfs⟩ := List.forall_mem_cons.mp h
          rw [List.map_cons, List.mapM_cons] at hos ⊢
          obtain ⟨o, ho, hos⟩ := Option.bind_eq_some_iff.mp hos
          obtain ⟨rest, hrest, hos⟩ := Option.bind_eq_some_iff.mp hos
          cases hos
          obtain ⟨o', ho', hoo'⟩ := hf o ho
          obtain ⟨rest', hrest', hfields⟩ := ih hfs hrest
          rw [ho', hrest']
          exact ⟨o' :: rest', rfl, .cons hoo' hfields⟩
  | @arr items items' h =>
      rw [Json.slots, List.length_map] at hos ⊢
      split at hos
      next hlength =>
        cases hos
        rw [if_pos (h.length_eq ▸ hlength)]
        exact ⟨_, rfl, h.fields hlength⟩
      · cases hos

/-- A record keeps its result if what is made of its fields does. -/
theorem Reshaped.refines {α : Type} {fs : List FieldShape} {v v' : Json}
    {make : List (Option Json) → Option α} (h : Reshaped fs v v')
    (hmake : ∀ os os', FieldsRefine fs os os' → Refines (make os) (make os')) :
    Refines (v.slots (fs.map FieldShape.name) >>= make)
      (v'.slots (fs.map FieldShape.name) >>= make) := by
  intro x hx
  obtain ⟨os, hos, hx⟩ := Option.bind_eq_some_iff.mp hx
  obtain ⟨os', hos', hfields⟩ := h.slots hos
  exact Option.bind_eq_some_iff.mpr ⟨os', hos', hmake os os' hfields x hx⟩

/-! ## Records -/

section Records

open Shape

variable {v v' : Json}

theorem Location.refines (h : Reshaped locationFields v v') :
    Refines (Location.decode v) (Location.decode v') := by
  refine h.refines fun os os' hos => ?_
  obtain _ | ⟨hfile, _ | ⟨hstartLine, _ | ⟨hstartCol, _ | ⟨hendLine, _ | ⟨hendCol, _ | _⟩⟩⟩⟩⟩ := hos
  rw [hfile.eq_of_leaf, hstartLine.eq_of_leaf, hstartCol.eq_of_leaf, hendLine.eq_of_leaf,
    hendCol.eq_of_leaf]
  exact .refl _

theorem QualifiedName.refines (h : Reshaped qualifiedNameFields v v') :
    Refines (QualifiedName.decode v) (QualifiedName.decode v') := by
  refine h.refines fun os os' hos => ?_
  obtain _ | ⟨hmodule, _ | ⟨hname, _ | _⟩⟩ := hos
  refine (hmodule.orElse (respects_leaf (nullable text?)) rfl rfl).bind fun _ => ?_
  exact (hname.required (respects_leaf _) rfl).bind_same _

theorem Annotation.refines (h : Reshaped [⟨"name", .leaf, none⟩] v v') :
    Refines ( Annotation.decode v) ( Annotation.decode v') := by
  refine h.refines fun os os' hos => ?_
  obtain _ | ⟨hname, _ | _⟩ := hos
  exact (hname.required (respects_leaf _) rfl).bind_same _

theorem ParameterKind.refines_default (h : Reshaped [⟨"default", .expression, none⟩] v v') :
    Refines (ParameterKind.decodeDefault v) (ParameterKind.decodeDefault v') := by
  refine h.refines fun os os' hos => ?_
  obtain _ | ⟨hdefault, _ | _⟩ := hos
  exact hdefault.required (respects_self .expression) rfl

theorem Parameter.refines (h : Reshaped parameterFields v v') :
    Refines (Parameter.decode .buffered v) (Parameter.decode .buffered v') := by
  refine h.refines fun os os' hos => ?_
  obtain _ | ⟨hname, _ | ⟨htype, _ | ⟨hkind, _ | _⟩⟩⟩ := hos
  refine (hname.required (respects_leaf _) rfl).bind fun _ => ?_
  refine (htype.required (respects_self .type) rfl).bind fun _ => ?_
  exact (hkind.required (respects_self .parameterKind) rfl).bind_same _

theorem FunctionDef.refines (h : Reshaped functionFields v v') :
    Refines (FunctionDef.decode .buffered v) (FunctionDef.decode .buffered v') := by
  refine h.refines fun os os' hos => ?_
  obtain _ | ⟨hname, _ | ⟨hqualifiers, _ | ⟨hannotations, _ | ⟨hparameters, _ | ⟨hreturn,
    _ | ⟨hbody, _ | ⟨hlocation, _ | _⟩⟩⟩⟩⟩⟩⟩ := hos
  refine (hname.required (respects_leaf _) rfl).bind fun _ => ?_
  refine (hqualifiers.orElse (respects_leaf (list? (Qualifier.decode .buffered))) rfl rfl).bind fun _ => ?_
  refine (hannotations.orElse (respects_self (.list .annotationRecord)) rfl rfl).bind fun _ => ?_
  refine (hparameters.orElse (respects_self (.list .parameter)) rfl rfl).bind fun _ => ?_
  refine (hreturn.orElse (respects_self .type).nullable rfl rfl).bind fun _ => ?_
  refine (hbody.required (respects_self .body) rfl).bind fun _ => ?_
  exact (hlocation.required (respects_self .location) rfl).bind_same _

theorem Declaration.refines (h : Reshaped declarationFields v v') :
    Refines (Declaration.decode v) (Declaration.decode v') := by
  refine h.refines fun os os' hos => ?_
  obtain _ | ⟨hname, _ | ⟨hlocation, _ | _⟩⟩ := hos
  refine (hname.orElse (respects_leaf (nullable text?)) rfl rfl).bind fun _ => ?_
  exact (hlocation.required (respects_self .location) rfl).bind_same _

theorem Member.refines_other (h : Reshaped otherFields v v') :
    Refines (Member.decodeOther v) (Member.decodeOther v') := by
  refine h.refines fun os os' hos => ?_
  obtain _ | ⟨hkind, _ | ⟨hlocation, _ | _⟩⟩ := hos
  refine (hkind.required (respects_leaf _) rfl).bind fun _ => ?_
  exact (hlocation.required (respects_self .location) rfl).bind_same _

theorem Document.refines (h : Reshaped documentFields v v') :
    Refines (Document.decode v) (Document.decode v') := by
  refine h.refines fun os os' hos => ?_
  obtain _ | ⟨hid, _ | ⟨hname, _ | ⟨hmembers, _ | _⟩⟩⟩ := hos
  refine (hid.required (respects_leaf _) rfl).bind fun _ => ?_
  refine (hname.required (respects_leaf _) rfl).bind fun _ => ?_
  exact (hmembers.orElse (respects_self (.list .member)) rfl rfl).bind_same _

theorem Module.refines (h : Reshaped moduleFields v v') :
    Refines (Module.decode v) (Module.decode v') := by
  refine h.refines fun os os' hos => ?_
  obtain _ | ⟨hid, _ | ⟨hname, _ | ⟨hdefault, _ | ⟨hdocuments, _ | ⟨htests, _ | _⟩⟩⟩⟩⟩ := hos
  refine (hid.required (respects_leaf _) rfl).bind fun _ => ?_
  refine (hname.required (respects_leaf _) rfl).bind fun _ => ?_
  refine (hdefault.orElse (respects_leaf bool?) rfl rfl).bind fun _ => ?_
  refine (hdocuments.orElse (respects_self (.list .document)) rfl rfl).bind fun _ => ?_
  exact (htests.orElse (respects_self (.list .document)) rfl rfl).bind_same _

theorem Package.refines (h : Reshaped packageFields v v') :
    Refines (Package.decode v) (Package.decode v') := by
  refine h.refines fun os os' hos => ?_
  obtain _ | ⟨hname, _ | ⟨hmodules, _ | ⟨herrors, _ | ⟨hsymbols, _ | _⟩⟩⟩⟩ := hos
  refine (hname.required (respects_leaf _) rfl).bind fun _ => ?_
  refine (hmodules.orElse (respects_self (.list .module)) rfl rfl).bind fun _ => ?_
  refine (herrors.orElse (respects_leaf bool?) rfl rfl).bind fun _ => ?_
  exact (hsymbols.orElse (respects_self .table) rfl rfl).bind_same _

/-- The forms of expressions that are records. -/
theorem Expression.refines_form {form : String} {fs : List FieldShape} (hform : formFields form = some fs)
    (h : Reshaped fs v v') :
    Refines (Expression.ofForm Expression.decode Argument.decode form v)
      (Expression.ofForm Expression.decode Argument.decode form v') := by
  unfold formFields at hform
  split at hform <;> cases hform
  · refine h.refines fun os os' hos => ?_
    obtain _ | ⟨htarget, _ | ⟨hfield, _ | _⟩⟩ := hos
    refine (htarget.required (respects_self .expression) rfl).bind fun _ => ?_
    exact (hfield.required (respects_leaf _) rfl).bind_same _
  · refine h.refines fun os os' hos => ?_
    obtain _ | ⟨hleft, _ | ⟨hright, _ | _⟩⟩ := hos
    refine (hleft.required (respects_self .expression) rfl).bind fun _ => ?_
    exact (hright.required (respects_self .expression) rfl).bind_same _
  · refine h.refines fun os os' hos => ?_
    obtain _ | ⟨hfunction, _ | ⟨harguments, _ | _⟩⟩ := hos
    refine (hfunction.required (respects_leaf _) rfl).bind fun _ => ?_
    exact (harguments.required (respects_self (.list .argument)) rfl).bind_same _
  · refine h.refines fun os os' hos => ?_
    obtain _ | ⟨htypeName, _ | ⟨harguments, _ | _⟩⟩ := hos
    refine (htypeName.required (respects_self .qualifiedName) rfl).bind fun _ => ?_
    exact (harguments.required (respects_self (.list .argument)) rfl).bind_same _

end Records

/-! ## Members -/

namespace Member

theorem slot_filter_tag {fields : List (String × Json)} {key : String} (h : key ≠ tagKey) :
    slot (fields.filter fun field => field.1 != tagKey) key = slot fields key := by
  have hvalues : valuesAt key (fields.filter fun field => field.1 != tagKey) = valuesAt key fields := by
    rw [valuesAt, valuesAt, List.filter_filter]
    congr 1
    refine List.filter_congr fun field _ => ?_
    by_cases hkey : field.1 = key <;> simp [hkey, h]
  rw [slot, slot, hvalues]

theorem splitTag_obj_eq_some_iff {fields : List (String × Json)} {tag : String} {rest : Json} :
    splitTag (.obj fields) = some (tag, rest) ↔
      slot fields tagKey = some (some (.str tag)) ∧
        rest = .obj (fields.filter fun field => field.1 != tagKey) := by
  rw [splitTag]
  constructor
  · intro h
    obtain ⟨o, ho, h⟩ := Option.bind_eq_some_iff.mp h
    obtain ⟨name, hname, h⟩ := Option.bind_eq_some_iff.mp h
    cases h
    cases o with
    | none => cases hname
    | some w =>
        cases w with
        | str text =>
            cases hname
            exact ⟨ho, rfl⟩
        | _ => cases hname
  · rintro ⟨htag, rfl⟩
    rw [htag]
    rfl

/-- The tag of a member stays, and the rest of it is reshaped. -/
theorem splitTag_reshaped {gs : List FieldShape} {v v' rest : Json} {tag : String}
    (hgs : ∀ f ∈ gs, f.name ≠ tagKey) (h : Reshaped (⟨tagKey, .leaf, none⟩ :: gs) v v')
    (ht : splitTag v = some (tag, rest)) :
    ∃ rest', splitTag v' = some (tag, rest') ∧ Reshaped gs rest rest' := by
  cases h with
  | @obj fields fields' h =>
      obtain ⟨htag, rfl⟩ := splitTag_obj_eq_some_iff.mp ht
      obtain ⟨hfirst, hrest⟩ := List.forall_mem_cons.mp h
      obtain ⟨o', ho', hoo'⟩ := hfirst _ htag
      rw [hoo'.eq_of_leaf] at ho'
      refine ⟨_, splitTag_obj_eq_some_iff.mpr ⟨ho', rfl⟩, .obj fun f hf o ho => ?_⟩
      rw [slot_filter_tag (hgs f hf)] at ho ⊢
      exact hrest f hf o ho
  | @arr items items' h =>
      cases h with
      | nil => cases ht
      | @cons _ _ w w' ws ws' hw hws =>
          cases w with
          | str text =>
              cases ht
              cases hw.eq_of_leaf
              exact ⟨_, rfl, .arr hws⟩
          | _ => cases ht

theorem memberFields_ne_tag (tag : String) : ∀ f ∈ Shape.memberFields tag, f.name ≠ tagKey := by
  unfold Shape.memberFields
  split
  · simp [Shape.functionFields, tagKey]
  · split
    · simp [Shape.otherFields, tagKey]
    · simp [Shape.declarationFields, tagKey]

theorem refines {v v' rest : Json} {tag : String} (ht : splitTag v = some (tag, rest))
    (h : Reshaped (⟨tagKey, .leaf, none⟩ :: Shape.memberFields tag) v v') :
    Refines (decode v) (decode v') := by
  obtain ⟨rest', ht', hrest⟩ := splitTag_reshaped (memberFields_ne_tag tag) h ht
  rw [decode, decode, ht, ht']
  unfold Shape.memberFields at hrest
  show Refines (if tag = "function" then _ else _) (if tag = "function" then _ else _)
  split at hrest
  next hfunction =>
    rw [if_pos hfunction, if_pos hfunction]
    exact (FunctionDef.refines hrest).bind_same _
  next hfunction =>
    rw [if_neg hfunction, if_neg hfunction]
    split at hrest
    next hother =>
      rw [if_pos hother, if_pos hother]
      exact refines_other hrest
    next hother =>
      rw [if_neg hother, if_neg hother]
      exact (Refines.refl _).bind fun _ => (Declaration.refines hrest).bind_same _

end Member

/-! ## Types and symbols -/

/-- How the content of a tagged value is read. -/
def Json.contentReading (reading : Reading) : Json → Reading
  | .obj fields => if contentFirst fields then .buffered else reading
  | _ => reading

theorem tagged_reshaped {kinds : List String} {reading reading' : Reading} {v v' : Json} {t : Shape}
    {kind : String} {content : Option Json} (h : Reshaped (Shape.taggedFields t) v v')
    (ht : v.tagged kinds reading = some (kind, content, reading')) :
    ∃ content', v'.tagged kinds reading = some (kind, content', v'.contentReading reading) ∧
      reading' = v.contentReading reading ∧ FieldRefines ⟨contentKey, t, none⟩ content content' := by
  cases h with
  | @obj fields fields' h =>
      obtain ⟨k, hk, hname, hcontent, rfl⟩ := tagged_obj_eq_some_iff.mp ht
      obtain ⟨hkind, hrest⟩ := List.forall_mem_cons.mp h
      obtain ⟨k', hk', hkk'⟩ := hkind _ hk
      obtain ⟨content', hcontent', hrefines⟩ := hrest _ List.mem_cons_self _ hcontent
      rw [hkk'.eq_of_leaf] at hk'
      exact ⟨content', tagged_obj_eq_some_iff.mpr ⟨k, hk', hname, hcontent', rfl⟩, rfl, hrefines⟩
  | @arr items items' h =>
      obtain ⟨k, c, rfl, hname, rfl, rfl⟩ := tagged_arr_eq_some_iff.mp ht
      cases h with
      | cons hk h =>
          cases hk.eq_of_leaf
          cases h with
          | @cons _ _ _ c' _ rest hc hrest =>
              obtain rfl : rest = [] := List.eq_nil_of_length_eq_zero hrest.length_eq
              exact ⟨some c', tagged_arr_eq_some_iff.mpr ⟨k, c', rfl, hname, rfl, rfl⟩, rfl, hc⟩

/-- A kind makes the same of content that is respelled. -/
theorem Variants.ofTagged_refines {α : Type} {variants : Variants α}
    {part : Reading → Json → Option α} {whole : Shape} {kind : String} {content content' : Option Json}
    {reading : Reading} (hone : whole.Respects (part reading))
    (hmany : (Shape.list whole).Respects (list? (part reading)))
    (h : FieldRefines ⟨contentKey, Shape.contentShape whole (variants.lookup kind), none⟩ content content') :
    Refines (variants.ofTagged part kind content reading)
      (variants.ofTagged part kind content' reading) := by
  rw [ofTagged, ofTagged]
  cases hkind : variants.lookup kind with
  | none => exact .none _
  | some c =>
      rw [hkind] at h
      cases c with
      | one make => exact (h.required hone rfl).map make
      | many make => exact (h.required hmany rfl).map make
      | nothing value =>
          rw [h.eq_of_leaf]
          exact .refl _
      | primitive make =>
          rw [h.eq_of_leaf]
          exact .refl _
      | text make =>
          rw [h.eq_of_leaf]
          exact .refl _

namespace TypeDesc

theorem refines {v v' : Json} {kind : String} {content : Option Json} {reading : Reading}
    (ht : v.tagged variants.kinds .buffered = some (kind, content, reading))
    (h : Reshaped (Shape.taggedFields (Shape.typeContent kind)) v v') :
    Refines (decode .buffered v) (decode .buffered v') := by
  obtain ⟨content', ht', rfl, hcontent⟩ := tagged_reshaped h ht
  -- Whatever comes first in a value that was put aside, its content was put aside with it.
  have hbuffered : ∀ w : Json, w.contentReading .buffered = .buffered := by
    intro w
    cases w <;> simp [contentReading]
  rw [decode, decode, Variants.read_eq, Variants.read_eq, ht, ht', hbuffered, hbuffered]
  exact Variants.ofTagged_refines (Shape.respects_self .type) (Shape.respects_self (.list .type)) hcontent

end TypeDesc

namespace TypeSymbol

/-- Content can be put aside, and it can be read in place instead if it is spelled for that. -/
theorem ofTagged_refines_reading {kind : String} {content : Option Json} {reading reading' : Reading}
    (h : reading' = reading ∨ reading' = .buffered ∨ ∀ c ∈ content, c.InPlace) :
    Refines (variants.ofTagged read kind content reading)
      (variants.ofTagged read kind content reading') := by
  intro s hs
  have hiff : variants.ofTagged read kind content .direct = some s ↔
      variants.ofTagged read kind content .buffered = some s ∧ ∀ c ∈ content, c.InPlace :=
    ofTagged_direct_iff fun _ _ _ => read_direct_iff
  cases reading with
  | direct =>
      cases reading' with
      | direct => exact hs
      | buffered => exact (hiff.mp hs).1
  | buffered =>
      cases reading' with
      | direct =>
          obtain h | h | h := h
          · cases h
          · cases h
          · exact hiff.mpr ⟨hs, h⟩
      | buffered => exact hs

/-- The content of a symbol is read as before, or it is put aside now, or it can be read in place. -/
def ReadingKept (reading : Reading) (v v' : Json) : Prop :=
  v'.contentReading reading = v.contentReading reading ∨
    v'.contentReading reading = .buffered ∨
    ∀ kind content reading', v'.tagged variants.kinds reading = some (kind, content, reading') →
      ∀ c ∈ content, c.InPlace

theorem refines {v v' : Json} {kind : String} {content : Option Json} {reading reading' : Reading}
    (ht : v.tagged variants.kinds reading = some (kind, content, reading'))
    (h : Reshaped (Shape.taggedFields (Shape.symbolContent reading' kind)) v v')
    (hplace : ReadingKept reading v v') :
    Refines (read reading v) (read reading v') := by
  obtain ⟨content', ht', rfl, hcontent⟩ := tagged_reshaped h ht
  rw [read, read, Variants.read_eq, Variants.read_eq, ht, ht']
  intro s hs
  have hkept := Variants.ofTagged_refines (Shape.respects_self (.symbol _))
    (Shape.respects_self (.list (.symbol _))) hcontent
  refine ofTagged_refines_reading ?_ s (hkept s hs)
  obtain hplace | hplace | hplace := hplace
  · exact .inl hplace
  · exact .inr (.inl hplace)
  · exact .inr (.inr (hplace _ _ _ ht'))

end TypeSymbol

/-! ## Values with fields -/

namespace Shape

theorem memberFields_nodup (tag : String) :
    ((⟨Member.tagKey, .leaf, none⟩ :: memberFields tag).map FieldShape.name).Nodup := by
  unfold memberFields
  split
  · decide
  · split
    · decide
    · decide

theorem recordFields_nodup {s : Shape} {fs : List FieldShape} (h : s.recordFields = some fs) :
    (fs.map FieldShape.name).Nodup := by
  cases s with
  | form name =>
      unfold recordFields formFields at h
      dsimp only at h
      split at h <;> cases h <;> decide
  | _ => cases h <;> decide

theorem taggedFields_nodup (t : Shape) : ((taggedFields t).map FieldShape.name).Nodup := by
  simp [taggedFields, kindKey, contentKey]

theorem layout_nodup {s : Shape} {v : Json} {fs : List FieldShape} (h : s.layout v = some fs) :
    (fs.map FieldShape.name).Nodup := by
  unfold layout at h
  split at h
  · obtain ⟨t, -, rfl⟩ := Option.map_eq_some_iff.mp h
    exact memberFields_nodup t.1
  · obtain ⟨t, -, rfl⟩ := Option.map_eq_some_iff.mp h
    exact taggedFields_nodup _
  · obtain ⟨t, -, rfl⟩ := Option.map_eq_some_iff.mp h
    exact taggedFields_nodup _
  · exact recordFields_nodup h

/-- A value with fields keeps its result if it is reshaped. -/
theorem refines_of_layout {s : Shape} {v v' : Json} {fs : List FieldShape}
    (hlayout : s.layout v = some fs) (h : Reshaped fs v v')
    (hplace : ∀ reading, s = .symbol reading → TypeSymbol.ReadingKept reading v v') :
    Refines (s.decode v) (s.decode v') := by
  cases s with
  | package =>
      cases hlayout
      exact Package.refines h
  | module =>
      cases hlayout
      exact Module.refines h
  | document =>
      cases hlayout
      exact Document.refines h
  | member =>
      obtain ⟨⟨tag, rest⟩, ht, rfl⟩ := Option.map_eq_some_iff.mp hlayout
      exact Member.refines ht h
  | annotationRecord =>
      cases hlayout
      exact Annotation.refines h
  | parameter =>
      cases hlayout
      exact Parameter.refines h
  | defaultable =>
      cases hlayout
      exact ParameterKind.refines_default h
  | type =>
      obtain ⟨⟨kind, content, reading⟩, ht, rfl⟩ := Option.map_eq_some_iff.mp hlayout
      exact TypeDesc.refines ht h
  | symbol reading =>
      obtain ⟨⟨kind, content, reading'⟩, ht, rfl⟩ := Option.map_eq_some_iff.mp hlayout
      exact TypeSymbol.refines ht h (hplace reading rfl)
  | form name => exact Expression.refines_form hlayout h
  | qualifiedName =>
      cases hlayout
      exact QualifiedName.refines h
  | location =>
      cases hlayout
      exact Location.refines h
  | _ => cases hlayout

end Shape

end FunctionService
