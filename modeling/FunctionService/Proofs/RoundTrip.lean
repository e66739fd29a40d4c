import FunctionService.Proofs.KnownFields
import Mathlib

/-!
# Reading back what was written

Every package is read back from its JSON form (`Package.decode_encode`), and so from each text that
spells that form (`Package.ofText?_of_encode`), since nothing in such a text is stepped over. One lemma
a type says that its decoder undoes its encoder. For the recursive types the statement is about every
bound that exceeds the depth of the JSON form, and the induction is on the type, with the lists in it
as further members of the induction.
-/

namespace FunctionService

open Json

/-! ## Shapes -/

namespace Json

variable {α : Type} {decode : Json → Option α} {encode : α → Json}

@[simp] theorem slot_nil (key : String) : slot [] key = some none :=
  rfl

@[simp] theorem slot_cons_of_ne {key name : String} (h : name ≠ key) (value : Json)
    (fields : List (String × Json)) : slot ((name, value) :: fields) key = slot fields key := by
  simp [slot, valuesAt, h]

@[simp] theorem slot_cons_self {key : String} {fields : List (String × Json)}
    (h : ∀ field ∈ fields, field.1 ≠ key) (value : Json) :
    slot ((key, value) :: fields) key = some (some value) := by
  have hnone : fields.filter (fun field => field.1 == key) = [] :=
    List.filter_eq_nil_iff.mpr fun field hfield => by simpa using h field hfield
  simp [slot, valuesAt, hnone]

@[simp] theorem slots_obj (names : List String) (fields : List (String × Json)) :
    slots names (.obj fields) = names.mapM (slot fields) :=
  rfl

@[simp] theorem required_some (value : Json) : required decode (some value) = decode value :=
  rfl

@[simp] theorem orElse_some (default : α) (value : Json) :
    orElse default decode (some value) = decode value :=
  rfl

@[simp] theorem text?_str (text : String) : text? (.str text) = some text :=
  rfl

@[simp] theorem bool?_bool (value : Bool) : bool? (.bool value) = some value :=
  rfl

@[simp] theorem uint64?_nat (n : UInt64) : uint64? (.nat n.toNat) = some n := by
  have hlt : (n.toNat : Int) < 18446744073709551616 := Int.ofNat_lt.mpr n.toNat_lt_size
  simp [uint64?, natBelow?, nat, hlt]

@[simp] theorem int64?_int (n : Int64) : int64? (.int n.toInt) = some n := by
  have hle := n.le_toInt
  have hlt := n.toInt_lt
  have hrange : -0x8000000000000000 ≤ n.toInt ∧ n.toInt < 0x8000000000000000 := by omega
  simp [int64?, hrange]

theorem mapM_map {β : Type} {decode : β → Option α} {encode : α → β}
    (h : ∀ a, decode (encode a) = some a) (as : List α) :
    (as.map encode).mapM decode = some as := by
  induction as with
  | nil => rfl
  | cons a as ih => rw [List.map_cons, List.mapM_cons, h, ih]; rfl

theorem list?_map (h : ∀ a, decode (encode a) = some a) (as : List α) :
    list? decode (.arr (as.map encode)) = some as :=
  mapM_map h as

theorem nullable_ofOption (hnull : ∀ a, encode a ≠ .null) (h : ∀ a, decode (encode a) = some a)
    (a : Option α) : nullable decode (.ofOption encode a) = some a := by
  cases a with
  | none => rfl
  | some a =>
      rw [ofOption, nullable]
      · rw [h]; rfl
      · exact hnull a

end Json

-- Stated for any values of the fields, so that no step has the kernel evaluate the range test of
-- `uint64?` at a number that is not a literal. Records that hold a location are treated alike below.
theorem Location.decode_obj {file startLine startCol endLine endCol : Json} {l : Location}
    (hfile : text? file = some l.file.text) (hstartLine : uint64? startLine = some l.startLine)
    (hstartCol : uint64? startCol = some l.startCol) (hendLine : uint64? endLine = some l.endLine)
    (hendCol : uint64? endCol = some l.endCol) :
    Location.decode (.obj [("file", file), ("start_line", startLine), ("start_col", startCol),
      ("end_line", endLine), ("end_col", endCol)]) = some l := by
  simp [Location.decode, hfile, hstartLine, hstartCol, hendLine, hendCol]

@[simp] theorem Location.decode_encode (l : Location) : Location.decode l.encode = some l :=
  Location.decode_obj rfl (uint64?_nat _) (uint64?_nat _) (uint64?_nat _) (uint64?_nat _)

@[simp] theorem Primitive.decode_encode (reading : Reading) (p : Primitive) :
    Primitive.decode reading p.encode = some p := by
  cases p <;> rfl

@[simp] theorem QualifiedName.decode_encode (q : QualifiedName) :
    QualifiedName.decode q.encode = some q := by
  have hmodule := nullable_ofOption (fun _ => Json.noConfusion) text?_str q.module
  simp [QualifiedName.decode, QualifiedName.encode, hmodule]

/-! ## Types and expressions -/

-- The kind is written before the content, so the content is read as the value itself is.
@[simp] theorem tagged_encodeTagged (kinds : List String) (reading : Reading) (kind : String)
    (content : Json) :
    tagged kinds reading (encodeTagged kind content) = some (kind, some content, reading) := by
  simp [tagged, encodeTagged, kindKey, contentKey, contentFirst, plainChoice, choice]

theorem depth_content_lt {kind : String} {content : Json} {room : Nat}
    (h : (encodeTagged kind content).depth < room + 1) : content.depth < room := by
  simpa [encodeTagged, depth, depthFields] using h

theorem Variants.readWithin_encodeTagged {α : Type} (variants : Variants α) (room : Nat)
    (reading : Reading) (kind : String) (content : Json) :
    variants.readWithin (room + 1) reading (encodeTagged kind content) =
      variants.ofTagged (variants.readWithin room) kind (some content) reading := by
  simp [readWithin]

/-- A kind without content is written alone. -/
theorem Variants.readWithin_kind {α : Type} (variants : Variants α) (room : Nat) (reading : Reading)
    (kind : String) :
    variants.readWithin (room + 1) reading (.obj [(kindKey, .str kind)]) =
      variants.ofTagged (variants.readWithin room) kind none reading := by
  simp [readWithin, tagged, kindKey, contentKey, plainChoice, choice, contentFirst]

namespace TypeDesc

mutual

/-- A type is read back whenever the bound on the levels exceeds the depth of its JSON form. -/
theorem readWithin_encode (reading : Reading) :
    ∀ (t : TypeDesc) (room : Nat), t.encode.depth < room →
      variants.readWithin room reading t.encode = some t
  | .primitive p, room + 1, _ => by
    rw [encode, Variants.readWithin_encodeTagged]
    exact congrArg (Option.map TypeDesc.primitive) (Primitive.decode_encode reading p)
  | .array element, room + 1, h => by
    have ih := readWithin_encode reading element room (depth_content_lt h)
    rw [encode, Variants.readWithin_encodeTagged]
    exact congrArg (Option.map TypeDesc.array) ih
  | .map value, room + 1, h => by
    have ih := readWithin_encode reading value room (depth_content_lt h)
    rw [encode, Variants.readWithin_encodeTagged]
    exact congrArg (Option.map TypeDesc.map) ih
  | .table row, room + 1, h => by
    have ih := readWithin_encode reading row room (depth_content_lt h)
    rw [encode, Variants.readWithin_encodeTagged]
    exact congrArg (Option.map TypeDesc.table) ih
  | .named _, _ + 1, _ => by
    rw [encode, Variants.readWithin_encodeTagged]
    rfl
  | .nil, _ + 1, _ => by
    rw [encode, Variants.readWithin_kind]
    rfl
  | .union members, room + 1, h => by
    -- The members are one level further down, behind the array that holds them.
    have ih := mapM_readWithin_encodeMembers reading members room
      (Nat.lt_of_succ_lt (depth_content_lt h))
    rw [encode, Variants.readWithin_encodeTagged]
    exact congrArg (Option.map TypeDesc.union) ih
  | .other _, _ + 1, _ => by
    rw [encode, Variants.readWithin_encodeTagged]
    rfl

theorem mapM_readWithin_encodeMembers (reading : Reading) :
    ∀ (members : List TypeDesc) (room : Nat), depthItems (encodeMembers members) < room →
      (encodeMembers members).mapM (variants.readWithin room reading) = some members
  | [], _, _ => rfl
  | member :: rest, room, h => by
    rw [encodeMembers, depthItems, Nat.max_lt] at h
    have ihmember := readWithin_encode reading member room h.1
    have ihrest := mapM_readWithin_encodeMembers reading rest room h.2
    simp [encodeMembers, ihmember, ihrest]

end

end TypeDesc

/-- A symbol is read back whenever the bound on the levels exceeds the depth of its JSON form. -/
theorem TypeSymbol.readWithin_encode (reading : Reading) :
    ∀ (s : TypeSymbol) (room : Nat), s.encode.depth < room →
      variants.readWithin room reading s.encode = some s
  | .primitive p, _ + 1, _ => by
    rw [encode, Variants.readWithin_encodeTagged]
    exact congrArg (Option.map TypeSymbol.primitive) (Primitive.decode_encode reading p)
  | .record, _ + 1, _ => by
    rw [encode, Variants.readWithin_kind]
    rfl
  | .array element, room + 1, h => by
    have ih := readWithin_encode reading element room (depth_content_lt h)
    rw [encode, Variants.readWithin_encodeTagged]
    exact congrArg (Option.map TypeSymbol.array) ih
  | .map value, room + 1, h => by
    have ih := readWithin_encode reading value room (depth_content_lt h)
    rw [encode, Variants.readWithin_encodeTagged]
    exact congrArg (Option.map TypeSymbol.map) ih
  | .table row, room + 1, h => by
    have ih := readWithin_encode reading row room (depth_content_lt h)
    rw [encode, Variants.readWithin_encodeTagged]
    exact congrArg (Option.map TypeSymbol.table) ih
  | .alias _, _ + 1, _ => by
    rw [encode, Variants.readWithin_encodeTagged]
    rfl
  | .other _, _ + 1, _ => by
    rw [encode, Variants.readWithin_encodeTagged]
    rfl

theorem Json.withPayload_obj {α : Type} (read : String → Json → Option α) (form : String)
    (payload : Json) : (Json.obj [(form, payload)]).withPayload read = read form payload :=
  rfl

mutual

/-- An expression is read back whenever the bound on the levels exceeds the depth of its JSON form. -/
theorem Expression.decodeWithin_encode :
    ∀ (e : Expression) (room : Nat), e.encode.depth < room →
      Expression.decodeWithin room e.encode = some e
  | .name _, _ + 1, _ => by
    rw [Expression.encode, Expression.decodeWithin, withPayload_obj]
    rfl
  -- The payload of a form lies two levels below the expression, and the reader spends one on it.
  | .fieldAccess target _, room + 1, h => by
    simp only [Expression.encode, depth, depthFields] at h
    have ih := Expression.decodeWithin_encode target room (by omega)
    rw [Expression.encode, Expression.decodeWithin, withPayload_obj, Expression.ofForm]
    simp [ih]
  | .elvis left right, room + 1, h => by
    simp only [Expression.encode, depth, depthFields] at h
    have ihleft := Expression.decodeWithin_encode left room (by omega)
    have ihright := Expression.decodeWithin_encode right room (by omega)
    rw [Expression.encode, Expression.decodeWithin, withPayload_obj, Expression.ofForm]
    simp [ihleft, ihright]
  | .list items, room + 1, h => by
    simp only [Expression.encode, depth, depthFields] at h
    have ih := mapM_decodeWithin_encodeExpressions items room (by omega)
    rw [Expression.encode, Expression.decodeWithin, withPayload_obj, Expression.ofForm]
    simp [list?, ih]
  | .call _ arguments, room + 1, h => by
    simp only [Expression.encode, depth, depthFields] at h
    have ih := mapM_decodeWithin_encodeArguments arguments room (by omega)
    rw [Expression.encode, Expression.decodeWithin, withPayload_obj, Expression.ofForm]
    simp [list?, ih]
  | .new typeName arguments, room + 1, h => by
    simp only [Expression.encode, depth, depthFields] at h
    have ih := mapM_decodeWithin_encodeArguments arguments room (by omega)
    rw [Expression.encode, Expression.decodeWithin, withPayload_obj, Expression.ofForm]
    simp [list?, ih]
  | .int _, _ + 1, _ => by
    rw [Expression.encode, Expression.decodeWithin, withPayload_obj, Expression.ofForm]
    simp
  | .source _, _ + 1, _ => by
    rw [Expression.encode, Expression.decodeWithin, withPayload_obj]
    rfl

theorem Argument.decodeWithin_encode :
    ∀ (a : Argument) (room : Nat), a.encode.depth < room →
      Argument.decodeWithin room a.encode = some a
  | .positional value, room + 1, h => by
    simp only [Argument.encode, depth, depthFields] at h
    have ih := Expression.decodeWithin_encode value room (by omega)
    rw [Argument.encode, Argument.decodeWithin, withPayload_obj, Argument.ofForm, ih]
    rfl
  | .rest values, room + 1, h => by
    simp only [Argument.encode, depth, depthFields] at h
    have ih := Expression.decodeWithin_encode values room (by omega)
    rw [Argument.encode, Argument.decodeWithin, withPayload_obj, Argument.ofForm, ih]
    rfl

theorem mapM_decodeWithin_encodeExpressions :
    ∀ (items : List Expression) (room : Nat), depthItems (encodeExpressions items) < room →
      (encodeExpressions items).mapM (Expression.decodeWithin room) = some items
  | [], _, _ => rfl
  | item :: rest, room, h => by
    rw [encodeExpressions, depthItems, Nat.max_lt] at h
    have ihitem := Expression.decodeWithin_encode item room h.1
    have ihrest := mapM_decodeWithin_encodeExpressions rest room h.2
    simp [encodeExpressions, ihitem, ihrest]

theorem mapM_decodeWithin_encodeArguments :
    ∀ (arguments : List Argument) (room : Nat), depthItems (encodeArguments arguments) < room →
      (encodeArguments arguments).mapM (Argument.decodeWithin room) = some arguments
  | [], _, _ => rfl
  | argument :: rest, room, h => by
    rw [encodeArguments, depthItems, Nat.max_lt] at h
    have ihargument := Argument.decodeWithin_encode argument room h.1
    have ihrest := mapM_decodeWithin_encodeArguments rest room h.2
    simp [encodeArguments, ihargument, ihrest]

end

@[simp] theorem TypeDesc.decode_encode (reading : Reading) (t : TypeDesc) :
    TypeDesc.decode reading t.encode = some t :=
  readWithin_encode reading t _ (Nat.lt_succ_self _)

theorem TypeDesc.encode_ne_null (t : TypeDesc) : t.encode ≠ .null := by
  cases t <;> simp [encode, encodeTagged]

@[simp] theorem TypeSymbol.decode_encode (s : TypeSymbol) : TypeSymbol.decode s.encode = some s :=
  readWithin_encode .direct s _ (Nat.lt_succ_self _)

@[simp] theorem Expression.decode_encode (e : Expression) : Expression.decode e.encode = some e :=
  Expression.decodeWithin_encode e _ (Nat.lt_succ_self _)

/-! ## Symbol tables -/

attribute [ext] SymbolTable

namespace SymbolTable

/-- An entry behind all others goes to the end. -/
theorem insertEntry_of_forall_lt {name : String} (symbol : TypeSymbol) :
    ∀ {entries : List (String × TypeSymbol)}, (∀ e ∈ entries, e.1 < name) →
      insertEntry name symbol entries = entries ++ [(name, symbol)]
  | [], _ => rfl
  | (name', symbol') :: rest, h => by
    have hlt : name' < name := h _ List.mem_cons_self
    have ih := insertEntry_of_forall_lt symbol fun e he => h e (List.mem_cons_of_mem _ he)
    have hne : name ≠ name' := fun heq => String.lt_irrefl name (heq ▸ hlt)
    rw [insertEntry, if_neg (String.lt_asymm hlt), if_neg hne, ih]
    rfl

/-- Bindings in ascending order, behind all those of a table, are appended to it. -/
theorem entries_foldl_insert : ∀ {bindings : List (String × TypeSymbol)} {t : SymbolTable},
    (t.entries ++ bindings).Pairwise (fun a b => a.1 < b.1) →
      (bindings.foldl (fun t b => t.insert b.1 b.2) t).entries = t.entries ++ bindings
  | [], _, _ => (List.append_nil _).symm
  | (name, symbol) :: rest, t, h => by
    have hlast : ∀ e ∈ t.entries, e.1 < name := fun e he =>
      (List.pairwise_append.mp h).2.2 e he _ List.mem_cons_self
    have hinsert : (t.insert name symbol).entries = t.entries ++ [(name, symbol)] :=
      insertEntry_of_forall_lt symbol hlast
    -- With the entry at its end the table is again in front of what is left.
    have hrest : ((t.insert name symbol).entries ++ rest).Pairwise fun a b => a.1 < b.1 := by
      simpa [hinsert] using h
    rw [List.foldl_cons, entries_foldl_insert hrest, hinsert, List.append_assoc]
    rfl

/-- A table is the table of its own entries. -/
theorem ofList_entries (t : SymbolTable) : ofList t.entries = t := by
  have hentries : (ofList t.entries).entries = t.entries := entries_foldl_insert t.ascending
  exact SymbolTable.ext hentries

theorem decode_encode (t : SymbolTable) : decode t.encode = some t := by
  have hentries : (t.entries.map fun e => (e.1, e.2.encode)).mapM
      (fun field => do return (field.1, ← TypeSymbol.decode field.2)) = some t.entries :=
    mapM_map (fun e => by rw [TypeSymbol.decode_encode]; rfl) t.entries
  rw [encode, decode, hentries]
  exact congrArg some t.ofList_entries

end SymbolTable

/-! ## Members, documents, modules and packages -/

@[simp] theorem Qualifier.decode_encode (reading : Reading) (q : Qualifier) :
    Qualifier.decode reading q.encode = some q := by
  cases q <;> rfl

@[simp] theorem Annotation.decode_encode (a : Annotation) : Annotation.decode a.encode = some a := by
  simp [decode, encode]

@[simp] theorem ParameterKind.decode_encode (reading : Reading) (k : ParameterKind) :
    ParameterKind.decode reading k.encode = some k := by
  cases k with
  | required => rfl
  | defaultable default => simp [encode, decode, choice]
  | rest => rfl

@[simp] theorem Parameter.decode_encode (reading : Reading) (p : Parameter) :
    Parameter.decode reading p.encode = some p := by
  simp [decode, encode]

@[simp] theorem FunctionBody.decode_encode (reading : Reading) (b : FunctionBody) :
    FunctionBody.decode reading b.encode = some b := by
  cases b with
  | expression value => simp [encode, decode, choice]
  | block => rfl

theorem FunctionDef.decode_obj (reading : Reading) (f : FunctionDef) {location : Json}
    (hlocation : Location.decode location = some f.location) :
    FunctionDef.decode reading (.obj [
      ("name", .str f.name),
      ("qualifiers", .arr (f.qualifiers.map Qualifier.encode)),
      ("annotations", .arr (f.annotations.map Annotation.encode)),
      ("parameters", .arr (f.parameters.map Parameter.encode)),
      ("return_type", .ofOption TypeDesc.encode f.returnType),
      ("body", f.body.encode),
      ("location", location)]) = some f := by
  have hqualifiers := list?_map (Qualifier.decode_encode reading) f.qualifiers
  have hannotations := list?_map Annotation.decode_encode f.annotations
  have hparameters := list?_map (Parameter.decode_encode reading) f.parameters
  have hreturnType :=
    nullable_ofOption TypeDesc.encode_ne_null (TypeDesc.decode_encode reading) f.returnType
  simp [decode, hqualifiers, hannotations, hparameters, hreturnType, hlocation]

theorem Declaration.decode_obj (d : Declaration) {location : Json}
    (hlocation : Location.decode location = some d.location) :
    Declaration.decode (.obj [("name", .ofOption .str d.name), ("location", location)]) = some d := by
  have hname := nullable_ofOption (fun _ => Json.noConfusion) text?_str d.name
  simp [decode, hname, hlocation]

@[simp] theorem DeclarationKind.ofTag?_tag (k : DeclarationKind) : ofTag? k.tag = some k := by
  cases k <;> rfl

namespace Member

/-- A tag in front of fields without that key is split off, and the fields stay as they are. -/
theorem splitTag_obj {fields : List (String × Json)} (h : ∀ field ∈ fields, field.1 ≠ tagKey)
    (tag : String) : splitTag (.obj ((tagKey, .str tag) :: fields)) = some (tag, .obj fields) := by
  have hrest : fields.filter (fun field => field.1 != tagKey) = fields :=
    List.filter_eq_self.mpr fun field hfield => bne_iff_ne.mpr (h field hfield)
  simp [splitTag, slot_cons_self h, hrest]

theorem decode_function {fields : List (String × Json)} {f : FunctionDef}
    (h : ∀ field ∈ fields, field.1 ≠ tagKey)
    (hf : FunctionDef.decode .buffered (.obj fields) = some f) :
    decode (.obj ((tagKey, .str "function") :: fields)) = some (.function f) := by
  simp [decode, splitTag_obj h, hf]

theorem decode_declaration {fields : List (String × Json)} {d : Declaration}
    (kind : DeclarationKind) (h : ∀ field ∈ fields, field.1 ≠ tagKey)
    (hd : Declaration.decode (.obj fields) = some d) :
    decode (.obj ((tagKey, .str kind.tag) :: fields)) = some (.declaration kind d) := by
  -- The tags of declarations are looked up last, after these two.
  have hfunction : kind.tag ≠ "function" := by cases kind <;> decide
  have hother : kind.tag ≠ "other" := by cases kind <;> decide
  simp [decode, splitTag_obj h, hfunction, hother, hd]

theorem decode_other {location : Json} {l : Location} (kind : String)
    (hlocation : Location.decode location = some l) :
    decode (.obj [(tagKey, .str "other"), ("syntax_kind", .str kind), ("location", location)]) =
      some (.other kind l) := by
  rw [decode, splitTag_obj (by simp [tagKey])]
  simp [decodeOther, hlocation]

theorem decode_encode : ∀ m : Member, decode m.encode = some m
  | .function f =>
    decode_function (by simp [FunctionDef.encodeFields, tagKey])
      (f.decode_obj .buffered (Location.decode_encode f.location))
  | .declaration kind d =>
    decode_declaration kind (by simp [Declaration.encodeFields, tagKey])
      (d.decode_obj (Location.decode_encode d.location))
  | .other kind location => decode_other kind (Location.decode_encode location)

end Member

theorem Document.decode_encode (d : Document) : Document.decode d.encode = some d := by
  simp [decode, encode, list?_map Member.decode_encode]

theorem Module.decode_encode (m : Module) : Module.decode m.encode = some m := by
  simp [decode, encode, list?_map Document.decode_encode]

namespace Package

theorem decode_encode (p : Package) : decode p.encode = some p := by
  simp [decode, encode, list?_map Module.decode_encode, SymbolTable.decode_encode]

theorem ofText?_of_encode {p : Package} {text : String} (h : Json.ofText text = some p.encode) :
    ofText? text = some p := by
  obtain ⟨tree, htree, hvalue⟩ := Option.bind_eq_some_iff.mp h
  have hskim : skim tree = tree := p.keeps_skim tree ⟨_, hvalue⟩
  simp [ofText?, htree, hskim, hvalue, decode_encode]

/-- A package with exactly one default module is read back from its JSON form, and from every text
that spells it. -/
theorem parse_encode {p : Package} (hone : p.defaultModuleCount = 1) (path : Path) :
    (decode p.encode).map (requireDefaultModule path) = some (.ok p) ∧
      ∀ text, Json.ofText text = some p.encode → parse path text = .ok p := by
  have haccept : requireDefaultModule path p = .ok p := by
    simp [requireDefaultModule, hone]
  refine ⟨?_, fun text htext => ?_⟩
  · rw [decode_encode, Option.map_some, haccept]
  · rw [parse, ofText?_of_encode htext]
    exact haccept

/-- A package that fills every field: parameters of all kinds, nested types and expressions, a
declaration without name, a location at the greatest line, and a module that is not the default. -/
def petShop : Package where
  name := "pets"
  modules := [
    { id := "pets"
      name := "pets"
      isDefault := true
      documents := [
        { id := "pets/main"
          name := "main.bal"
          members := [
            .function
              { name := "adopt"
                qualifiers := [.isPublic, .isIsolated]
                annotations := [⟨"doc"⟩]
                parameters := [
                  ⟨"pet", .named "Pet", .required⟩,
                  ⟨"age", .union [.primitive .int, .nil],
                    .defaultable (.elvis (.fieldAccess (.name "pet") "age") (.int (-1)))⟩,
                  ⟨"tags", .array (.map (.primitive .string)), .rest⟩]
                returnType := some (.table (.named "Pet"))
                body := .expression
                  (.call "register" [
                    .positional (.new ⟨some "shop", "Entry"⟩ []),
                    .rest (.list [.source "tags"])])
                location := ⟨⟨"main.bal"⟩, 18446744073709551615, 0, 18446744073709551615, 9⟩ },
            .declaration .class ⟨none, .fileStart ⟨"main.bal"⟩⟩,
            .other "import" (.fileStart ⟨"main.bal"⟩)] }]
      testDocuments := [{ id := "pets/test", name := "test.bal", members := [] }] },
    { id := "shop", name := "shop", isDefault := false, documents := [], testDocuments := [] }]
  hasCompilationErrors := true
  symbols := .ofList [("Pet", .record), ("Age", .alias "int"), ("Pets", .array .record)]

/-- A package whose one module has no document. -/
def bare : Package where
  name := ""
  modules := [{ id := "", name := "", isDefault := true, documents := [], testDocuments := [] }]
  hasCompilationErrors := false
  symbols := .empty

/-- The JSON form of `bare` as a text. -/
def bareText : String :=
  "\x7b\"name\":\"\",\"modules\":[\x7b\"id\":\"\",\"name\":\"\",\"is_default\":true," ++
    "\"documents\":[],\"test_documents\":[]\x7d],\"has_compilation_errors\":false," ++
    "\"symbols\":\x7b\x7d\x7d"

set_option maxRecDepth 4000 in
theorem ofText_bareText : Json.ofText bareText = some bare.encode := by
  cbv

theorem parse_encode_petShop :
    petShop.defaultModuleCount = 1 ∧
    (decode petShop.encode).map (requireDefaultModule ⟨"pets.json"⟩) = some (.ok petShop) ∧
    bare.defaultModuleCount = 1 ∧ parse ⟨"bare.json"⟩ bareText = .ok bare :=
  ⟨rfl, (parse_encode rfl _).1, rfl, (parse_encode rfl _).2 _ ofText_bareText⟩

end Package

end FunctionService
