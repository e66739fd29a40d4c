import FunctionService.Proofs.Shapes
import Mathlib.Logic.Relation

/-!
# Descriptions that differ only in spelling

The objects of a description can be spelled in many ways: keys come in any order, records ignore keys
they do not know, and fields may be left out at their default. `Respells` is one such change, anywhere in a
value of a shape. `Respells.refines` shows, by induction over where the change is made, that it keeps the
result of reading, and `Package.decode_respelled` that no number of changes shows in the package.

One change shows and is left out (`Shape.KeepsPlace`): in a symbol that is read where it stands, the kind
must not be moved in front of a content that was put aside so far and cannot be read in place.
`TypeSymbol.decode_perm_iff` says that nothing less would do, and `Package.decode_keyOrder` is such a symbol.
-/

namespace FunctionService

open Json

namespace Shape

/-- Whether a rearrangement keeps a value readable: a symbol that is read where it stands may have its kind
moved in front of its content only if the content can be read in place. -/
def KeepsPlace (s : Shape) (fields fields' : List (String × Json)) : Prop :=
  s = .symbol .direct → contentFirst fields = true →
    contentFirst fields' = true ∨ ∀ c, (contentKey, c) ∈ fields → c.InPlace

end Shape

/-- One change of spelling in a value of a shape. -/
inductive Respells : Shape → Json → Json → Prop
  /-- The keys of an object come in another order. -/
  | permute {s : Shape} {fields fields' : List (String × Json)} :
      s ≠ .leaf → fields.Perm fields' → (s = .table → (fields.map Prod.fst).Nodup) →
      s.KeepsPlace fields fields' → Respells s (.obj fields) (.obj fields')
  /-- A record, a member or a tagged value gets a key that is none of its fields. -/
  | insert {s : Shape} {before after : List (String × Json)} {fs : List FieldShape} {key : String}
      (value : Json) :
      s.layout (.obj (before ++ after)) = some fs → (∀ f ∈ fs, f.name ≠ key) →
      Respells s (.obj (before ++ after)) (.obj (before ++ (key, value) :: after))
  /-- What stands under such a key is replaced. -/
  | replace {s : Shape} {before after : List (String × Json)} {fs : List FieldShape} {key : String}
      (value value' : Json) :
      s.layout (.obj (before ++ (key, value) :: after)) = some fs → (∀ f ∈ fs, f.name ≠ key) →
      Respells s (.obj (before ++ (key, value) :: after)) (.obj (before ++ (key, value') :: after))
  /-- A field that has its default is left out. -/
  | drop {s : Shape} {before after : List (String × Json)} {fs : List FieldShape} {f : FieldShape}
      {value : Json} :
      s.layout (.obj (before ++ (f.name, value) :: after)) = some fs → f ∈ fs →
      f.default? = some value →
      Respells s (.obj (before ++ (f.name, value) :: after)) (.obj (before ++ after))
  /-- What stands under a field is respelled. -/
  | field {s : Shape} {before after : List (String × Json)} {fs : List FieldShape} {f : FieldShape}
      {value value' : Json} :
      s.layout (.obj (before ++ (f.name, value) :: after)) = some fs → f ∈ fs →
      Respells f.shape value value' →
      Respells s (.obj (before ++ (f.name, value) :: after))
        (.obj (before ++ (f.name, value') :: after))
  /-- The same, where the fields are spelled as an array. -/
  | item {s : Shape} {before after : List Json} {fs : List FieldShape} {f : FieldShape}
      {value value' : Json} :
      s.layout (.arr (before ++ value :: after)) = some fs → fs[before.length]? = some f →
      Respells f.shape value value' →
      Respells s (.arr (before ++ value :: after)) (.arr (before ++ value' :: after))
  /-- What stands behind the name of an alternative is respelled. -/
  | payload {s t : Shape} {name : String} {value value' : Json} :
      s.payload? name = some t → Respells t value value' →
      Respells s (.obj [(name, value)]) (.obj [(name, value')])
  /-- A symbol of a table is respelled. -/
  | entry {before after : List (String × Json)} {name : String} {value value' : Json} :
      Respells (.symbol .direct) value value' →
      Respells .table (.obj (before ++ (name, value) :: after))
        (.obj (before ++ (name, value') :: after))
  /-- An element of a list is respelled. -/
  | element {s : Shape} {before after : List Json} {value value' : Json} :
      Respells s value value' →
      Respells (.list s) (.arr (before ++ value :: after)) (.arr (before ++ value' :: after))

/-! ## Choices -/

theorem choice_perm {fields fields' : List (String × Json)} (h : fields.Perm fields') :
    (Json.obj fields').choice = (Json.obj fields).choice := by
  match fields, fields', h with
  | [], fields', h => rw [h.nil_eq]
  | [field], fields', h => rw [List.perm_singleton.mp h.symm]
  | field :: field₂ :: rest, [], h => cases h.length_eq
  | field :: field₂ :: rest, [_], h => cases h.length_eq
  | field :: field₂ :: rest, _ :: _ :: _, h => rfl

theorem ParameterKind.decode_defaultable (payload : Json) :
    ParameterKind.decode .buffered (.obj [("defaultable", payload)]) =
      ParameterKind.decodeDefault payload >>= fun e => some (.defaultable e) := by
  show (payload.slots ["default"] >>= _) = (payload.slots ["default"] >>= _) >>= _
  rw [bind_assoc]
  refine Option.bind_congr fun os _ => ?_
  match os with
  | [] => rfl
  | [_] => rfl
  | _ :: _ :: _ => rfl

/-- The result of a choice is kept if that of its payload is. -/
theorem refines_payload {s t : Shape} {name : String} {w w' : Json} (ht : s.payload? name = some t)
    (h : Refines (t.decode w) (t.decode w')) :
    Refines (s.decode (.obj [(name, w)])) (s.decode (.obj [(name, w')])) := by
  unfold Shape.payload? at ht
  split at ht <;> cases ht
  · show Refines (ParameterKind.decode .buffered _) (ParameterKind.decode .buffered _)
    rw [ParameterKind.decode_defaultable, ParameterKind.decode_defaultable]
    exact h.bind_same _
  · have hbody : ∀ u, FunctionBody.decode .buffered (.obj [("expression", u)]) =
        Expression.decode u >>= fun e => some (.expression e) := fun _ => rfl
    show Refines (FunctionBody.decode .buffered _) (FunctionBody.decode .buffered _)
    rw [hbody, hbody]
    exact Refines.bind_same h _
  · have hargument : ∀ u, Argument.decode (.obj [("positional", u)]) =
        Expression.decode u >>= fun e => some (.positional e) := fun u => by
      rw [Argument.decode_eq]
      rfl
    show Refines (Argument.decode _) (Argument.decode _)
    rw [hargument, hargument]
    exact Refines.bind_same h _
  · have hargument : ∀ u, Argument.decode (.obj [("rest", u)]) =
        Expression.decode u >>= fun e => some (.rest e) := fun u => by
      rw [Argument.decode_eq]
      rfl
    show Refines (Argument.decode _) (Argument.decode _)
    rw [hargument, hargument]
    exact Refines.bind_same h _
  · have hlist : ∀ u, Expression.decode (.obj [("list", u)]) =
        list? Expression.decode u >>= fun es => some (.list es) := fun u => by
      rw [Expression.decode_eq]
      rfl
    show Refines (Expression.decode _) (Expression.decode _)
    rw [hlist, hlist]
    exact Refines.bind_same h _
  · show Refines (Expression.decode _) (Expression.decode _)
    rw [Expression.decode_eq, Expression.decode_eq]
    exact h

/-! ## Symbol tables -/

namespace SymbolTable

theorem insertEntry_perm {name : String} {symbol : TypeSymbol} :
    ∀ {entries : List (String × TypeSymbol)}, name ∉ entries.map Prod.fst →
      (insertEntry name symbol entries).Perm ((name, symbol) :: entries)
  | [], _ => .refl _
  | (name', symbol') :: rest, h => by
    obtain ⟨hne, hrest⟩ : name ≠ name' ∧ name ∉ rest.map Prod.fst := by simpa using h
    rw [insertEntry, if_neg hne]
    split
    · exact .refl _
    · exact ((insertEntry_perm hrest).cons _).trans (.swap ..)

theorem foldl_insert_perm : ∀ {bindings : List (String × TypeSymbol)} {t : SymbolTable},
    ((t.entries ++ bindings).map Prod.fst).Nodup →
      (bindings.foldl (fun t b => t.insert b.1 b.2) t).entries.Perm (t.entries ++ bindings)
  | [], t, _ => by simp
  | (name, symbol) :: rest, t, h => by
    -- The entry goes to its place in the table, which is a rearrangement of where it stood.
    have hmoved : (t.entries ++ (name, symbol) :: rest).Perm ((name, symbol) :: t.entries ++ rest) :=
      List.perm_middle
    have hfresh : name ∉ t.entries.map Prod.fst := by
      have hnodup := (hmoved.map Prod.fst).nodup_iff.mp h
      simp only [List.cons_append, List.map_cons, List.nodup_cons, List.map_append,
        List.mem_append] at hnodup
      exact fun hmem => hnodup.1 (.inl hmem)
    have hinsert : ((t.insert name symbol).entries ++ rest).Perm (t.entries ++ (name, symbol) :: rest) :=
      ((insertEntry_perm hfresh).append_right rest).trans hmoved.symm
    have hrest := (hinsert.map Prod.fst).nodup_iff.mpr h
    exact (foldl_insert_perm hrest).trans hinsert

/-- Distinct bindings make the same table in any order. -/
theorem ofList_perm {bindings bindings' : List (String × TypeSymbol)} (h : bindings.Perm bindings')
    (hdistinct : (bindings.map Prod.fst).Nodup) : ofList bindings' = ofList bindings := by
  have hentries : (ofList bindings).entries.Perm bindings := foldl_insert_perm hdistinct
  have hentries' : (ofList bindings').entries.Perm bindings' :=
    foldl_insert_perm ((h.map Prod.fst).nodup_iff.mp hdistinct)
  refine SymbolTable.ext (List.Perm.eq_of_pairwise ?_ (ofList bindings').ascending
    (ofList bindings).ascending (hentries'.trans (h.symm.trans hentries.symm)))
  exact fun a b _ _ hab hba => absurd hba (String.lt_asymm hab)

theorem mapM_perm {α β : Type} {f : α → Option β} {xs xs' : List α} (h : xs.Perm xs') {ys : List β}
    (hys : xs.mapM f = some ys) : ∃ ys', xs'.mapM f = some ys' ∧ ys.Perm ys' := by
  induction h generalizing ys with
  | nil => exact ⟨ys, hys, .refl _⟩
  | cons x _ ih =>
      rw [List.mapM_cons] at hys ⊢
      obtain ⟨y, hy, hys⟩ := Option.bind_eq_some_iff.mp hys
      obtain ⟨zs, hzs, hys⟩ := Option.bind_eq_some_iff.mp hys
      cases hys
      obtain ⟨zs', hzs', hperm⟩ := ih hzs
      rw [hy, hzs']
      exact ⟨y :: zs', rfl, hperm.cons y⟩
  | swap x x' xs =>
      cases mapM_eq_some_iff.mp hys with
      | cons hy' hrest =>
          cases hrest with
          | cons hy hrest => exact ⟨_, mapM_eq_some_iff.mpr (.cons hy (.cons hy' hrest)), .swap ..⟩
  | trans _ _ ih ih' =>
      obtain ⟨zs, hzs, hperm⟩ := ih hys
      obtain ⟨ys', hys', hperm'⟩ := ih' hzs
      exact ⟨ys', hys', hperm.trans hperm'⟩

/-- Reads an entry of a table. -/
def decodeEntry (field : String × Json) : Option (String × TypeSymbol) := do
  return (field.1, ← TypeSymbol.decode field.2)

theorem decode_obj (fields : List (String × Json)) :
    decode (.obj fields) = fields.mapM decodeEntry >>= fun bindings => some (ofList bindings) :=
  rfl

theorem map_fst_of_mapM {fields : List (String × Json)} {bindings : List (String × TypeSymbol)}
    (h : fields.mapM decodeEntry = some bindings) : bindings.map Prod.fst = fields.map Prod.fst := by
  induction mapM_eq_some_iff.mp h with
  | nil => rfl
  | cons hentry hrest ih =>
      obtain ⟨symbol, -, hentry⟩ := Option.bind_eq_some_iff.mp hentry
      cases hentry
      rw [List.map_cons, List.map_cons, ih (mapM_eq_some_iff.mpr hrest)]

theorem refines_perm {fields fields' : List (String × Json)} (h : fields.Perm fields')
    (hdistinct : (fields.map Prod.fst).Nodup) :
    Refines (decode (.obj fields)) (decode (.obj fields')) := by
  intro t ht
  rw [decode_obj] at ht ⊢
  obtain ⟨bindings, hbindings, ht⟩ := Option.bind_eq_some_iff.mp ht
  cases ht
  obtain ⟨bindings', hbindings', hperm⟩ := mapM_perm h hbindings
  rw [hbindings']
  exact congrArg some (ofList_perm hperm (map_fst_of_mapM hbindings ▸ hdistinct))

theorem refines_entry {before after : List (String × Json)} {name : String} {w w' : Json}
    (h : Refines (TypeSymbol.decode w) (TypeSymbol.decode w')) :
    Refines (decode (.obj (before ++ (name, w) :: after)))
      (decode (.obj (before ++ (name, w') :: after))) := by
  rw [decode_obj, decode_obj]
  have hentry : Refines (decodeEntry (name, w)) (decodeEntry (name, w')) := h.bind_same _
  exact (hentry.mapM_middle before after).bind_same _

end SymbolTable

/-! ## One change of spelling -/

section Steps

variable {fs : List FieldShape} {before after : List (String × Json)} {key : String} {w w' : Json}

theorem valuesAt_append (key : String) (fields fields' : List (String × Json)) :
    valuesAt key (fields ++ fields') = valuesAt key fields ++ valuesAt key fields' := by
  simp [valuesAt]

theorem slot_perm {fields fields' : List (String × Json)} (h : fields.Perm fields') (key : String) :
    slot fields' key = slot fields key := by
  have hvalues : (valuesAt key fields).Perm (valuesAt key fields') := (h.filter _).map _
  unfold slot
  match hone : valuesAt key fields, valuesAt key fields', hvalues with
  | [], _, hvalues => rw [hvalues.nil_eq]
  | [value], _, hvalues => rw [List.perm_singleton.mp hvalues.symm]
  | _ :: _ :: _, [], hvalues => cases hvalues.length_eq
  | _ :: _ :: _, [_], hvalues => cases hvalues.length_eq
  | _ :: _ :: _, _ :: _ :: _, _ => rfl

theorem slot_insert_of_ne {name : String} (h : name ≠ key) :
    slot (before ++ (key, w) :: after) name = slot (before ++ after) name := by
  have hvalues : valuesAt name ((key, w) :: after) = valuesAt name after := by
    simp [valuesAt, h.symm]
  rw [slot, slot, valuesAt_append, valuesAt_append, hvalues]

theorem slot_replace_of_ne {name : String} (h : name ≠ key) :
    slot (before ++ (key, w') :: after) name = slot (before ++ (key, w) :: after) name := by
  rw [slot_insert_of_ne h, slot_insert_of_ne h]

/-- A field that is read stands once, so without it its place is empty, and another value there is the
one that is read. -/
theorem slot_middle (w' : Json) {o : Option Json} (h : slot (before ++ (key, w) :: after) key = some o) :
    o = some w ∧ slot (before ++ after) key = some none ∧
      slot (before ++ (key, w') :: after) key = some (some w') := by
  have hcons : ∀ u : Json, valuesAt key ((key, u) :: after) = u :: valuesAt key after := fun u => by
    simp [valuesAt]
  have ho : o = some w := eq_of_slot h (by simp)
  obtain ⟨hbefore, hafter⟩ : valuesAt key before = [] ∧ valuesAt key after = [] := by
    rw [slot, valuesAt_append, hcons] at h
    cases hb : valuesAt key before with
    | nil =>
        rw [hb] at h
        cases ha : valuesAt key after with
        | nil => exact ⟨rfl, rfl⟩
        | cons u us =>
            rw [ha] at h
            cases h
    | cons u us =>
        rw [hb] at h
        cases us <;> cases h
  refine ⟨ho, ?_, ?_⟩
  · rw [slot, valuesAt_append, hbefore, hafter]
    rfl
  · rw [slot, valuesAt_append, hcons, hbefore, hafter]
    rfl

theorem reshaped_of_slots_eq {fields fields' : List (String × Json)}
    (h : ∀ f ∈ fs, slot fields' f.name = slot fields f.name) :
    Reshaped fs (.obj fields) (.obj fields') :=
  .obj fun f hf o ho => ⟨o, (h f hf).trans ho, .same o⟩

/-- A change at one of the fields leaves the others as they are. -/
theorem reshaped_field {f : FieldShape} (hdistinct : (fs.map FieldShape.name).Nodup) (hf : f ∈ fs)
    {fields' : List (String × Json)}
    (hother : ∀ name, name ≠ f.name → slot fields' name = slot (before ++ (f.name, w) :: after) name)
    (hsame : ∀ o, slot (before ++ (f.name, w) :: after) f.name = some o →
      ∃ o', slot fields' f.name = some o' ∧ FieldRefines f o o') :
    Reshaped fs (.obj (before ++ (f.name, w) :: after)) (.obj fields') := by
  refine .obj fun g hg o ho => ?_
  by_cases hname : g.name = f.name
  · obtain rfl : g = f := List.inj_on_of_nodup_map hdistinct hg hf hname
    exact hsame o ho
  · exact ⟨o, (hother _ hname).trans ho, .same o⟩

theorem itemsRefine_middle {f : FieldShape} {items rest : List Json}
    (hf : fs[items.length]? = some f) (h : FieldRefines f (some w) (some w')) :
    ItemsRefine fs (items ++ w :: rest) (items ++ w' :: rest) := by
  have hsame : ∀ (gs : List FieldShape) (ws : List Json), ItemsRefine gs ws ws := by
    intro gs ws
    induction gs generalizing ws with
    | nil => exact .beyond ws
    | cons g gs ih =>
        cases ws with
        | nil => exact .nil _
        | cons u us => exact .cons (.same _) (ih us)
  induction items generalizing fs with
  | nil =>
      cases fs with
      | nil => cases hf
      | cons g gs =>
          cases hf
          exact .cons h (hsame gs rest)
  | cons item items ih =>
      cases fs with
      | nil => cases hf
      | cons g gs => exact .cons (.same _) (ih hf)

theorem contentFirst_eq (fields : List (String × Json)) :
    contentFirst fields =
      ((fields.map Prod.fst).find? fun key => key == kindKey || key == contentKey).any
        fun key => key == contentKey := by
  rw [contentFirst, List.find?_map, Option.any_map]
  rfl

theorem contentFirst_insert (hkind : kindKey ≠ key) (hcontent : contentKey ≠ key) :
    contentFirst (before ++ (key, w) :: after) = contentFirst (before ++ after) := by
  simp [contentFirst_eq, List.find?_append, hkind.symm, hcontent.symm]

theorem contentFirst_replace :
    contentFirst (before ++ (key, w') :: after) = contentFirst (before ++ (key, w) :: after) := by
  simp [contentFirst_eq]

end Steps

namespace Shape

theorem readingKept_of_contentFirst {reading : Reading} {fields fields' : List (String × Json)}
    (h : contentFirst fields' = contentFirst fields) :
    TypeSymbol.ReadingKept reading (.obj fields) (.obj fields') := by
  rw [TypeSymbol.ReadingKept, contentReading, contentReading, h]
  exact .inl rfl

theorem readingKept_permute {reading : Reading} {fields fields' : List (String × Json)}
    (hperm : fields.Perm fields') (hplace : (symbol reading).KeepsPlace fields fields') :
    TypeSymbol.ReadingKept reading (.obj fields) (.obj fields') := by
  rw [TypeSymbol.ReadingKept, contentReading, contentReading]
  cases hfirst' : contentFirst fields' with
  | true => exact .inr (.inl rfl)
  | false =>
      cases reading with
      | buffered => exact .inr (.inl rfl)
      | direct =>
          cases hfirst : contentFirst fields with
          | false => exact .inl rfl
          | true =>
              obtain h | h := hplace rfl hfirst
              · rw [hfirst'] at h
                cases h
              · refine .inr (.inr fun kind content reading' ht c hc => h c ?_)
                obtain ⟨-, -, -, hcontent, -⟩ := tagged_obj_eq_some_iff.mp ht
                rw [Option.mem_def.mp hc] at hcontent
                exact hperm.mem_iff.mpr (mem_of_slot hcontent)

/-- The keys of a symbol are among its fields. -/
theorem ne_of_layout_symbol {s : Shape} {v : Json} {fs : List FieldShape} {key : String}
    {reading : Reading} (hs : s = .symbol reading) (hlayout : s.layout v = some fs)
    (hkey : ∀ f ∈ fs, f.name ≠ key) : kindKey ≠ key ∧ contentKey ≠ key := by
  subst hs
  obtain ⟨t, -, rfl⟩ := Option.map_eq_some_iff.mp hlayout
  exact ⟨hkey _ List.mem_cons_self, hkey _ (List.mem_cons_of_mem _ List.mem_cons_self)⟩

theorem ofForm_obj_eq_none {name : String} (h : formFields name = none)
    (fields : List (String × Json)) :
    Expression.ofForm Expression.decode Argument.decode name (.obj fields) = none := by
  unfold Expression.ofForm
  split
  · rfl
  · cases h
  · cases h
  · rfl
  · cases h
  · cases h
  · rfl
  · rfl
  · rfl

/-- Rearranging the keys of an object keeps its result. -/
theorem refines_permute {s : Shape} {fields fields' : List (String × Json)} (hleaf : s ≠ .leaf)
    (hperm : fields.Perm fields') (hdistinct : s = .table → (fields.map Prod.fst).Nodup)
    (hplace : s.KeepsPlace fields fields') :
    Refines (s.decode (.obj fields)) (s.decode (.obj fields')) := by
  cases hlayout : s.layout (.obj fields) with
  | some fs =>
      exact refines_of_layout hlayout (reshaped_of_slots_eq fun f _ => slot_perm hperm f.name)
        fun _ hs => readingKept_permute hperm (hs ▸ hplace)
  | none =>
      have hchoice := choice_perm hperm
      cases s with
      | member =>
          have hdecode : Member.decode (.obj fields) = none := by
            rw [Member.decode, Option.map_eq_none_iff.mp hlayout]
            rfl
          show Refines (Member.decode (.obj fields)) _
          rw [hdecode]
          exact .none _
      | type =>
          show Refines (TypeDesc.decode .buffered (.obj fields)) _
          rw [TypeDesc.decode, Variants.read_eq, Option.map_eq_none_iff.mp hlayout]
          exact .none _
      | symbol reading =>
          show Refines (TypeSymbol.read reading (.obj fields)) _
          rw [TypeSymbol.read, Variants.read_eq, Option.map_eq_none_iff.mp hlayout]
          exact .none _
      | parameterKind =>
          show Refines (ParameterKind.decode .buffered _) (ParameterKind.decode .buffered _)
          rw [ParameterKind.decode, ParameterKind.decode, hchoice]
          exact .refl _
      | body =>
          show Refines (FunctionBody.decode .buffered _) (FunctionBody.decode .buffered _)
          rw [FunctionBody.decode, FunctionBody.decode, hchoice]
          exact .refl _
      | expression =>
          show Refines (Expression.decode _) (Expression.decode _)
          rw [Expression.decode_eq, Expression.decode_eq, withPayload, withPayload, hchoice]
          exact .refl _
      | argument =>
          show Refines (Argument.decode _) (Argument.decode _)
          rw [Argument.decode_eq, Argument.decode_eq, withPayload, withPayload, hchoice]
          exact .refl _
      | form name =>
          show Refines (Expression.ofForm _ _ name (.obj fields)) _
          rw [ofForm_obj_eq_none hlayout]
          exact .none _
      | table => exact SymbolTable.refines_perm hperm (hdistinct rfl)
      | list item => exact .none _
      | leaf => exact absurd rfl hleaf
      | _ => cases hlayout

end Shape

/-- Only objects and arrays are respelled, so no field becomes absent or present by it. -/
theorem Respells.ne_null {s : Shape} {v v' : Json} (h : Respells s v v') : v ≠ .null ∧ v' ≠ .null := by
  cases h <;> exact ⟨Json.noConfusion, Json.noConfusion⟩

/-- One change of spelling keeps the result. -/
theorem Respells.refines {s : Shape} {v v' : Json} (h : Respells s v v') :
    Refines (s.decode v) (s.decode v') := by
  induction h with
  | permute hleaf hperm hdistinct hplace => exact Shape.refines_permute hleaf hperm hdistinct hplace
  | insert value hlayout hkey =>
      refine Shape.refines_of_layout hlayout ?_ ?_
      · exact reshaped_of_slots_eq fun f hf => slot_insert_of_ne (hkey f hf)
      · intro reading hs
        obtain ⟨hkind, hcontent⟩ := Shape.ne_of_layout_symbol hs hlayout hkey
        exact Shape.readingKept_of_contentFirst (contentFirst_insert hkind hcontent)
  | replace value value' hlayout hkey =>
      refine Shape.refines_of_layout hlayout ?_ ?_
      · exact reshaped_of_slots_eq fun f hf => slot_replace_of_ne (hkey f hf)
      · exact fun _ _ => Shape.readingKept_of_contentFirst contentFirst_replace
  | @drop s before after fs f value hlayout hf hdefault =>
      refine Shape.refines_of_layout hlayout ?_ ?_
      · refine reshaped_field (Shape.layout_nodup hlayout) hf
          (fun name hname => (slot_insert_of_ne hname).symm) fun o ho => ?_
        obtain ⟨rfl, hnone, -⟩ := slot_middle value ho
        exact ⟨none, hnone, .dropped hdefault⟩
      · -- Neither the kind nor the content of a symbol has a default.
        rintro reading rfl
        obtain ⟨t, -, rfl⟩ := Option.map_eq_some_iff.mp hlayout
        simp only [Shape.taggedFields, List.mem_cons, List.not_mem_nil, or_false] at hf
        obtain rfl | rfl := hf
        · cases hdefault
        · cases hdefault
  | @field s before after fs f value value' hlayout hf hstep ih =>
      obtain ⟨hvalue, hvalue'⟩ := hstep.ne_null
      refine Shape.refines_of_layout hlayout ?_ ?_
      · refine reshaped_field (Shape.layout_nodup hlayout) hf
          (fun name hname => slot_replace_of_ne hname) fun o ho => ?_
        obtain ⟨rfl, -, hsome⟩ := slot_middle value' ho
        exact ⟨some value', hsome, .changed hvalue hvalue' ih⟩
      · exact fun _ _ => Shape.readingKept_of_contentFirst contentFirst_replace
  | item hlayout hf hstep ih =>
      obtain ⟨hvalue, hvalue'⟩ := hstep.ne_null
      refine Shape.refines_of_layout hlayout ?_ ?_
      · exact .arr (itemsRefine_middle hf (.changed hvalue hvalue' ih))
      · exact fun _ _ => .inl rfl
  | payload ht _ ih => exact refines_payload ht ih
  | entry _ ih => exact SymbolTable.refines_entry ih
  | element _ ih => exact ih.mapM_middle _ _

/-- A symbol that is read where it stands keeps its result under exactly the rearrangements that keep its
content readable. -/
theorem TypeSymbol.decode_perm_iff {fields fields' : List (String × Json)} {x : TypeSymbol}
    (h : decode (.obj fields) = some x) (hperm : fields.Perm fields') :
    decode (.obj fields') = some x ↔ (Shape.symbol .direct).KeepsPlace fields fields' := by
  constructor
  · intro h' _ _
    obtain ⟨-, hplace'⟩ := read_direct_iff.mp h'
    cases hplace' with
    | leaf hdepth => simp [depth] at hdepth
    | obj _ _ hcontent =>
        cases hfirst' : contentFirst fields' with
        | true => exact .inl rfl
        | false => exact .inr fun c hc => hcontent hfirst' c (hperm.mem_iff.mp hc)
  · intro hplace
    exact Shape.refines_permute Shape.noConfusion hperm Shape.noConfusion hplace x h

/-- Whatever is respelled in the description of a package, in any number of places, the package that is
read stays the same. The one condition on respelling cannot be spared: a symbol that breaks it is not read
any more. -/
theorem Package.decode_respelled :
    (∀ {v v' : Json} {p : Package}, decode v = some p →
      Relation.ReflTransGen (Respells .package) v v' → decode v' = some p) ∧
    ∀ {fields fields' : List (String × Json)} {x : TypeSymbol},
      TypeSymbol.decode (.obj fields) = some x → fields.Perm fields' →
      (TypeSymbol.decode (.obj fields') = some x ↔
        (Shape.symbol .direct).KeepsPlace fields fields') := by
  refine ⟨fun hv h => ?_, TypeSymbol.decode_perm_iff⟩
  induction h with
  | refl => exact hv
  | tail _ hstep ih => exact hstep.refines _ ih

/-- The description of a package with one document and one symbol. -/
def Package.describing (members : List Json) (symbol : List (String × Json)) : List (String × Json) :=
  [("name", .str "p"),
    ("modules", .arr [.obj [("id", .str "m"), ("name", .str "m"), ("is_default", .bool true),
      ("documents", .arr [.obj [("id", .str "d"), ("name", .str "d"), ("members", .arr members)]])]]),
    ("symbols", .obj [("A", .obj symbol)])]

theorem Package.respells_member {before after : List Json} {w w' : Json}
    (symbol : List (String × Json)) (h : Respells .member w w') :
    Respells .package (.obj (describing (before ++ w :: after) symbol))
      (.obj (describing (before ++ w' :: after) symbol)) := by
  refine @Respells.field .package [_] _ _ ⟨"modules", .list .module, some (.arr [])⟩ _ _ rfl
    (by simp [Shape.packageFields]) (@Respells.element .module [] _ _ _ ?_)
  refine @Respells.field .module [_, _, _] _ _ ⟨"documents", .list .document, some (.arr [])⟩ _ _ rfl
    (by simp [Shape.moduleFields]) (@Respells.element .document [] _ _ _ ?_)
  exact @Respells.field .document [_, _] _ _ ⟨"members", .list .member, some (.arr [])⟩ _ _ rfl
    (by simp [Shape.documentFields]) (@Respells.element .member before _ _ _ h)

theorem Package.respells_symbol (members : List Json) {symbol symbol' : List (String × Json)}
    (h : Respells (.symbol .direct) (.obj symbol) (.obj symbol')) :
    Respells .package (.obj (describing members symbol)) (.obj (describing members symbol')) :=
  @Respells.field .package [_, _] _ _ ⟨"symbols", .table, some (.obj [])⟩ _ _ rfl
    (by simp [Shape.packageFields]) (@Respells.entry [] _ _ _ _ h)

/-- A class is described with its tag behind its fields, a symbol with its kind in front of its content, and
the parts of the package from the last to the first. -/
theorem Package.decode_respelled_moves :
    let place : Json := .arr [.str "f", .int 0, .int 0, .int 0, .int 1]
    let symbol : List (String × Json) :=
      [("of", .obj [("of", .str "int"), ("kind", .str "primitive")]), ("kind", .str "array")]
    let v : Json := .obj (("has_compilation_errors", .bool false) ::
      describing [.obj [("member", .str "class"), ("name", .str "C"), ("location", place)]] symbol)
    let v' : Json := .obj (describing [.obj [("location", place), ("name", .str "C"), ("comment", .null),
      ("member", .str "class")]] symbol.reverse).reverse
    let aside : List (String × Json) :=
      [("of", .arr [.int 2, .arr [.int 1, .null]]), ("kind", .str "array")]
    Relation.ReflTransGen (Respells .package) v v' ∧
      (∃ p, decode v = some p ∧ decode v' = some p) ∧
      ¬ (Shape.symbol .direct).KeepsPlace aside aside.reverse := by
  intro place symbol v v' aside
  have hsymbol : (Shape.symbol .direct).KeepsPlace symbol symbol.reverse := by
    refine fun _ _ => .inr fun c hc => ?_
    obtain rfl : c = .obj [("of", .str "int"), ("kind", .str "primitive")] := by
      simpa [symbol, contentKey] using hc
    exact .obj (by simp) (by simp [kindKey, inPlace_str]) (by simp [contentKey, inPlace_str])
  have hsteps : Relation.ReflTransGen (Respells .package) v v' := by
    refine .head (@Respells.drop .package [] _ _ ⟨"has_compilation_errors", .leaf, some (.bool false)⟩ _ rfl
      (by simp [Shape.packageFields]) rfl) ?_
    refine .head (@respells_member [] [] _ _ _ (.permute Shape.noConfusion (List.reverse_perm _).symm
      Shape.noConfusion Shape.noConfusion)) ?_
    refine .head (@respells_member [] [] _ _ _ (@Respells.insert .member [_, _] [_] _ "comment" .null rfl
      (by decide))) ?_
    refine .head (respells_symbol _ (.permute Shape.noConfusion (List.reverse_perm _).symm Shape.noConfusion
      hsymbol)) ?_
    exact .single (.permute Shape.noConfusion (List.reverse_perm _).symm Shape.noConfusion Shape.noConfusion)
  have hv : decode v = some _ := rfl
  refine ⟨hsteps, ⟨_, hv, decode_respelled.1 hv hsteps⟩, fun h => ?_⟩
  have haside : TypeSymbol.decode (.obj aside) = some (.array (.array .record)) := rfl
  cases (decode_respelled.2 haside (List.reverse_perm _).symm).mpr h

/-- Once its kind stands in front, a content that spells its own kind by number is read where it stands, and
refused. -/
theorem Package.decode_keyOrder :
    let kind : String × Json := ("kind", .str "array")
    let content : String × Json := ("of", .arr [.int 2, .arr [.int 1, .null]])
    (∃ p, decode (.obj (describing [] [content, kind])) = some p) ∧
      [content, kind].Perm [kind, content] ∧
      decode (.obj (describing [] [kind, content])) = none := by
  intro kind content
  exact ⟨⟨_, rfl⟩, .swap .., rfl⟩

end FunctionService
