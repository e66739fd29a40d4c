import FunctionService.Proofs.ServiceUnits

/-!
# What the formatter checks

Writing a unit goes hand in hand with checking it. `ServiceUnit.checks` lists the checks that are made, in
order and apart from all writing, and `Check.madeBy_unit` says that nothing but the first check
that fails decides about the outcome: it gives the fault, and without one there is a text.

For a unit made from signatures the checks come down to conditions on what it is made from: names of
functions and parameters have to be identifiers, names in default expressions too, and the types have no
part in it.
-/

namespace FunctionService

/-! ## Identifiers -/

namespace Text

/-- The texts that are identifiers: a quote and one or more identifier characters, or an Alphabetic
character or an underscore and any number of identifier characters. -/
inductive Identifier : List Char → Prop
  | quoted {first : Char} {rest : List Char} :
      (∀ ch ∈ first :: rest, isIdentifierChar ch = true) → Identifier ('\'' :: first :: rest)
  | plain {first : Char} {rest : List Char} :
      isAlphabetic first = true ∨ first = '_' → (∀ ch ∈ rest, isIdentifierChar ch = true) →
      Identifier (first :: rest)

theorem isIdentifier_iff {cs : List Char} : isIdentifier cs = true ↔ Identifier cs := by
  constructor
  · intro h
    unfold isIdentifier at h
    split at h
    · cases h
    next rest =>
      obtain ⟨hne, hall⟩ := Bool.and_eq_true_iff.mp h
      cases rest with
      | nil => cases hne
      | cons first rest => exact .quoted (List.all_eq_true.mp hall)
    next first rest _ =>
      obtain ⟨hfirst, hall⟩ := Bool.and_eq_true_iff.mp h
      exact .plain (by simpa using hfirst) (List.all_eq_true.mp hall)
  · intro h
    cases h with
    | @quoted first rest hall =>
        show (!(first :: rest).isEmpty && (first :: rest).all isIdentifierChar) = true
        rw [List.all_eq_true.mpr hall]
        rfl
    | @plain first rest hfirst hall =>
        -- A quote is no Alphabetic character, so the two forms do not overlap.
        have hne : first ≠ '\'' := by
          rintro rfl
          exact absurd hfirst (by decide)
        have hrest := List.all_eq_true.mpr hall
        unfold isIdentifier
        split
        next heq => cases heq
        next heq => exact absurd (List.cons.inj heq).1 hne
        next heq =>
          obtain ⟨rfl, rfl⟩ := List.cons.inj heq
          exact Bool.and_eq_true_iff.mpr ⟨by simpa using hfirst, hrest⟩

/-- An identifier goes on being one with identifier characters behind it. -/
theorem Identifier.append {cs ds : List Char} (h : Identifier cs)
    (hds : ∀ ch ∈ ds, isIdentifierChar ch = true) : Identifier (cs ++ ds) := by
  cases h with
  | quoted hall =>
      exact .quoted fun ch hch => (List.mem_append.mp hch).elim (hall ch) (hds ch)
  | plain hfirst hall =>
      exact .plain hfirst fun ch hch => (List.mem_append.mp hch).elim (hall ch) (hds ch)

theorem isBlank_eq_false_iff {cs : List Char} :
    isBlank cs = false ↔ ∃ ch ∈ cs, isWhiteSpace ch = false := by
  simp [isBlank]

end Text

/-! ## Checks and what makes them -/

/-- Something that is checked when source text is written. -/
inductive Check where
  /-- A name is an identifier. -/
  | identifier (name : String)
  /-- A text of unknown structure is not blank. -/
  | notBlank (text : String)

namespace Check

/-- Whether a check passes. -/
def passes : Check → Bool
  | .identifier name => Text.isIdentifier name.toList
  | .notBlank text => !Text.isBlank text.toList

/-- The fault of a check that fails. -/
def fault : Check → FormatFault
  | .identifier name => .invalidIdentifier name
  | .notBlank _ => .emptyExpression

/-- The first of the checks that fails. -/
def firstFailing? (ks : List Check) : Option Check :=
  ks.find? fun k => !k.passes

/-- A computation makes checks: it fails as the first of them that fails says, and has a result if none
of them fails. -/
def MadeBy {α : Type} (ks : List Check) (r : Except FormatFault α) : Prop :=
  match firstFailing? ks with
  | some k => r = .error k.fault
  | none => ∃ a, r = .ok a

variable {α β : Type} {ks ls : List Check} {r : Except FormatFault α}

theorem madeBy_pure (a : α) : MadeBy [] (pure a : Except FormatFault α) :=
  ⟨a, rfl⟩

theorem MadeBy.bind {f : α → Except FormatFault β} (h : MadeBy ks r) (hf : ∀ a, MadeBy ls (f a)) :
    MadeBy (ks ++ ls) (r >>= f) := by
  unfold MadeBy firstFailing? at h ⊢
  rw [List.find?_append]
  cases hfirst : ks.find? (fun k => !k.passes) with
  | some k =>
      rw [hfirst] at h
      rw [h]
      rfl
  | none =>
      rw [hfirst] at h
      obtain ⟨a, rfl⟩ := h
      exact hf a

/-- What is done with the result of a computation needs no check of its own. -/
theorem MadeBy.map (g : α → β) (h : MadeBy ks r) : MadeBy ks (r >>= fun a => pure (g a)) := by
  have hmap := h.bind fun a => madeBy_pure (g a)
  rwa [List.append_nil] at hmap

/-- A single check is made by deciding it. -/
theorem madeBy_singleton (k : Check) (a : α) :
    MadeBy [k] (if k.passes then .ok a else .error k.fault : Except FormatFault α) := by
  cases h : k.passes <;> simp [MadeBy, firstFailing?, h]

theorem madeBy_checkIdentifier (name : String) : MadeBy [.identifier name] (checkIdentifier name) :=
  madeBy_singleton (.identifier name) ()

theorem MadeBy.mapM {γ : Type} {checks : γ → List Check} {f : γ → Except FormatFault α} (xs : List γ)
    (h : ∀ x ∈ xs, MadeBy (checks x) (f x)) : MadeBy (xs.flatMap checks) (xs.mapM f) := by
  induction xs with
  | nil => exact madeBy_pure []
  | cons x xs ih =>
      rw [List.mapM_cons, List.flatMap_cons]
      refine (h x List.mem_cons_self).bind fun a => MadeBy.map _ ?_
      exact ih fun y hy => h y (List.mem_cons_of_mem x hy)

/-- None of the checks fails. -/
def AllPass (ks : List Check) : Prop :=
  ∀ k ∈ ks, k.passes = true

@[simp] theorem allPass_nil : AllPass [] :=
  List.forall_mem_nil _

@[simp] theorem allPass_cons {k : Check} : AllPass (k :: ks) ↔ k.passes = true ∧ AllPass ks :=
  List.forall_mem_cons

@[simp] theorem allPass_append : AllPass (ks ++ ls) ↔ AllPass ks ∧ AllPass ls :=
  List.forall_mem_append

@[simp] theorem allPass_flatMap {γ : Type} {checks : γ → List Check} {xs : List γ} :
    AllPass (xs.flatMap checks) ↔ ∀ x ∈ xs, AllPass (checks x) :=
  List.forall_mem_flatMap

theorem passes_identifier {name : String} :
    (identifier name).passes = true ↔ Text.Identifier name.toList :=
  Text.isIdentifier_iff

theorem passes_notBlank {text : String} :
    (notBlank text).passes = true ↔ ∃ ch ∈ text.toList, Text.isWhiteSpace ch = false := by
  rw [passes, Bool.not_eq_true', Text.isBlank_eq_false_iff]

theorem MadeBy.exists_ok_iff (h : MadeBy ks r) : (∃ a, r = .ok a) ↔ AllPass ks := by
  unfold MadeBy firstFailing? at h
  split at h
  next k hk =>
    have hfails : k.passes = false := by simpa using List.find?_some hk
    constructor
    · rintro ⟨a, rfl⟩
      cases h
    · intro hall
      exact absurd (hall k (List.mem_of_find?_eq_some hk)) (hfails ▸ Bool.false_ne_true)
  next hnone => exact ⟨fun _ k hk => by simpa using List.find?_eq_none.mp hnone k hk, fun _ => h⟩

theorem firstFailing?_eq_some_iff {k : Check} :
    firstFailing? ks = some k ↔
      k.passes = false ∧ ∃ before after, ks = before ++ k :: after ∧ AllPass before := by
  rw [firstFailing?, List.find?_eq_some_iff_append]
  simp [AllPass]

/-- A fault is that of the first of the checks that fails. -/
def FirstFault (ks : List Check) (fault : FormatFault) : Prop :=
  ∃ before k after, ks = before ++ k :: after ∧ AllPass before ∧ k.passes = false ∧ k.fault = fault

theorem MadeBy.eq_error_iff (h : MadeBy ks r) {fault : FormatFault} :
    r = .error fault ↔ FirstFault ks fault := by
  unfold MadeBy at h
  constructor
  · rintro rfl
    split at h
    next k hfirst =>
      obtain ⟨hk, before, after, hks, hbefore⟩ := firstFailing?_eq_some_iff.mp hfirst
      exact ⟨before, k, after, hks, hbefore, hk, (Except.error.inj h).symm⟩
    next =>
      obtain ⟨a, ha⟩ := h
      cases ha
  · rintro ⟨before, k, after, hks, hbefore, hk, rfl⟩
    rw [firstFailing?_eq_some_iff.mpr ⟨hk, before, after, hks, hbefore⟩] at h
    exact h

theorem MadeBy.exists_error_iff (h : MadeBy ks r) :
    (∃ fault, r = .error fault) ↔ ∃ k ∈ ks, k.passes = false := by
  have hok := h.exists_ok_iff
  constructor
  · rintro ⟨fault, rfl⟩
    obtain ⟨before, k, after, rfl, _, hk, _⟩ := h.eq_error_iff.mp rfl
    exact ⟨k, List.mem_append_right before List.mem_cons_self, hk⟩
  · rintro ⟨k, hmem, hk⟩
    cases r with
    | ok a => exact absurd (hok.mp ⟨a, rfl⟩ k hmem) (hk ▸ Bool.false_ne_true)
    | error fault => exact ⟨fault, rfl⟩

end Check

/-! ## Checks of expressions -/

mutual

/-- The checks of an expression, in the order in which they are made. -/
def Expression.checks : Expression → List Check
  | .name identifier => [.identifier identifier]
  | .fieldAccess target field => .identifier field :: target.checks
  | .elvis left right => right.checks ++ left.checks
  | .list items => checksOfExpressions items
  | .call function arguments => .identifier function :: checksOfArguments arguments
  | .new typeName arguments =>
    typeName.module.toList.map .identifier ++ .identifier typeName.name :: checksOfArguments arguments
  | .int _ => []
  | .source text => [.notBlank text]

/-- The checks of an argument. -/
def Argument.checks : Argument → List Check
  | .positional value => value.checks
  | .rest values => values.checks

/-- The checks of expressions, in order. -/
def checksOfExpressions : List Expression → List Check
  | [] => []
  | e :: rest => e.checks ++ checksOfExpressions rest

/-- The checks of arguments, in order. -/
def checksOfArguments : List Argument → List Check
  | [] => []
  | a :: rest => a.checks ++ checksOfArguments rest

end

theorem checksOfExpressions_eq (es : List Expression) :
    checksOfExpressions es = es.flatMap Expression.checks := by
  induction es with
  | nil => rfl
  | cons e es ih => rw [checksOfExpressions, ih, List.flatMap_cons]

theorem Argument.checks_eq (a : Argument) : a.checks = a.value.checks := by
  cases a <;> rfl

theorem checksOfArguments_eq (as : List Argument) :
    checksOfArguments as = as.flatMap fun a => a.value.checks := by
  induction as with
  | nil => rfl
  | cons a as ih => rw [checksOfArguments, ih, List.flatMap_cons, Argument.checks_eq]

theorem renderExpressions_eq_mapM (es : List Expression) :
    renderExpressions es = es.mapM Expression.render := by
  induction es with
  | nil => rfl
  | cons e es ih => rw [renderExpressions, ih, List.mapM_cons]

theorem renderArguments_eq_mapM (as : List Argument) :
    renderArguments as = as.mapM Argument.render := by
  induction as with
  | nil => rfl
  | cons a as ih => rw [renderArguments, ih, List.mapM_cons]

/-- Induction over expressions, in which a list constructor has a hypothesis for each of its items, and a
call or a construction one for the expression of each of its arguments. -/
@[elab_as_elim]
theorem Expression.induction {motive : Expression → Prop}
    (name : ∀ identifier, motive (.name identifier))
    (fieldAccess : ∀ target field, motive target → motive (.fieldAccess target field))
    (elvis : ∀ left right, motive left → motive right → motive (.elvis left right))
    (list : ∀ items, (∀ e ∈ items, motive e) → motive (.list items))
    (call : ∀ function arguments, (∀ a ∈ arguments, motive (Argument.value a)) →
      motive (.call function arguments))
    (new : ∀ typeName arguments, (∀ a ∈ arguments, motive (Argument.value a)) →
      motive (.new typeName arguments))
    (int : ∀ value, motive (.int value)) (source : ∀ text, motive (.source text)) (e : Expression) :
    motive e :=
  @Expression.rec motive (fun a => motive a.value) (fun es => ∀ e ∈ es, motive e)
    (fun as => ∀ a ∈ as, motive a.value) name fieldAccess elvis list call new int source (fun _ h => h) (fun _ h => h)
    (fun _ h => (List.not_mem_nil h).elim) (fun _ _ h hs => List.forall_mem_cons.mpr ⟨h, hs⟩)
    (fun _ h => (List.not_mem_nil h).elim) (fun _ _ h hs => List.forall_mem_cons.mpr ⟨h, hs⟩) e

namespace Check

theorem madeBy_renderArguments {as : List Argument}
    (h : ∀ a ∈ as, MadeBy a.value.checks a.value.render) :
    MadeBy (checksOfArguments as) (renderArguments as) := by
  rw [checksOfArguments_eq, renderArguments_eq_mapM]
  refine MadeBy.mapM as fun a ha => ?_
  cases a with
  | positional value => exact h _ ha
  | rest values => exact (h _ ha).map _

/-- Writing an expression makes the checks of the expression. -/
theorem madeBy_render (e : Expression) : MadeBy e.checks e.render := by
  induction e using Expression.induction with
  | name identifier =>
      rw [Expression.checks, Expression.render]
      exact (madeBy_checkIdentifier identifier).map _
  | fieldAccess target field htarget =>
      rw [Expression.checks, Expression.render]
      exact (madeBy_checkIdentifier field).bind fun _ => htarget.map _
  | elvis left right hleft hright =>
      rw [Expression.checks, Expression.render]
      exact hright.bind fun _ => hleft.map _
  | list items hitems =>
      rw [Expression.checks, Expression.render, checksOfExpressions_eq, renderExpressions_eq_mapM]
      exact (MadeBy.mapM items hitems).map _
  | call function arguments harguments =>
      rw [Expression.checks, Expression.render]
      exact (madeBy_checkIdentifier function).bind fun _ => (madeBy_renderArguments harguments).map _
  | new typeName arguments harguments =>
      rw [Expression.checks, Expression.render]
      have hname (g : List String → String) :
          MadeBy (.identifier typeName.name :: checksOfArguments arguments)
            (checkIdentifier typeName.name >>= fun _ =>
              renderArguments arguments >>= fun texts => pure (g texts)) :=
        (madeBy_checkIdentifier typeName.name).bind fun _ => (madeBy_renderArguments harguments).map g
      cases typeName.module with
      | none => exact hname _
      | some module => exact (madeBy_checkIdentifier module).bind fun _ => hname _
  | int value => exact madeBy_pure _
  | source text =>
      have hrender : (Expression.source text).render =
          if (notBlank text).passes then .ok text else .error (notBlank text).fault := by
        rw [Expression.render, passes]
        cases Text.isBlank text.toList <;> rfl
      rw [hrender]
      exact madeBy_singleton (.notBlank text) text

end Check

/-! ## Checks of units -/

/-- The checks of an import. -/
def Import.checks (i : Import) : List Check :=
  [.identifier i.org, .identifier i.module]

/-- The checks of a configurable variable. -/
def Configurable.checks (v : Configurable) : List Check :=
  .identifier v.name :: v.default.checks

/-- The checks of a payload parameter. -/
def PayloadParameter.checks (p : PayloadParameter) : List Check :=
  [.identifier p.typeName, .identifier p.name]

/-- The checks of a resource. -/
def Resource.checks (r : Resource) : List Check :=
  .identifier r.accessor :: .identifier r.path ::
    (r.payload.toList.flatMap PayloadParameter.checks ++ r.body.checks)

/-- The checks of a service. -/
def Service.checks (s : Service) : List Check :=
  s.listener.checks ++ s.resources.flatMap Resource.checks

/-- The check of a field of a record. -/
def RecordField.checks (f : RecordField) : List Check :=
  [.identifier f.name]

/-- The checks of a payload record. -/
def PayloadRecord.checks (r : PayloadRecord) : List Check :=
  .identifier r.name :: r.fields.flatMap RecordField.checks

/-- The checks of a unit, in the order in which they are made. -/
def ServiceUnit.checks (u : ServiceUnit) : List Check :=
  u.imports.flatMap Import.checks ++ (u.configurables.flatMap Configurable.checks ++
    (u.service.checks ++ u.records.flatMap PayloadRecord.checks))

namespace Check

theorem madeBy_import (i : Import) : MadeBy i.checks i.render :=
  (madeBy_checkIdentifier i.org).bind fun _ => (madeBy_checkIdentifier i.module).map _

theorem madeBy_configurable (v : Configurable) : MadeBy v.checks v.render :=
  (madeBy_checkIdentifier v.name).bind fun _ => (madeBy_render v.default).map _

theorem madeBy_payload (payload : Option PayloadParameter) :
    MadeBy (payload.toList.flatMap PayloadParameter.checks) (renderPayload payload) := by
  cases payload with
  | none => exact madeBy_pure _
  | some p =>
      rw [Option.toList_some, List.flatMap_singleton]
      exact (madeBy_checkIdentifier p.typeName).bind fun _ => (madeBy_checkIdentifier p.name).map _

theorem madeBy_resource (indent : Nat) (r : Resource) : MadeBy r.checks (r.render indent) :=
  (madeBy_checkIdentifier r.accessor).bind fun _ => (madeBy_checkIdentifier r.path).bind fun _ =>
    (madeBy_payload r.payload).bind fun _ => (madeBy_render r.body).map _

theorem madeBy_service (indent : Nat) (s : Service) : MadeBy s.checks (s.render indent) :=
  (madeBy_render s.listener).bind fun _ =>
    (MadeBy.mapM s.resources fun r _ => madeBy_resource indent r).map _

theorem madeBy_record (indent : Nat) (r : PayloadRecord) : MadeBy r.checks (r.render indent) :=
  (madeBy_checkIdentifier r.name).bind fun _ =>
    (MadeBy.mapM r.fields fun f _ => (madeBy_checkIdentifier f.name).map _).map _

/-- **Writing a unit makes its checks.** It fails as the first of them that fails says, and there is a text
if none of them fails. -/
theorem madeBy_unit (indent : Nat) (u : ServiceUnit) : MadeBy u.checks (u.render indent) :=
  (MadeBy.mapM u.imports fun i _ => madeBy_import i).bind fun _ =>
    (MadeBy.mapM u.configurables fun v _ => madeBy_configurable v).bind fun _ =>
      (madeBy_service indent u.service).bind fun _ =>
        (MadeBy.mapM u.records fun r _ => madeBy_record indent r).map _

end Check

/-- **How writing a unit fails.** For every unit and indent there is no text exactly if one of the checks of
the unit fails, and what is then reported is the fault of the first one that does. -/
theorem ServiceUnit.render_firstFault (indent : Nat) (u : ServiceUnit) :
    ((∃ fault, u.render indent = .error fault) ↔ ∃ k ∈ u.checks, k.passes = false) ∧
      ∀ fault, u.render indent = .error fault ↔ Check.FirstFault u.checks fault := by
  have hmade := Check.madeBy_unit indent u
  exact ⟨hmade.exists_error_iff, fun _ => hmade.eq_error_iff⟩

/-! ## Expressions that can be written -/

/-- An expression is another one, or occurs in it at some depth. -/
inductive Expression.PartOf (part : Expression) : Expression → Prop
  | self : PartOf part part
  | target {target : Expression} {field : String} :
      PartOf part target → PartOf part (.fieldAccess target field)
  | left {left right : Expression} : PartOf part left → PartOf part (.elvis left right)
  | right {left right : Expression} : PartOf part right → PartOf part (.elvis left right)
  | item {items : List Expression} {item : Expression} :
      item ∈ items → PartOf part item → PartOf part (.list items)
  | argument {function : String} {arguments : List Argument} {argument : Argument} :
      argument ∈ arguments → PartOf part argument.value → PartOf part (.call function arguments)
  | constructed {typeName : QualifiedName} {arguments : List Argument} {argument : Argument} :
      argument ∈ arguments → PartOf part argument.value → PartOf part (.new typeName arguments)

namespace Expression

/-- The names in an expression that are not in a smaller part of it: a name itself, a field, a called
function, and the parts of the name of a constructed type. -/
def ownNames : Expression → List String
  | .name identifier => [identifier]
  | .fieldAccess _ field => [field]
  | .call function _ => [function]
  | .new typeName _ => typeName.module.toList ++ [typeName.name]
  | .elvis _ _ | .list _ | .int _ | .source _ => []

/-- An expression can be written: every name in it, at any depth, is an identifier, and every text of
unknown structure in it has a character that is not white space. -/
structure Renderable (e : Expression) : Prop where
  names : ∀ part : Expression, part.PartOf e → ∀ name ∈ part.ownNames, Text.Identifier name.toList
  sources : ∀ text, (Expression.source text).PartOf e → ∃ ch ∈ text.toList, Text.isWhiteSpace ch = false

/-- The checks of an expression that are not those of a smaller part of it. -/
def ownChecks : Expression → List Check
  | .source text => [.notBlank text]
  | e => e.ownNames.map .identifier

theorem ownChecks_new (typeName : QualifiedName) (arguments : List Argument) :
    (Expression.new typeName arguments).ownChecks =
      typeName.module.toList.map .identifier ++ [.identifier typeName.name] :=
  List.map_append

theorem mem_checks_of_mem_ownChecks {e : Expression} {k : Check} (h : k ∈ e.ownChecks) :
    k ∈ e.checks := by
  cases e with
  | name identifier => exact h
  | fieldAccess target field => exact List.mem_singleton.mp h ▸ List.mem_cons_self
  | elvis left right => cases h
  | list items => cases h
  | call function arguments => exact List.mem_singleton.mp h ▸ List.mem_cons_self
  | new typeName arguments =>
      rw [ownChecks_new, List.mem_append] at h
      refine List.mem_append.mpr (h.imp_right fun h => ?_)
      exact List.mem_singleton.mp h ▸ List.mem_cons_self
  | int value => cases h
  | source text => exact h

/-- The checks of an expression are the own checks of all its parts. -/
theorem mem_checks_iff {e : Expression} {k : Check} :
    k ∈ e.checks ↔ ∃ part : Expression, part.PartOf e ∧ k ∈ part.ownChecks := by
  constructor
  · intro h
    induction e using Expression.induction with
    | name identifier => exact ⟨_, .self, h⟩
    | fieldAccess target field ih =>
        rcases List.mem_cons.mp h with rfl | h
        · exact ⟨_, .self, List.mem_cons_self⟩
        · obtain ⟨part, hpart, hk⟩ := ih h
          exact ⟨part, .target hpart, hk⟩
    | elvis left right ihleft ihright =>
        rcases List.mem_append.mp h with h | h
        · obtain ⟨part, hpart, hk⟩ := ihright h
          exact ⟨part, .right hpart, hk⟩
        · obtain ⟨part, hpart, hk⟩ := ihleft h
          exact ⟨part, .left hpart, hk⟩
    | list items ih =>
        rw [checks, checksOfExpressions_eq] at h
        obtain ⟨item, hitem, h⟩ := List.mem_flatMap.mp h
        obtain ⟨part, hpart, hk⟩ := ih item hitem h
        exact ⟨part, .item hitem hpart, hk⟩
    | call function arguments ih =>
        rw [checks, checksOfArguments_eq] at h
        rcases List.mem_cons.mp h with rfl | h
        · exact ⟨_, .self, List.mem_cons_self⟩
        · obtain ⟨argument, hargument, h⟩ := List.mem_flatMap.mp h
          obtain ⟨part, hpart, hk⟩ := ih argument hargument h
          exact ⟨part, .argument hargument hpart, hk⟩
    | new typeName arguments ih =>
        rw [checks, checksOfArguments_eq, List.append_cons] at h
        rcases List.mem_append.mp h with h | h
        · exact ⟨_, .self, ownChecks_new typeName arguments ▸ h⟩
        · obtain ⟨argument, hargument, h⟩ := List.mem_flatMap.mp h
          obtain ⟨part, hpart, hk⟩ := ih argument hargument h
          exact ⟨part, .constructed hargument hpart, hk⟩
    | int value => cases h
    | source text => exact ⟨_, .self, h⟩
  · rintro ⟨part, hpart, hk⟩
    induction hpart with
    | self => exact mem_checks_of_mem_ownChecks hk
    | target _ ih => exact List.mem_cons_of_mem _ ih
    | left _ ih => exact List.mem_append_right _ ih
    | right _ ih => exact List.mem_append_left _ ih
    | item hitem _ ih =>
        rw [checks, checksOfExpressions_eq]
        exact List.mem_flatMap.mpr ⟨_, hitem, ih⟩
    | argument hargument _ ih =>
        rw [checks, checksOfArguments_eq]
        exact List.mem_cons_of_mem _ (List.mem_flatMap.mpr ⟨_, hargument, ih⟩)
    | constructed hargument _ ih =>
        rw [checks, checksOfArguments_eq]
        exact List.mem_append_right _ (List.mem_cons_of_mem _ (List.mem_flatMap.mpr ⟨_, hargument, ih⟩))

theorem mem_ownChecks_iff {e : Expression} {k : Check} :
    k ∈ e.ownChecks ↔ (∃ name ∈ e.ownNames, k = .identifier name) ∨
      ∃ text, e = .source text ∧ k = .notBlank text := by
  cases e <;> simp [ownChecks, ownNames, eq_comm]

/-- An expression can be written exactly if all its checks pass. -/
theorem renderable_iff {e : Expression} : e.Renderable ↔ Check.AllPass e.checks := by
  constructor
  · rintro ⟨hnames, hsources⟩ k hk
    obtain ⟨part, hpart, hk⟩ := mem_checks_iff.mp hk
    rcases mem_ownChecks_iff.mp hk with ⟨name, hname, rfl⟩ | ⟨text, rfl, rfl⟩
    · exact Check.passes_identifier.mpr (hnames part hpart name hname)
    · exact Check.passes_notBlank.mpr (hsources text hpart)
  · intro hall
    have hpart : ∀ part : Expression, part.PartOf e → ∀ k ∈ part.ownChecks, k.passes = true :=
      fun part hpart k hk => hall k (mem_checks_iff.mpr ⟨part, hpart, hk⟩)
    refine ⟨fun part hp name hname => ?_, fun text hp => ?_⟩
    · refine Check.passes_identifier.mp (hpart part hp _ ?_)
      exact mem_ownChecks_iff.mpr (Or.inl ⟨name, hname, rfl⟩)
    · exact Check.passes_notBlank.mp (hpart _ hp _ List.mem_cons_self)

end Expression

/-! ## Services that can be written -/

/-- A function can be written: its name and the names of its parameters are identifiers, and the defaults
of its parameters can be written. -/
structure Signature.Renderable (f : Signature) : Prop where
  name : Text.Identifier f.name.toList
  parameters : ∀ p ∈ f.parameters, Text.Identifier p.name.toList
  defaults : ∀ p ∈ f.parameters, ∀ default, p.kind = .defaultable default → default.Renderable

/-- The names of a function and of its parameters, with the kind of each parameter and so its default.
Types, marks and places are left out. -/
def Signature.names (f : Signature) : String × List (String × ParameterKind) :=
  (f.name, f.parameters.map fun p => (p.name, p.kind))

open Check

theorem passes_payloadVariable : (identifier payloadVariable).passes = true := by
  decide

theorem passes_portVariable : (identifier portVariable).passes = true := by
  decide

/-- The argument for a parameter can be written if the name and the default of the parameter can. -/
theorem Parameter.callArgument_allPass (p : Parameter) :
    AllPass p.callArgument.value.checks ↔ Text.Identifier p.name.toList ∧
      ∀ default, p.kind = .defaultable default → default.Renderable := by
  have hfield : AllPass (Expression.fieldAccess (.name payloadVariable) p.name).checks ↔
      Text.Identifier p.name.toList := by
    simp [Expression.checks, passes_payloadVariable, passes_identifier]
  unfold callArgument
  cases p.kind with
  | required => simpa [Argument.value] using hfield
  | defaultable default =>
      rw [Argument.value, Expression.checks, allPass_append, hfield, ← Expression.renderable_iff]
      simp [and_comm]
  | rest =>
      rw [Argument.value, Expression.checks, allPass_append, hfield]
      simp [Expression.checks, checksOfExpressions]

namespace Signature

variable {c : ServiceConfig} {f g : Signature}

theorem passes_payloadTypeName (h : Text.Identifier f.name.toList) :
    (identifier f.payloadTypeName).passes = true := by
  rw [passes_identifier, payloadTypeName, String.toList_append]
  exact h.append (List.all_eq_true.mp (by decide))

/-- The resource of a function can be written exactly if the function can. -/
theorem resource_allPass : AllPass (f.resource c).checks ↔ f.Renderable := by
  have hbody : AllPass (f.resource c).body.checks ↔ f.Renderable := by
    show AllPass (Expression.call f.name (f.parameters.map Parameter.callArgument)).checks ↔ _
    rw [Expression.checks, checksOfArguments_eq, List.flatMap_map, allPass_cons, allPass_flatMap,
      passes_identifier]
    simp only [Parameter.callArgument_allPass]
    exact ⟨fun h => ⟨h.1, fun p hp => (h.2 p hp).1, fun p hp => (h.2 p hp).2⟩,
      fun h => ⟨h.name, fun p hp => ⟨h.parameters p hp, h.defaults p hp⟩⟩⟩
  have haccessor : (identifier "post").passes = true := by decide
  rw [Resource.checks, allPass_cons, allPass_cons, allPass_append, hbody]
  refine ⟨fun h => h.2.2.2, fun h => ⟨haccessor, passes_identifier.mpr h.name, ?_, h⟩⟩
  rw [allPass_flatMap]
  intro payload hpayload
  -- What a payload adds to the names of the function are fixed texts.
  obtain ⟨_, rfl⟩ := resource_payload_eq_some.mp (Option.mem_toList.mp hpayload)
  rw [PayloadParameter.checks, allPass_cons, allPass_cons]
  exact ⟨passes_payloadTypeName h.name, passes_payloadVariable, allPass_nil⟩

/-- The record of a function that can be written can be written. -/
theorem Renderable.payloadRecord_allPass (h : f.Renderable) : AllPass f.payloadRecord.checks := by
  rw [PayloadRecord.checks, allPass_cons, allPass_flatMap]
  refine ⟨passes_payloadTypeName h.name, List.forall_mem_map.mpr fun p hp => ?_⟩
  rw [RecordField.checks, p.recordField_name, allPass_cons]
  exact ⟨passes_identifier.mpr (h.parameters p hp), allPass_nil⟩

theorem Renderable.of_names_eq (hf : f.Renderable) (h : f.names = g.names) : g.Renderable := by
  obtain ⟨hname, hparameters⟩ := Prod.mk.inj h
  have hsame : ∀ q ∈ g.parameters, ∃ p ∈ f.parameters, p.name = q.name ∧ p.kind = q.kind := by
    intro q hq
    have hmem := List.mem_map_of_mem (f := fun p : Parameter => (p.name, p.kind)) hq
    rw [← hparameters] at hmem
    obtain ⟨p, hp, heq⟩ := List.mem_map.mp hmem
    exact ⟨p, hp, Prod.mk.inj heq⟩
  refine ⟨hname ▸ hf.name, fun q hq => ?_, fun q hq default hdefault => ?_⟩
  · obtain ⟨p, hp, heq, _⟩ := hsame q hq
    exact heq ▸ hf.parameters p hp
  · obtain ⟨p, hp, _, heq⟩ := hsame q hq
    exact hf.defaults p hp default (heq.trans hdefault)

theorem forall_renderable_of_names_eq {fs gs : List Signature} (h : fs.map names = gs.map names)
    (hfs : ∀ f ∈ fs, f.Renderable) : ∀ g ∈ gs, g.Renderable := by
  intro g hg
  have hmem : g.names ∈ fs.map names := h ▸ List.mem_map_of_mem hg
  obtain ⟨f, hf, heq⟩ := List.mem_map.mp hmem
  exact (hfs f hf).of_names_eq heq

end Signature

/-- A unit made from functions can be written exactly if the functions can, and the organization and the
name of the HTTP module are identifiers. -/
theorem synthesize_allPass (c : ServiceConfig) (fs : List Signature) :
    AllPass (synthesize c fs).checks ↔ Text.Identifier c.httpOrg.toList ∧
      Text.Identifier c.httpModule.toList ∧ ∀ f ∈ fs, f.Renderable := by
  have himports : AllPass ((synthesize c fs).imports.flatMap Import.checks) ↔
      Text.Identifier c.httpOrg.toList ∧ Text.Identifier c.httpModule.toList := by
    simp [synthesize, ServiceConfig.httpImport, Import.checks, passes_identifier]
  have hconfigurables : AllPass ((synthesize c fs).configurables.flatMap Configurable.checks) := by
    simp [synthesize, ServiceConfig.portConfigurable, Configurable.checks, Expression.checks,
      passes_portVariable]
  have hlistener : AllPass c.listener.checks ↔ Text.Identifier c.httpModule.toList := by
    have hname : (identifier "Listener").passes = true := by decide
    simp [ServiceConfig.listener, Expression.checks, checksOfArguments, Argument.checks,
      passes_identifier, hname, passes_portVariable]
  have hresources : AllPass ((synthesize c fs).service.resources.flatMap Resource.checks) ↔
      ∀ f ∈ fs, f.Renderable := by
    simp [synthesize, Signature.resource_allPass]
  have hrecords (h : ∀ f ∈ fs, f.Renderable) :
      AllPass ((synthesize c fs).records.flatMap PayloadRecord.checks) := by
    rw [allPass_flatMap]
    intro r hr
    obtain ⟨f, hf, _, rfl⟩ := ServiceUnit.mem_synthesize_records.mp hr
    exact (h f hf).payloadRecord_allPass
  have hservice : AllPass (synthesize c fs).service.checks ↔
      Text.Identifier c.httpModule.toList ∧ ∀ f ∈ fs, f.Renderable := by
    rw [Service.checks, allPass_append, hresources]
    exact and_congr_left fun _ => hlistener
  rw [ServiceUnit.checks, allPass_append, allPass_append, allPass_append, himports, hservice]
  constructor
  · rintro ⟨⟨horg, hmodule⟩, _, ⟨_, hfs⟩, _⟩
    exact ⟨horg, hmodule, hfs⟩
  · rintro ⟨horg, hmodule, hfs⟩
    exact ⟨⟨horg, hmodule⟩, hconfigurables, ⟨hmodule, hfs⟩, hrecords hfs⟩

theorem generate_isSome_iff (format : Formatter) (c : ServiceConfig) (fs : List Signature) :
    (generate format c fs).isSome = true ↔ ∃ text, format (synthesize c fs) = .ok text := by
  rw [generate]
  cases format (synthesize c fs) <;> simp

/-- **When a service is generated.** Source text is generated for functions exactly if the organization and
the name of the HTTP module, the names of the functions and those of their parameters are identifiers,
and every default of a parameter can be written. So functions with the same names, kinds of parameters
and defaults are generated both or neither, whatever their types, marks and places. -/
theorem generate_isSome_exact (indent : Nat) (c : ServiceConfig) (fs : List Signature) :
    ((generate (ServiceUnit.render indent) c fs).isSome = true ↔
      Text.Identifier c.httpOrg.toList ∧ Text.Identifier c.httpModule.toList ∧
      ∀ f ∈ fs, f.Renderable) ∧
    ∀ gs : List Signature, fs.map Signature.names = gs.map Signature.names →
      (generate (ServiceUnit.render indent) c fs).isSome =
        (generate (ServiceUnit.render indent) c gs).isSome := by
  have hexact (hs : List Signature) :
      (generate (ServiceUnit.render indent) c hs).isSome = true ↔
        Text.Identifier c.httpOrg.toList ∧ Text.Identifier c.httpModule.toList ∧
        ∀ f ∈ hs, f.Renderable := by
    rw [generate_isSome_iff, (madeBy_unit indent (synthesize c hs)).exists_ok_iff, synthesize_allPass]
  refine ⟨hexact fs, fun gs h => ?_⟩
  rw [Bool.eq_iff_iff, hexact, hexact]
  have hsame : (∀ f ∈ fs, f.Renderable) ↔ ∀ g ∈ gs, g.Renderable :=
    ⟨Signature.forall_renderable_of_names_eq h, Signature.forall_renderable_of_names_eq h.symm⟩
  rw [hsame]

/-- A function with a quoted name and a default, next to one that differs from it in the type of its
parameter, which has no text at all there. -/
theorem generate_isSome_exact_quoted :
    let c : ServiceConfig := {}
    let function (type : TypeDesc) : Signature := .sample "'limit"
      [⟨"n", type, .defaultable (.call "get" [.positional (.source "1 + 1"), .rest (.name "größe")])⟩]
    let fs := [function (.primitive .int)]
    let gs := [function (.other "")]
    fs.map Signature.names = gs.map Signature.names ∧
      (∀ f ∈ fs, f.Renderable) ∧ (generate c.formatter c gs).isSome = true := by
  intro c function fs gs
  obtain ⟨hexact, hsame⟩ := generate_isSome_exact c.indent c fs
  have hsome : (generate c.formatter c fs).isSome = true := by decide +kernel
  exact ⟨rfl, (hexact.mp hsome).2.2, (hsame gs rfl).symm.trans hsome⟩

end FunctionService
