import FunctionService.Json.Basic
import FunctionService.Service.Synthesis

/-!
# Forwarding the payload

A generated resource takes its arguments out of a payload. Two templates have to agree for that: the
one that writes the fields of the payload record and the one that writes the arguments of the call.
This module gives the generated expressions a meaning and shows that they do agree.

Of the language the service is written in, only what the arguments rely on is fixed: an absent optional
field reads as nil, `a ?: b` is `a` unless that is nil, a list constructor builds a list, and `...xs`
passes the elements of a list. All the rest, calls and quoted source included, is a parameter
(`Language`).

A default is an expression like any other. It belongs where its function is declared, and there is no
payload there; but it is copied into the resource, where the payload parameter has a name. A default that
does not mention this name means the same in both places (`Language.eval_of_not_mentions`), and the walk
of the parameters (`Supplied`, `FailsAt`), which knows defaults only where they belong, says what the call
gets and which default failed otherwise. A default that mentions the name is captured: it can read a field
that the record lacks (`Signature.resource_captures_default`).
-/

namespace FunctionService

/-- Why an evaluation stops. -/
inductive EvalFault where
  | undeclaredField (field : String)
  | missingField (field : String)
  | notAList
  | raised (message : String)
  deriving DecidableEq

/-- Whether a fault is about a field of the payload. -/
def EvalFault.isAboutPayload : EvalFault → Bool
  | .undeclaredField _ => true
  | .missingField _ => true
  | .notAList => false
  | .raised _ => false

/-- What an expression of a resource is evaluated in: the parameter that takes the payload, the record
type of the payload, and the fields that the payload has. -/
structure Scope (V : Type) where
  payload : String
  record : PayloadRecord
  fields : String → Option V

/-- A language with values `V`. Names, calls and quoted source may look at the whole scope, if they have
one. -/
structure Language (V : Type) where
  nil : V
  isNil : V → Bool
  ofList : List V → V
  elements? : V → Option (List V)
  ofInt : Int64 → V
  /-- Whether a name is mentioned in quoted source. -/
  mentions : String → String → Bool
  name : Option (Scope V) → String → Except String V
  source : Option (Scope V) → String → Except String V
  field : V → String → Except String V
  call : Option (Scope V) → String → List V → Except String V
  new : QualifiedName → List V → Except String V
  isNil_nil : isNil nil = true
  elements?_ofList : ∀ vs, elements? (ofList vs) = some vs
  isNil_of_elements? : ∀ v vs, elements? v = some vs → isNil v = false

/-! ## Evaluation -/

/-- Whether an expression is a given name. -/
def Expression.isName (identifier : String) : Expression → Bool
  | .name other => identifier == other
  | _ => false

namespace Scope

variable {V : Type}

/-- Reads a field of the payload. The record has to declare it, and only an optional field may be
absent. -/
def read (s : Scope V) (nil : V) (field : String) : Except EvalFault V :=
  match s.record.fields.find? (·.name == field) with
  | none => .error (.undeclaredField field)
  | some declared =>
    match s.fields field with
    | some v => .ok v
    | none => if declared.isOptional then .ok nil else .error (.missingField field)

/-- If every field that must be there is there, then reading a declared field succeeds. -/
theorem read_declared {s : Scope V} (nil : V)
    (hpresent : ∀ d ∈ s.record.fields, d.isOptional = false → (s.fields d.name).isSome)
    {d : RecordField} (hd : d ∈ s.record.fields) :
    s.read nil d.name = .ok ((s.fields d.name).getD nil) := by
  unfold read
  cases hfind : s.record.fields.find? (·.name == d.name) with
  | none =>
      have hne := List.find?_eq_none.mp hfind d hd
      simp at hne
  | some first =>
      -- The declaration looked up is the first of its name, which need not be `d`.
      have hmem : first ∈ s.record.fields := List.mem_of_find?_eq_some hfind
      have hname : first.name = d.name := by simpa using List.find?_some hfind
      cases hfield : s.fields d.name with
      | some v => rfl
      | none =>
          cases hopt : first.isOptional with
          | true => simp [hopt]
          | false =>
              have hsome := hpresent first hmem hopt
              rw [hname, hfield] at hsome
              cases hsome

end Scope

/-- What the language says, with its error as a fault. -/
def raising {α : Type} (x : Except String α) : Except EvalFault α :=
  x.mapError .raised

namespace Language

variable {V : Type} (L : Language V)

section Evaluation

-- Without a scope an expression is evaluated where its function is declared. With one, the payload
-- parameter hides what else has its name, and only what mentions the name can see the payload.
variable (s : Option (Scope V))

/-- A call of a function. -/
def callIn (function : String) (vs : List V) : Except EvalFault V :=
  raising (L.call (s.filter (·.payload == function)) function vs)

mutual

/-- The value of an expression. -/
def eval : Expression → Except EvalFault V
  | .name identifier => raising (L.name (s.filter (·.payload == identifier)) identifier)
  | .fieldAccess target field =>
    match s.filter fun s => target.isName s.payload with
    | some s => s.read L.nil field
    | none => do raising (L.field (← eval target) field)
  | .elvis left right => do
    let v ← eval left
    if L.isNil v then eval right else return v
  | .list items => do return L.ofList (← evalItems items)
  | .call function arguments => do L.callIn s function (← evalArguments arguments)
  | .new typeName arguments => do raising (L.new typeName (← evalArguments arguments))
  | .int value => return L.ofInt value
  | .source text => raising (L.source (s.filter fun s => L.mentions s.payload text) text)

/-- The values of the items of a list constructor. -/
def evalItems : List Expression → Except EvalFault (List V)
  | [] => return []
  | item :: items => do
    let v ← eval item
    let vs ← evalItems items
    return v :: vs

/-- The values that one argument passes. -/
def evalArgument : Argument → Except EvalFault (List V)
  | .positional value => do return [← eval value]
  | .rest values => do
    match L.elements? (← eval values) with
    | some vs => return vs
    | none => throw .notAList

/-- The values that the arguments of a call pass, in order. -/
def evalArguments : List Argument → Except EvalFault (List V)
  | [] => return []
  | argument :: arguments => do
    let vs ← evalArgument argument
    let ws ← evalArguments arguments
    return vs ++ ws

end

end Evaluation

/-! ## Expressions that do not mention the payload -/

section Mention

variable (name : String)

mutual

/-- Whether a name is mentioned in an expression: as a name, as the function of a call or in quoted
source. -/
def mentionsIn : Expression → Bool
  | .name identifier => name == identifier
  | .fieldAccess target _ => mentionsIn target
  | .elvis left right => mentionsIn left || mentionsIn right
  | .list items => mentionsInItems items
  | .call function arguments => name == function || mentionsInArguments arguments
  | .new _ arguments => mentionsInArguments arguments
  | .int _ => false
  | .source text => L.mentions name text

/-- Whether a name is mentioned in one of several expressions. -/
def mentionsInItems : List Expression → Bool
  | [] => false
  | item :: items => mentionsIn item || mentionsInItems items

/-- Whether a name is mentioned in an argument. -/
def mentionsInArgument : Argument → Bool
  | .positional value => mentionsIn value
  | .rest values => mentionsIn values

/-- Whether a name is mentioned in one of several arguments. -/
def mentionsInArguments : List Argument → Bool
  | [] => false
  | argument :: arguments => mentionsInArgument argument || mentionsInArguments arguments

end

end Mention

theorem isName_of_not_mentions {name : String} {e : Expression} (h : L.mentionsIn name e = false) :
    e.isName name = false := by
  cases e with
  | name identifier => exact h
  | _ => rfl

variable {L}

mutual

/-- An expression that does not mention the payload parameter means the same with and without it. -/
theorem eval_of_not_mentions {s : Scope V} :
    ∀ e : Expression, L.mentionsIn s.payload e = false → L.eval (some s) e = L.eval none e
  | .name identifier, h => by
    rw [mentionsIn] at h
    simp [eval, Option.filter_some, h]
  | .fieldAccess target field, h => by
    rw [mentionsIn] at h
    simp [eval, Option.filter_some, L.isName_of_not_mentions h, eval_of_not_mentions target h]
  | .elvis left right, h => by
    rw [mentionsIn, Bool.or_eq_false_iff] at h
    simp [eval, eval_of_not_mentions left h.1, eval_of_not_mentions right h.2]
  | .list items, h => by
    rw [mentionsIn] at h
    simp [eval, evalItems_of_not_mentions items h]
  | .call function arguments, h => by
    rw [mentionsIn, Bool.or_eq_false_iff] at h
    simp [eval, callIn, Option.filter_some, h.1, evalArguments_of_not_mentions arguments h.2]
  | .new typeName arguments, h => by
    rw [mentionsIn] at h
    simp [eval, evalArguments_of_not_mentions arguments h]
  | .int _, _ => rfl
  | .source text, h => by
    rw [mentionsIn] at h
    simp [eval, Option.filter_some, h]

theorem evalItems_of_not_mentions {s : Scope V} :
    ∀ items : List Expression, L.mentionsInItems s.payload items = false →
      L.evalItems (some s) items = L.evalItems none items
  | [], _ => rfl
  | item :: items, h => by
    rw [mentionsInItems, Bool.or_eq_false_iff] at h
    simp [evalItems, eval_of_not_mentions item h.1, evalItems_of_not_mentions items h.2]

theorem evalArgument_of_not_mentions {s : Scope V} :
    ∀ argument : Argument, L.mentionsInArgument s.payload argument = false →
      L.evalArgument (some s) argument = L.evalArgument none argument
  | .positional value, h => by
    rw [mentionsInArgument] at h
    simp [evalArgument, eval_of_not_mentions value h]
  | .rest values, h => by
    rw [mentionsInArgument] at h
    simp [evalArgument, eval_of_not_mentions values h]

theorem evalArguments_of_not_mentions {s : Scope V} :
    ∀ arguments : List Argument, L.mentionsInArguments s.payload arguments = false →
      L.evalArguments (some s) arguments = L.evalArguments none arguments
  | [], _ => rfl
  | argument :: arguments, h => by
    rw [mentionsInArguments, Bool.or_eq_false_iff] at h
    simp [evalArguments, evalArgument_of_not_mentions argument h.1,
      evalArguments_of_not_mentions arguments h.2]

end

theorem callIn_of_ne {s : Scope V} {function : String} (h : s.payload ≠ function) (vs : List V) :
    L.callIn (some s) function vs = L.callIn none function vs := by
  simp [callIn, Option.filter_some, h]

/-! ## Faults about the payload -/

/-- A computation that fails, if it does, for other reasons than a field of the payload. -/
def SparesPayload {α : Type} (x : Except EvalFault α) : Prop :=
  ∀ fault, x = .error fault → fault.isAboutPayload = false

theorem sparesPayload_ok {α : Type} (a : α) : SparesPayload (.ok a) := by
  rintro fault ⟨⟩

theorem sparesPayload_raising {α : Type} (x : Except String α) : SparesPayload (raising x) := by
  intro fault h
  cases x with
  | error message =>
      cases h
      rfl
  | ok a => cases h

theorem raising_ne_notAList {α : Type} (x : Except String α) : raising x ≠ .error .notAList := by
  cases x with
  | error message => rintro ⟨⟩
  | ok a => rintro ⟨⟩

theorem SparesPayload.bind {α β : Type} {x : Except EvalFault α} {f : α → Except EvalFault β}
    (hx : SparesPayload x) (hf : ∀ a, SparesPayload (f a)) : SparesPayload (x >>= f) := by
  cases x with
  | error fault => exact fun fault' h => hx fault' (by cases h; rfl)
  | ok a => exact hf a

mutual

/-- Where there is no payload, none of its fields is read. -/
theorem eval_sparesPayload : ∀ e : Expression, SparesPayload (L.eval none e)
  | .name _ => by
    rw [eval]
    exact sparesPayload_raising _
  | .fieldAccess target field => by
    rw [eval]
    exact (eval_sparesPayload target).bind fun _ => sparesPayload_raising _
  | .elvis left right => by
    rw [eval]
    refine (eval_sparesPayload left).bind fun v => ?_
    split
    · exact eval_sparesPayload right
    · exact sparesPayload_ok v
  | .list items => by
    rw [eval]
    exact (evalItems_sparesPayload items).bind fun _ => sparesPayload_ok _
  | .call function arguments => by
    rw [eval]
    exact (evalArguments_sparesPayload arguments).bind fun _ => sparesPayload_raising _
  | .new typeName arguments => by
    rw [eval]
    exact (evalArguments_sparesPayload arguments).bind fun _ => sparesPayload_raising _
  | .int _ => by
    rw [eval]
    exact sparesPayload_ok _
  | .source _ => by
    rw [eval]
    exact sparesPayload_raising _

theorem evalItems_sparesPayload :
    ∀ items : List Expression, SparesPayload (L.evalItems none items)
  | [] => by
    rw [evalItems]
    exact sparesPayload_ok _
  | item :: items => by
    rw [evalItems]
    exact (eval_sparesPayload item).bind fun _ =>
      (evalItems_sparesPayload items).bind fun _ => sparesPayload_ok _

theorem evalArgument_sparesPayload :
    ∀ argument : Argument, SparesPayload (L.evalArgument none argument)
  | .positional value => by
    rw [evalArgument]
    exact (eval_sparesPayload value).bind fun _ => sparesPayload_ok _
  | .rest values => by
    rw [evalArgument]
    refine (eval_sparesPayload values).bind fun v => ?_
    split
    · exact sparesPayload_ok _
    · rintro fault ⟨⟩
      rfl

theorem evalArguments_sparesPayload :
    ∀ arguments : List Argument, SparesPayload (L.evalArguments none arguments)
  | [] => by
    rw [evalArguments]
    exact sparesPayload_ok _
  | argument :: arguments => by
    rw [evalArguments]
    exact (evalArgument_sparesPayload argument).bind fun _ =>
      (evalArguments_sparesPayload arguments).bind fun _ => sparesPayload_ok _

end

/-! ## What the parameters are given -/

section Walk

variable (L) (fields : String → Option V)

/-- The payload gives nothing for a field: it is absent, or nil. -/
def Unset (field : String) : Prop :=
  ∀ v, fields field = some v → L.isNil v = true

/-- The values that a payload gives for one parameter. A default is evaluated where it belongs. -/
inductive Supplies : Parameter → List V → Prop
  | required {name : String} {type : TypeDesc} {v : V} :
      fields name = some v → Supplies ⟨name, type, .required⟩ [v]
  | given {name : String} {type : TypeDesc} {default : Expression} {v : V} :
      fields name = some v → L.isNil v = false → Supplies ⟨name, type, .defaultable default⟩ [v]
  | defaulted {name : String} {type : TypeDesc} {default : Expression} {v : V} :
      L.Unset fields name → L.eval none default = .ok v → Supplies ⟨name, type, .defaultable default⟩ [v]
  | elements {name : String} {type : TypeDesc} {v : V} {vs : List V} :
      fields name = some v → L.elements? v = some vs → Supplies ⟨name, type, .rest⟩ vs
  | nothing {name : String} {type : TypeDesc} :
      L.Unset fields name → Supplies ⟨name, type, .rest⟩ []

/-- The values that a payload gives for parameters, in the order of the parameters. -/
inductive Supplied : List Parameter → List V → Prop
  | nil : Supplied [] []
  | cons {p : Parameter} {ps : List Parameter} {vs ws : List V} :
      L.Supplies fields p vs → Supplied ps ws → Supplied (p :: ps) (vs ++ ws)

/-- The walk of the parameters comes to one whose default is needed, and that default fails. -/
inductive FailsAt : List Parameter → EvalFault → Prop
  | here {name : String} {type : TypeDesc} {default : Expression} {ps : List Parameter}
      {fault : EvalFault} : L.Unset fields name → L.eval none default = .error fault →
      FailsAt (⟨name, type, .defaultable default⟩ :: ps) fault
  | later {p : Parameter} {ps : List Parameter} {vs : List V} {fault : EvalFault} :
      L.Supplies fields p vs → FailsAt ps fault → FailsAt (p :: ps) fault

end Walk

theorem FailsAt.isAboutPayload {fields : String → Option V} {ps : List Parameter} {fault : EvalFault}
    (h : L.FailsAt fields ps fault) : fault.isAboutPayload = false := by
  induction h with
  | here _ hfault => exact eval_sparesPayload _ _ hfault
  | later _ _ ih => exact ih

variable (L)

/-- The payload conforms to the record of a function: it has every field that is not optional, and
what it has for a rest parameter is a list, unless it is nil. -/
structure Conforms (f : Signature) (record : PayloadRecord) (fields : String → Option V) : Prop where
  present : ∀ d ∈ record.fields, d.isOptional = false → (fields d.name).isSome
  list : ∀ p ∈ f.parameters, p.kind = .rest → ∀ v, fields p.name = some v → L.isNil v = false →
    ∃ vs, L.elements? v = some vs

/-- A parameter whose default, if it has one, does not mention the payload parameter. -/
def CapturesNothing (p : Parameter) : Prop :=
  ∀ default, p.kind = .defaultable default → L.mentionsIn payloadVariable default = false

/-- What the argument for a parameter relies on. -/
structure Fits (s : Scope V) (p : Parameter) : Prop where
  payload : s.payload = payloadVariable
  read : s.read L.nil p.name = .ok ((s.fields p.name).getD L.nil)
  present : p.kind = .required → (s.fields p.name).isSome
  list : p.kind = .rest → ∀ v, s.fields p.name = some v → L.isNil v = false →
    ∃ vs, L.elements? v = some vs
  capturesNothing : L.CapturesNothing p

variable {L} {s : Scope V} {p : Parameter} {ps : List Parameter}

/-- The record has the field of every parameter, so a payload that conforms to it fits all of them. -/
theorem Conforms.fits {f : Signature} {fields : String → Option V} {name : String}
    (h : L.Conforms f ⟨name, f.parameters.map Parameter.recordField⟩ fields)
    (hp : p ∈ f.parameters) (hcaptures : L.CapturesNothing p) :
    L.Fits ⟨payloadVariable, ⟨name, f.parameters.map Parameter.recordField⟩, fields⟩ p := by
  have hd : p.recordField ∈ f.parameters.map Parameter.recordField := List.mem_map_of_mem hp
  refine ⟨rfl, ?_, ?_, h.list p hp, hcaptures⟩
  · rw [← p.recordField_name]
    exact Scope.read_declared L.nil h.present hd
  · intro hkind
    have hrequired : p.recordField.isOptional = false := by simp [Parameter.recordField, hkind]
    have hsome := h.present p.recordField hd hrequired
    rwa [p.recordField_name] at hsome

/-! ## One argument -/

theorem evalArgument_positional {e : Expression} {v : V} (h : L.eval (some s) e = .ok v) :
    L.evalArgument (some s) (.positional e) = .ok [v] := by
  simp [evalArgument, h, bind, Except.bind, pure, Except.pure]

theorem evalArgument_rest {e : Expression} {v : V} {vs : List V} (h : L.eval (some s) e = .ok v)
    (hvs : L.elements? v = some vs) : L.evalArgument (some s) (.rest e) = .ok vs := by
  simp [evalArgument, h, hvs, bind, Except.bind, pure, Except.pure]

namespace Fits

/-- The access to the field of a parameter succeeds. -/
theorem eval_field (h : L.Fits s p) :
    L.eval (some s) (.fieldAccess (.name payloadVariable) p.name) = .ok ((s.fields p.name).getD L.nil) := by
  simp [eval, Expression.isName, Option.filter_some, h.payload, h.read]

/-- A default means in the resource what it means where it belongs. -/
theorem eval_default (h : L.Fits s p) {default : Expression} (hkind : p.kind = .defaultable default) :
    L.eval (some s) default = L.eval none default :=
  eval_of_not_mentions default (h.payload ▸ h.capturesNothing default hkind)

/-- A field that gives nothing leaves the value to the other side. -/
theorem eval_elvis_unset (h : L.Fits s p) (hu : L.Unset s.fields p.name) (other : Expression) :
    L.eval (some s) (.elvis (.fieldAccess (.name payloadVariable) p.name) other) = L.eval (some s) other := by
  have hnil : L.isNil ((s.fields p.name).getD L.nil) = true := by
    cases hfield : s.fields p.name with
    | none => exact L.isNil_nil
    | some v => exact hu v hfield
  rw [eval, h.eval_field]
  simp [bind, Except.bind, hnil]

/-- A field that gives something decides the value. -/
theorem eval_elvis_set (h : L.Fits s p) {v : V} (hv : s.fields p.name = some v)
    (hn : L.isNil v = false) (other : Expression) :
    L.eval (some s) (.elvis (.fieldAccess (.name payloadVariable) p.name) other) = .ok v := by
  rw [eval, h.eval_field, hv]
  simp [bind, Except.bind, hn, pure, Except.pure]

/-- The argument passes what the payload gives for the parameter. -/
theorem evalArgument_eq (h : L.Fits s p) {vs : List V} (hvs : L.Supplies s.fields p vs) :
    L.evalArgument (some s) p.callArgument = .ok vs := by
  cases hvs with
  | required hv =>
      apply evalArgument_positional
      rw [h.eval_field, hv]
      rfl
  | given hv hn =>
      apply evalArgument_positional
      exact h.eval_elvis_set hv hn _
  | defaulted hu hdefault =>
      apply evalArgument_positional
      rw [h.eval_elvis_unset hu, h.eval_default rfl, hdefault]
  | elements hv hvs =>
      -- A list is not nil, so the field itself is spread.
      have hn := L.isNil_of_elements? _ _ hvs
      exact evalArgument_rest (h.eval_elvis_set hv hn _) hvs
  | nothing hu =>
      have hempty : L.eval (some s) (.list []) = .ok (L.ofList []) := by
        simp [eval, evalItems, bind, Except.bind, pure, Except.pure]
      refine evalArgument_rest ?_ (L.elements?_ofList [])
      rw [h.eval_elvis_unset hu, hempty]

/-- A default that is needed and fails makes the argument fail, in the same way. -/
theorem evalArgument_error (h : L.Fits s p) {default : Expression} {fault : EvalFault}
    (hkind : p.kind = .defaultable default) (hu : L.Unset s.fields p.name)
    (hfault : L.eval none default = .error fault) :
    L.evalArgument (some s) p.callArgument = .error fault := by
  have hread := h.eval_elvis_unset hu
  simp [Parameter.callArgument, hkind, evalArgument, hread, h.eval_default hkind, hfault, bind,
    Except.bind]

/-- The payload gives values for the parameter, unless its default is needed and fails. -/
theorem supplies_or_fails (h : L.Fits s p) :
    (∃ vs, L.Supplies s.fields p vs) ∨ ∃ default fault, p.kind = .defaultable default ∧
      L.Unset s.fields p.name ∧ L.eval none default = .error fault := by
  obtain ⟨name, type, kind⟩ := p
  by_cases hu : L.Unset s.fields name
  · cases kind with
    | required =>
        obtain ⟨v, hv⟩ := Option.isSome_iff_exists.mp (h.present rfl)
        exact .inl ⟨[v], .required hv⟩
    | defaultable default =>
        cases hdefault : L.eval none default with
        | ok v => exact .inl ⟨[v], .defaulted hu hdefault⟩
        | error fault => exact .inr ⟨default, fault, rfl, hu, hdefault⟩
    | rest => exact .inl ⟨[], .nothing hu⟩
  · obtain ⟨v, hv, hn⟩ : ∃ v, s.fields name = some v ∧ L.isNil v = false := by
      simpa [Unset] using hu
    cases kind with
    | required => exact .inl ⟨[v], .required hv⟩
    | defaultable default => exact .inl ⟨[v], .given hv hn⟩
    | rest =>
        obtain ⟨vs, hvs⟩ := h.list rfl v hv hn
        exact .inl ⟨vs, .elements hv hvs⟩

end Fits

/-! ## The whole walk -/

/-- The arguments pass what the payload gives for the parameters. -/
theorem evalArguments_eq (hfits : ∀ p ∈ ps, L.Fits s p) {vs : List V} (h : L.Supplied s.fields ps vs) :
    L.evalArguments (some s) (ps.map Parameter.callArgument) = .ok vs := by
  induction h with
  | nil => rfl
  | cons hp _ ih =>
      have hhead := (hfits _ List.mem_cons_self).evalArgument_eq hp
      have htail := ih fun q hq => hfits q (List.mem_cons_of_mem _ hq)
      simp [evalArguments, hhead, htail, bind, Except.bind, pure, Except.pure]

/-- The arguments fail as the first default that fails does. -/
theorem evalArguments_error (hfits : ∀ p ∈ ps, L.Fits s p) {fault : EvalFault}
    (h : L.FailsAt s.fields ps fault) :
    L.evalArguments (some s) (ps.map Parameter.callArgument) = .error fault := by
  induction h with
  | here hu hfault =>
      have hhead := (hfits _ List.mem_cons_self).evalArgument_error rfl hu hfault
      simp [evalArguments, hhead, bind, Except.bind]
  | later hp _ ih =>
      have hhead := (hfits _ List.mem_cons_self).evalArgument_eq hp
      have htail := ih fun q hq => hfits q (List.mem_cons_of_mem _ hq)
      simp [evalArguments, hhead, htail, bind, Except.bind]

/-- The body calls the function with what the payload gives for the parameters. -/
theorem eval_body_eq {f : Signature} {c : ServiceConfig} (hfits : ∀ p ∈ f.parameters, L.Fits s p)
    {vs : List V} (h : L.Supplied s.fields f.parameters vs) :
    L.eval (some s) (f.resource c).body = L.callIn (some s) f.name vs := by
  simp only [Signature.resource, eval, evalArguments_eq hfits h]
  rfl

/-- The body fails as the first default that fails does. -/
theorem eval_body_error {f : Signature} {c : ServiceConfig} (hfits : ∀ p ∈ f.parameters, L.Fits s p)
    {fault : EvalFault} (h : L.FailsAt s.fields f.parameters fault) :
    L.eval (some s) (f.resource c).body = .error fault := by
  simp only [Signature.resource, eval, evalArguments_error hfits h]
  rfl

/-- The walk comes to its end, or to a default that fails. -/
theorem supplied_or_failsAt (hfits : ∀ p ∈ ps, L.Fits s p) :
    (∃ vs, L.Supplied s.fields ps vs) ∨ ∃ fault, L.FailsAt s.fields ps fault := by
  induction ps with
  | nil => exact .inl ⟨[], .nil⟩
  | cons p ps ih =>
      rcases (hfits p List.mem_cons_self).supplies_or_fails with
        ⟨vs, hvs⟩ | ⟨default, fault, hkind, hu, hfault⟩
      · rcases ih fun q hq => hfits q (List.mem_cons_of_mem _ hq) with ⟨ws, hws⟩ | ⟨fault, hfault⟩
        · exact .inl ⟨vs ++ ws, .cons hvs hws⟩
        · exact .inr ⟨fault, .later hvs hfault⟩
      · obtain ⟨name, type, kind⟩ := p
        subst hkind
        exact .inr ⟨fault, .here hu hfault⟩

/-- The body does not fail at the payload. -/
theorem eval_body_sparesPayload {f : Signature} {c : ServiceConfig}
    (hfits : ∀ p ∈ f.parameters, L.Fits s p) : SparesPayload (L.eval (some s) (f.resource c).body) := by
  obtain ⟨vs, hvs⟩ | ⟨fault, hfault⟩ := supplied_or_failsAt hfits
  · rw [eval_body_eq hfits hvs]
    exact sparesPayload_raising _
  · rw [eval_body_error hfits hfault]
    rintro _ ⟨⟩
    exact hfault.isAboutPayload

/-- If the body spreads what is not a list, a default that is needed does so by itself. -/
theorem failsAt_of_eval_body {f : Signature} {c : ServiceConfig} (hfits : ∀ p ∈ f.parameters, L.Fits s p)
    (h : L.eval (some s) (f.resource c).body = .error .notAList) :
    L.FailsAt s.fields f.parameters .notAList := by
  obtain ⟨vs, hvs⟩ | ⟨fault, hfault⟩ := supplied_or_failsAt hfits
  · rw [eval_body_eq hfits hvs] at h
    exact absurd h (raising_ne_notAList _)
  · obtain rfl : fault = .notAList := Except.error.inj ((eval_body_error hfits hfault).symm.trans h)
    exact hfault

end Language

/-- **A resource forwards its payload.** Let no default of a function with parameters mention the payload
parameter. That parameter has the type of the payload record, which declares a list for every rest
parameter. Under every payload that conforms to the record, the body calls the function with exactly what
the payload gives for the parameters, in order, and unless the function itself has the name of the payload
parameter that is the function as it is declared. Otherwise a default that is needed fails where it
belongs, and the body fails in the same way. So no field that the record lacks is read and no field that
may be absent is taken for granted, and nothing but a list is spread, unless such a default does so by
itself. -/
theorem Signature.resource_forwards_payload {V : Type} (L : Language V) (c : ServiceConfig)
    (f : Signature) (hf : f.parameters ≠ []) (hdefaults : ∀ p ∈ f.parameters, L.CapturesNothing p) :
    ∃ payload record, (f.resource c).payload = some payload ∧ f.payloadRecord? = some record ∧
      payload.typeName = record.name ∧
      (∀ p ∈ f.parameters, p.kind = .rest →
        (⟨.array p.type, p.name, true⟩ : RecordField) ∈ record.fields) ∧
      ∀ fields, L.Conforms f record fields →
        let run := L.eval (some ⟨payload.name, record, fields⟩) (f.resource c).body
        (∀ vs, L.Supplied fields f.parameters vs →
          run = L.callIn (some ⟨payload.name, record, fields⟩) f.name vs ∧
          (f.name ≠ payload.name → run = L.callIn none f.name vs)) ∧
        (∀ fault, L.FailsAt fields f.parameters fault → run = .error fault) ∧
        ((∃ vs, L.Supplied fields f.parameters vs) ∨ ∃ fault, L.FailsAt fields f.parameters fault) ∧
        (∀ field, run ≠ .error (.undeclaredField field) ∧ run ≠ .error (.missingField field)) ∧
        (run = .error .notAList → L.FailsAt fields f.parameters .notAList) := by
  have hhas : f.hasParameters = true := by simpa [hasParameters] using hf
  refine ⟨⟨⟨some c.httpModule, "Payload"⟩, f.payloadTypeName, payloadVariable⟩,
    ⟨f.payloadTypeName, f.parameters.map Parameter.recordField⟩, by simp [resource, hhas],
    by simp [payloadRecord?, hhas], rfl, ?_, ?_⟩
  · intro p hp hkind
    refine List.mem_map.mpr ⟨p, hp, ?_⟩
    simp [Parameter.recordField, hkind]
  · intro fields hconforms run
    have hfits := fun p hp => hconforms.fits hp (hdefaults p hp)
    refine ⟨fun vs hvs => ⟨Language.eval_body_eq hfits hvs, fun hname => ?_⟩,
      fun fault hfault => Language.eval_body_error hfits hfault, Language.supplied_or_failsAt hfits,
      fun field => ⟨fun h => ?_, fun h => ?_⟩, Language.failsAt_of_eval_body hfits⟩
    · exact (Language.eval_body_eq hfits hvs).trans (Language.callIn_of_ne hname.symm vs)
    · cases Language.eval_body_sparesPayload hfits _ h
    · cases Language.eval_body_sparesPayload hfits _ h

/-- A language over JSON values: a call gives back what was called with what, and quoted source is one
word and its own value. -/
def Json.language : Language Json where
  nil := .null
  isNil
    | .null => true
    | _ => false
  ofList := .arr
  elements?
    | .arr items => some items
    | _ => none
  ofInt value := .int value.toInt
  mentions name text := name == text
  name _ identifier := .ok (.str identifier)
  source _ text := .ok (.str text)
  field _ field := .error field
  call _ function arguments := .ok (.obj [(function, .arr arguments)])
  new _ arguments := .ok (.arr arguments)
  isNil_nil := rfl
  elements?_ofList _ := rfl
  isNil_of_elements? v vs h := by cases v <;> simp_all

/-- A function with the given parameters. -/
def scaleSignature (parameters : List Parameter) : Signature where
  name := "scale"
  isPublic := true
  isIsolated := true
  isExpressionBodied := true
  parameters := parameters
  returnType := some (.primitive .int)
  isAnnotated := false
  location := default

/-- Parameters of every kind. -/
def scaleParameters : List Parameter :=
  [⟨"base", .primitive .int, .required⟩, ⟨"factor", .primitive .int, .defaultable (.source "2")⟩,
    ⟨"offset", .primitive .int, .defaultable (.source "0")⟩, ⟨"more", .primitive .int, .rest⟩]

/-- A payload for `scaleParameters` without a factor. -/
def scalePayload (field : String) : Option Json :=
  if field = "base" then some (.int 1)
  else if field = "offset" then some (.int 7)
  else if field = "more" then some (.arr [.int 5, .int 6])
  else none

theorem Signature.resource_forwards_payload_scale :
    let f := scaleSignature scaleParameters
    f.parameters ≠ [] ∧ (∀ p ∈ f.parameters, Json.language.CapturesNothing p) ∧
      ∃ payload record, (f.resource {}).payload = some payload ∧ f.payloadRecord? = some record ∧
        Json.language.Conforms f record scalePayload ∧
        Json.language.eval (some ⟨payload.name, record, scalePayload⟩) (f.resource {}).body =
          .ok (.obj [("scale", .arr [.int 1, .str "2", .int 7, .int 5, .int 6])]) := by
  intro f
  have hparameters : f.parameters ≠ [] := by simp [f, scaleSignature, scaleParameters]
  have hdefaults : ∀ p ∈ f.parameters, Json.language.CapturesNothing p := by
    simp [f, scaleSignature, scaleParameters, Language.CapturesNothing, Language.mentionsIn,
      Json.language, payloadVariable]
  obtain ⟨payload, record, hpayload, hrecord, -, -, hforwards⟩ :=
    Signature.resource_forwards_payload Json.language {} f hparameters hdefaults
  obtain rfl : ⟨f.payloadTypeName, f.parameters.map Parameter.recordField⟩ = record :=
    Option.some.inj hrecord
  have hconforms : Json.language.Conforms f
      ⟨f.payloadTypeName, f.parameters.map Parameter.recordField⟩ scalePayload := by
    constructor
    · simp [f, scaleSignature, scaleParameters, Parameter.recordField, scalePayload]
    · simp [f, scaleSignature, scaleParameters, scalePayload, Json.language]
  have hsupplied : Json.language.Supplied scalePayload f.parameters
      ([.int 1] ++ ([.str "2"] ++ ([.int 7] ++ ([.int 5, .int 6] ++ [])))) := by
    refine .cons (.required rfl) (.cons (.defaulted ?_ rfl) ?_)
    · intro v hv
      cases hv
    · exact .cons (.given rfl rfl) (.cons (.elements rfl rfl) .nil)
  exact ⟨hparameters, hdefaults, payload, _, hpayload, hrecord, hconforms,
    ((hforwards scalePayload hconforms).1 _ hsupplied).1⟩

/-- The body of a resource for one defaulted parameter, under a payload without fields, which conforms
to its record. -/
def evalDefaulted (default : Expression) : Except EvalFault Json :=
  let f := scaleSignature [⟨"factor", .primitive .int, .defaultable default⟩]
  Json.language.eval (some ⟨payloadVariable, ⟨f.payloadTypeName, f.parameters.map Parameter.recordField⟩,
    fun _ => none⟩) (f.resource {}).body

/-- A default that mentions the payload parameter is captured by it: under a payload that conforms, the
resource reads a field that the record does not declare. Where the default belongs there is no payload,
and it fails by itself. A default can also spread what is not a list, with no payload involved. -/
theorem Signature.resource_captures_default :
    let default := Expression.fieldAccess (.name payloadVariable) "zzz"
    let spread := Expression.call "sum" [.rest (.int 1)]
    (∃ record, (scaleSignature [⟨"factor", .primitive .int, .defaultable default⟩]).payloadRecord? =
      some record ∧ Json.language.Conforms
        (scaleSignature [⟨"factor", .primitive .int, .defaultable default⟩]) record fun _ => none) ∧
    evalDefaulted default = .error (.undeclaredField "zzz") ∧
    Json.language.eval none default = .error (.raised "zzz") ∧
    evalDefaulted spread = .error .notAList := by
  refine ⟨⟨_, rfl, ?_, ?_⟩, rfl, rfl, rfl⟩
  · simp [scaleSignature, Parameter.recordField]
  · simp [scaleSignature]

end FunctionService
