import FunctionService.Proofs.Tokens

/-!
# The spelling of types is unambiguous

A union inside a union is written without parentheses, and so is a union of one member, so the spelling of
a type does not say how its unions are nested. It says everything else: `TypeDesc.normal` is a type with
nested unions flattened and unions of one member replaced by their member, and `TypeDesc.read?` recovers
it from the spelling. So types that are spelled alike have the same normal form.

The reader goes through a text once. It keeps the brackets that are open, and for each of them the
alternatives read before it; `|` starts a new alternative, and `[]` turns the last one into an array.
-/

namespace FunctionService.TypeDesc

open Text

/-! ## Types that can be spelled -/

/-- Types whose spelling can be read: no type of unknown form occurs in them, every union has a member,
and every name is an identifier that is not the keyword of a primitive type. -/
inductive Legible : TypeDesc → Prop
  | primitive (kind : Primitive) : Legible (.primitive kind)
  | array {element : TypeDesc} : Legible element → Legible (.array element)
  | map {value : TypeDesc} : Legible value → Legible (.map value)
  | table {row : TypeDesc} : Legible row → Legible (.table row)
  | named {name : String} :
      Identifier name.toList → (∀ kind : Primitive, name ≠ kind.keyword) → Legible (.named name)
  | nil : Legible .nil
  | union {members : List TypeDesc} :
      members ≠ [] → (∀ m ∈ members, Legible m) → Legible (.union members)

/-! ## The normal form -/

/-- The type with the given alternatives, which is a union unless there is one of them. -/
def ofAlternatives : List TypeDesc → TypeDesc
  | [t] => t
  | ts => .union ts

mutual

/-- The alternatives of a type, each in normal form: those of its members, one after another, if it is a
union, and otherwise the type alone. -/
def alternatives : TypeDesc → List TypeDesc
  | .primitive kind => [.primitive kind]
  | .array element => [.array (ofAlternatives element.alternatives)]
  | .map value => [.map (ofAlternatives value.alternatives)]
  | .table row => [.table (ofAlternatives row.alternatives)]
  | .named name => [.named name]
  | .nil => [.nil]
  | .union members => alternativesOfAll members
  | .other text => [.other text]

/-- The alternatives of types, one after another. -/
def alternativesOfAll : List TypeDesc → List TypeDesc
  | [] => []
  | t :: ts => t.alternatives ++ alternativesOfAll ts

end

/-- The type with nested unions flattened and unions of one member replaced by their member, at every
depth. -/
def normal (t : TypeDesc) : TypeDesc :=
  ofAlternatives t.alternatives

theorem alternativesOfAll_eq_flatMap (ts : List TypeDesc) :
    alternativesOfAll ts = ts.flatMap alternatives := by
  induction ts with
  | nil => rfl
  | cons t ts ih => rw [alternativesOfAll, ih, List.flatMap_cons]

/-- A type that is not written as a union is its only alternative. -/
theorem alternatives_of_not_isUnion {t : TypeDesc} (h : t.isUnion = false) :
    t.alternatives = [t.normal] := by
  cases t with
  | union members => cases h
  | _ => rfl

/-- Every union in a type, at any depth, has two members or more, and none of them is a union. -/
inductive Flat : TypeDesc → Prop
  | primitive (kind : Primitive) : Flat (.primitive kind)
  | array {element : TypeDesc} : Flat element → Flat (.array element)
  | map {value : TypeDesc} : Flat value → Flat (.map value)
  | table {row : TypeDesc} : Flat row → Flat (.table row)
  | named (name : String) : Flat (.named name)
  | nil : Flat .nil
  | union {members : List TypeDesc} :
      2 ≤ members.length → (∀ m ∈ members, m.isUnion = false) → (∀ m ∈ members, Flat m) →
      Flat (.union members)
  | other (text : String) : Flat (.other text)

theorem ofAlternatives_of_two_le {ts : List TypeDesc} (h : 2 ≤ ts.length) :
    ofAlternatives ts = .union ts := by
  match ts, h with
  | _ :: _ :: _, _ => rfl

/-- Members that are no unions and in normal form are the alternatives of their union. -/
theorem alternativesOfAll_eq_self {ts : List TypeDesc} (hunion : ∀ t ∈ ts, t.isUnion = false)
    (hnormal : ∀ t ∈ ts, t.normal = t) : alternativesOfAll ts = ts := by
  induction ts with
  | nil => rfl
  | cons t ts ih =>
      rw [List.forall_mem_cons] at hunion hnormal
      rw [alternativesOfAll, alternatives_of_not_isUnion hunion.1, hnormal.1, ih hunion.2 hnormal.2]
      rfl

/-- Flat types are their own normal form. -/
theorem Flat.normal_eq {t : TypeDesc} (h : t.Flat) : t.normal = t := by
  induction h with
  | primitive kind => rfl
  | array _ ih => exact congrArg TypeDesc.array ih
  | map _ ih => exact congrArg TypeDesc.map ih
  | table _ ih => exact congrArg TypeDesc.table ih
  | named name => rfl
  | nil => rfl
  | union hlength hunion _ ih =>
      rw [normal, alternatives, alternativesOfAll_eq_self hunion ih, ofAlternatives_of_two_le hlength]
  | other text => rfl

theorem flat_ofAlternatives {ts : List TypeDesc} (hne : ts ≠ [])
    (h : ∀ t ∈ ts, t.isUnion = false ∧ t.Flat) : (ofAlternatives ts).Flat := by
  match ts, hne with
  | [t], _ => exact (h t List.mem_cons_self).2
  | t :: u :: ts, _ =>
      refine .union (Nat.le_add_left 2 ts.length) ?_ ?_
      · intro m hm
        exact (h m hm).1
      · intro m hm
        exact (h m hm).2

/-- There are alternatives of a legible type, and they are flat and no unions. -/
theorem Legible.flat_alternatives {t : TypeDesc} (h : t.Legible) :
    t.alternatives ≠ [] ∧ ∀ a ∈ t.alternatives, a.isUnion = false ∧ a.Flat := by
  have hsingle {a : TypeDesc} (hunion : a.isUnion = false) (hflat : a.Flat) :
      [a] ≠ [] ∧ ∀ b ∈ [a], b.isUnion = false ∧ b.Flat := by
    simp [hunion, hflat]
  induction h with
  | primitive kind => exact hsingle rfl (.primitive kind)
  | array _ ih => exact hsingle rfl (.array (flat_ofAlternatives ih.1 ih.2))
  | map _ ih => exact hsingle rfl (.map (flat_ofAlternatives ih.1 ih.2))
  | table _ ih => exact hsingle rfl (.table (flat_ofAlternatives ih.1 ih.2))
  | @named name _ _ => exact hsingle rfl (.named name)
  | nil => exact hsingle rfl .nil
  | @union members hne _ ih =>
      rw [alternatives, alternativesOfAll_eq_flatMap]
      refine ⟨?_, ?_⟩
      · obtain ⟨m, hm⟩ := List.exists_mem_of_ne_nil members hne
        obtain ⟨a, ha⟩ := List.exists_mem_of_ne_nil _ (ih m hm).1
        exact List.ne_nil_of_mem (List.mem_flatMap.mpr ⟨m, hm, ha⟩)
      · intro a ha
        obtain ⟨m, hm, ha⟩ := List.mem_flatMap.mp ha
        exact (ih m hm).2 a ha

theorem Legible.flat_normal {t : TypeDesc} (h : t.Legible) : t.normal.Flat :=
  flat_ofAlternatives h.flat_alternatives.1 h.flat_alternatives.2

theorem spellings_eq_map (ts : List TypeDesc) : spellings ts = ts.map spelling := by
  induction ts with
  | nil => rfl
  | cons t ts ih => rw [spellings, ih, List.map_cons]

/-! ## The reader -/

namespace Reading

/-- What an open bracket is for. -/
inductive Bracket where
  | group
  | map
  | table

namespace Bracket

/-- The bracket that `<` opens behind a word. -/
def ofWord? (letters : List Char) : Option Bracket :=
  if letters = ['m', 'a', 'p'] then some .map
  else if letters = ['t', 'a', 'b', 'l', 'e'] then some .table
  else none

/-- The mark that closes a bracket. -/
def closing : Bracket → Char
  | .group => ')'
  | .map => '>'
  | .table => '>'

/-- What a bracket makes of the type inside it. -/
def enclose : Bracket → TypeDesc → TypeDesc
  | .group, t => t
  | .map, t => .map t
  | .table, t => .table t

end Bracket

/-- What has been read of the present alternative. -/
inductive Phase where
  | expecting
  /-- A word, which is a type or, in front of `<`, part of one. -/
  | word (letters : List Char)
  | complete (t : TypeDesc)
  /-- The type of the elements of an array, whose `[` is open. -/
  | element (t : TypeDesc)

/-- The type that a word stands for: a primitive type, or a named one. -/
def ofWord? (letters : List Char) : Option TypeDesc :=
  if isIdentifier letters then
    some (((Primitive.ofKeyword? (String.ofList letters)).map TypeDesc.primitive).getD
      (.named (String.ofList letters)))
  else none

/-- The alternative that has been read, if it is complete. -/
def Phase.type? : Phase → Option TypeDesc
  | .word letters => ofWord? letters
  | .complete t => some t
  | .expecting => none
  | .element _ => none

/-- The state of the reader: the open brackets, innermost first, with the alternatives in front of each,
the alternatives before the present one, latest first, and what has been read of that one. -/
structure State where
  outer : List (Bracket × List TypeDesc) := []
  earlier : List TypeDesc := []
  phase : Phase := .expecting

namespace State

/-- Opens a bracket. -/
def enter (s : State) (b : Bracket) : State :=
  ⟨(b, s.earlier) :: s.outer, [], .expecting⟩

/-- The type made up of the alternatives since the last open bracket. -/
def type? (s : State) : Option TypeDesc :=
  s.phase.type?.map fun t => ofAlternatives (t :: s.earlier).reverse

/-- What a bracket that is closed now makes of what has been read in it. Parentheses with nothing between
them are the nil type. -/
def enclosed? (s : State) (b : Bracket) : Option TypeDesc :=
  match b, s.earlier, s.phase with
  | .group, [], .expecting => some .nil
  | _, _, _ => s.type?.map b.enclose

/-- Closes the innermost bracket. -/
def leave (s : State) (ch : Char) : Option State :=
  match s.outer with
  | (b, earlier) :: outer =>
    if ch = b.closing then (s.enclosed? b).map fun t => ⟨outer, earlier, .complete t⟩ else none
  | [] => none

/-- Reads a token. -/
def step (s : State) : Token → Option State
  | .word letters =>
    match s.phase with
    | .expecting => some { s with phase := .word letters }
    | _ => none
  | .mark '<' =>
    match s.phase with
    | .word letters => (Bracket.ofWord? letters).map s.enter
    | _ => none
  | .mark '(' =>
    match s.phase with
    | .expecting => some (s.enter .group)
    | _ => none
  | .mark '[' => s.phase.type?.map fun t => { s with phase := .element t }
  | .mark ']' =>
    match s.phase with
    | .element t => some { s with phase := .complete (.array t) }
    | _ => none
  | .mark '|' => s.phase.type?.map fun t => ⟨s.outer, t :: s.earlier, .expecting⟩
  | .mark ch => s.leave ch
  | _ => none

/-- The type that has been read when the text ends, unless a bracket is open. -/
def result? (s : State) : Option TypeDesc :=
  match s.outer with
  | [] => s.type?
  | _ => none

end State

end Reading

open Reading

/-- The type that a text spells. -/
def read? (text : String) : Option TypeDesc :=
  ((tokens text.toList).foldlM State.step {}).bind State.result?

/-! ## Reading a spelling -/

namespace Reading

variable {outer : List (Bracket × List TypeDesc)} {earlier : List TypeDesc} {cs : List Char}

theorem ofWord?_keyword (kind : Primitive) :
    ofWord? kind.keyword.toList = some (.primitive kind) := by
  cases kind <;> rfl

theorem ofWord?_name {name : String} (h : Identifier name.toList)
    (hne : ∀ kind : Primitive, name ≠ kind.keyword) : ofWord? name.toList = some (.named name) := by
  have hnone : Primitive.ofKeyword? name = none := by
    rw [Primitive.ofKeyword?, List.find?_eq_none]
    intro kind _ hkeyword
    exact hne kind (beq_iff_eq.mp hkeyword).symm
  rw [ofWord?, if_pos (isIdentifier_iff.mpr h), String.ofList_toList, hnone]
  rfl

/-- A text spells a type: from where an alternative is expected, the alternatives of the type are read
and nothing else. -/
def Spells (cs : List Char) (t : TypeDesc) : Prop :=
  ∀ outer earlier, ∃ last front phase, t.alternatives.reverse = last :: front ∧
    phase.type? = some last ∧
    Reads State.step cs ⟨outer, earlier, .expecting⟩ ⟨outer, front ++ earlier, phase⟩

/-- A text that is read as one complete alternative spells it. -/
theorem spells_of_alternatives_eq {t u : TypeDesc} (phase : Phase) (ht : t.alternatives = [u])
    (hphase : phase.type? = some u)
    (h : ∀ outer earlier, Reads State.step cs ⟨outer, earlier, .expecting⟩ ⟨outer, earlier, phase⟩) :
    Spells cs t := by
  intro outer earlier
  refine ⟨u, [], phase, ?_, hphase, h outer earlier⟩
  rw [ht, List.reverse_singleton]

/-- What stands between a bracket and the mark that closes it is read as one type. -/
theorem Spells.enclosed {t : TypeDesc} (h : Spells cs t) (outer : List (Bracket × List TypeDesc))
    (earlier : List TypeDesc) (b : Bracket) :
    Reads State.step (cs ++ [b.closing]) (State.enter ⟨outer, earlier, .expecting⟩ b)
      ⟨outer, earlier, .complete (b.enclose t.normal)⟩ := by
  obtain ⟨last, front, phase, hreverse, hphase, hreads⟩ := h ((b, earlier) :: outer) []
  rw [List.append_nil] at hreads
  have htype : State.type? ⟨(b, earlier) :: outer, front, phase⟩ = some t.normal := by
    rw [State.type?, hphase, Option.map_some, ← hreverse, List.reverse_reverse, normal]
  have henclosed : State.enclosed? ⟨(b, earlier) :: outer, front, phase⟩ b =
      some (b.enclose t.normal) := by
    unfold State.enclosed?
    split
    next hexpecting =>
      -- There is nothing between the parentheses, although a type has been read.
      rw [show phase = .expecting from hexpecting] at hphase
      cases hphase
    next =>
      rw [htype]
      rfl
  have hleave : State.leave ⟨(b, earlier) :: outer, front, phase⟩ b.closing =
      some ⟨outer, earlier, .complete (b.enclose t.normal)⟩ := by
    simp [State.leave, henclosed]
  have hstep : State.step ⟨(b, earlier) :: outer, front, phase⟩ (.mark b.closing) =
      some ⟨outer, earlier, .complete (b.enclose t.normal)⟩ := by
    rw [← hleave]
    cases b <;> rfl
  refine hreads.append (.mark ?_ hstep (.refl _)) ?_
  · cases b <;> decide
  · exact apart_cons (by cases b <;> decide) []

/-- Behind a complete alternative, `[]` makes an array of it. -/
theorem reads_brackets {phase : Phase} {t : TypeDesc} (h : phase.type? = some t) :
    Reads State.step ['[', ']'] ⟨outer, earlier, phase⟩ ⟨outer, earlier, .complete (.array t)⟩ := by
  have hopen : State.step ⟨outer, earlier, phase⟩ (.mark '[') =
      some ⟨outer, earlier, .element t⟩ := by
    show phase.type?.map _ = _
    rw [h]
    rfl
  exact .mark (by decide) hopen (.mark (by decide) rfl (.refl _))

theorem Spells.array {t : TypeDesc} (h : Spells t.spelling.toList t) :
    Spells (TypeDesc.array t).spelling.toList (.array t) := by
  refine spells_of_alternatives_eq (.complete (.array t.normal)) rfl rfl ?_
  intro outer earlier
  rw [spelling, String.toList_append, parenthesizeIf]
  cases hunion : t.isUnion with
  | true =>
      have hgroup := h.enclosed outer earlier .group
      rw [if_pos rfl, String.toList_append, String.toList_append]
      refine Reads.append (.mark (by decide) rfl hgroup) (reads_brackets rfl) ?_
      exact apart_cons (by decide) _
  | false =>
      obtain ⟨last, front, phase, hreverse, hphase, hreads⟩ := h outer earlier
      rw [alternatives_of_not_isUnion hunion, List.reverse_singleton] at hreverse
      obtain ⟨rfl, rfl⟩ := List.cons.inj hreverse
      exact hreads.append (reads_brackets hphase) (apart_cons (by decide) _)

/-- A word, `<`, a type and `>` are read as what the word makes of the type. -/
theorem Spells.bracketed {t : TypeDesc} (h : Spells cs t) {letters : List Char}
    (hletters : Identifier letters) {b : Bracket} (hb : Bracket.ofWord? letters = some b)
    (hclosing : b.closing = '>') :
    Reads State.step (letters ++ '<' :: (cs ++ ['>'])) ⟨outer, earlier, .expecting⟩
      ⟨outer, earlier, .complete (b.enclose t.normal)⟩ := by
  have henter : State.step ⟨outer, earlier, .word letters⟩ (.mark '<') =
      some (State.enter ⟨outer, earlier, .expecting⟩ b) := by
    show (Bracket.ofWord? letters).map _ = _
    rw [hb]
    rfl
  have henclosed := h.enclosed outer earlier b
  rw [hclosing] at henclosed
  refine Reads.append (.identifier hletters rfl) (.mark (by decide) henter henclosed) ?_
  exact apart_cons (by decide) _

/-- The members of a union are read one after another. -/
theorem spells_members {ts : List TypeDesc} (hne : ts ≠ [])
    (h : ∀ t ∈ ts, Spells t.spelling.toList t) :
    Spells (['|'].intercalate (ts.map fun t => t.spelling.toList)) (.union ts) := by
  induction ts with
  | nil => exact absurd rfl hne
  | cons t ts ih =>
      intro outer earlier
      obtain ⟨last, front, phase, hreverse, hphase, hreads⟩ :=
        h t List.mem_cons_self outer earlier
      cases ts with
      | nil =>
          refine ⟨last, front, phase, ?_, hphase, ?_⟩
          · rw [alternatives, alternativesOfAll, alternativesOfAll, List.append_nil, hreverse]
          · rwa [List.map_singleton, List.intercalate_singleton]
      | cons u us =>
          -- The alternatives read so far are in front of those of the remaining members.
          obtain ⟨last', front', phase', hreverse', hphase', hreads'⟩ :=
            ih (List.cons_ne_nil u us) (fun v hv => h v (List.mem_cons_of_mem t hv)) outer
              (last :: (front ++ earlier))
          have hbar : State.step ⟨outer, front ++ earlier, phase⟩ (.mark '|') =
              some ⟨outer, last :: (front ++ earlier), .expecting⟩ := by
            show phase.type?.map _ = _
            rw [hphase]
            rfl
          refine ⟨last', front' ++ last :: front, phase', ?_, hphase', ?_⟩
          · rw [alternatives] at hreverse'
            rw [alternatives, alternativesOfAll, List.reverse_append, hreverse', hreverse,
              List.cons_append]
          · rw [List.map_cons, List.map_cons, List.intercalate_cons_cons, List.append_assoc,
              List.append_assoc, List.cons_append]
            rw [List.map_cons] at hreads'
            exact hreads.append (.mark (by decide) hbar hreads') (apart_cons (by decide) _)

/-- Legible types are spelled by their spelling. -/
theorem spells_spelling {t : TypeDesc} (h : t.Legible) : Spells t.spelling.toList t := by
  induction h with
  | primitive kind =>
      refine spells_of_alternatives_eq (.word kind.keyword.toList) rfl (ofWord?_keyword kind) ?_
      intro outer earlier
      refine .identifier ?_ rfl
      rw [← isIdentifier_iff]
      cases kind <;> decide
  | array _ ih => exact ih.array
  | @map value _ ih =>
      refine spells_of_alternatives_eq (.complete (.map value.normal)) rfl rfl ?_
      intro outer earlier
      have hword : Identifier ['m', 'a', 'p'] := isIdentifier_iff.mp (by decide)
      rw [spelling, String.toList_append, String.toList_append, List.append_assoc]
      exact ih.bracketed hword (b := .map) rfl rfl
  | @table row _ ih =>
      refine spells_of_alternatives_eq (.complete (.table row.normal)) rfl rfl ?_
      intro outer earlier
      have hword : Identifier ['t', 'a', 'b', 'l', 'e'] := isIdentifier_iff.mp (by decide)
      rw [spelling, String.toList_append, String.toList_append, List.append_assoc]
      exact ih.bracketed hword (b := .table) rfl rfl
  | @named name hname hne =>
      refine spells_of_alternatives_eq (.word name.toList) rfl (ofWord?_name hname hne) ?_
      intro outer earlier
      exact .identifier hname rfl
  | nil =>
      refine spells_of_alternatives_eq (.complete .nil) rfl rfl ?_
      intro outer earlier
      exact .mark (by decide) rfl (.mark (by decide) rfl (.refl _))
  | union hne _ ih =>
      rw [spelling, String.toList_intercalate, spellings_eq_map, List.map_map]
      exact spells_members hne ih

end Reading

/-- The spelling of a legible type is read as its normal form. -/
theorem read?_spelling {t : TypeDesc} (h : t.Legible) : read? t.spelling = some t.normal := by
  obtain ⟨last, front, phase, hreverse, hphase, hreads⟩ := spells_spelling h [] []
  have hstate := hreads.foldlM_eq
  show ((tokens t.spelling.toList).foldlM State.step ⟨[], [], .expecting⟩).bind State.result? = _
  rw [hstate, Option.bind_some, State.result?, State.type?, hphase, Option.map_some, List.append_nil,
    ← hreverse, List.reverse_reverse, normal]

/-- **The spelling of types is unambiguous.** Legible types that are spelled alike are equal after
flattening nested unions and replacing unions of one member by their member. That normal form is flat and
read back from the spelling, and types that are flat to begin with are equal. -/
theorem spelling_unambiguous {s t : TypeDesc} (hs : s.Legible) (ht : t.Legible)
    (h : s.spelling = t.spelling) :
    s.normal = t.normal ∧ s.normal.Flat ∧ read? s.spelling = some s.normal ∧
      (s.Flat → t.Flat → s = t) := by
  have hread := read?_spelling hs
  have hnormal : s.normal = t.normal := by
    rw [h, read?_spelling ht] at hread
    exact (Option.some.inj hread).symm
  refine ⟨hnormal, hs.flat_normal, hread, fun hsflat htflat => ?_⟩
  rw [← hsflat.normal_eq, hnormal, htflat.normal_eq]

/-- Two nestings of one union, as the elements of an array in a table. -/
theorem spelling_unambiguous_nested :
    let s : TypeDesc := .table (.array (.union [.named "'map", .union [.nil, .map (.primitive .json)]]))
    let t : TypeDesc := .table (.array (.union [.union [.named "'map", .union [.nil]],
      .map (.primitive .json)]))
    s.spelling = "table<('map|()|map<json>)[]>" ∧ s.spelling = t.spelling ∧ s.normal = t.normal := by
  intro s t
  have hname : (TypeDesc.named "'map").Legible := by
    refine .named (isIdentifier_iff.mp (by decide)) fun kind => ?_
    cases kind <;> decide
  have hmap : (TypeDesc.map (.primitive .json)).Legible := .map (.primitive .json)
  have hunion {a b : TypeDesc} (ha : a.Legible) (hb : b.Legible) :
      (TypeDesc.union [a, b]).Legible :=
    .union (List.cons_ne_nil _ _) (by simp [ha, hb])
  have hsingle : (TypeDesc.union [.nil]).Legible :=
    .union (List.cons_ne_nil _ _) (by simp [Legible.nil])
  have hs : s.Legible := .table (.array (hunion hname (hunion .nil hmap)))
  have ht : t.Legible := .table (.array (hunion (hunion hname hsingle) hmap))
  have h : s.spelling = t.spelling := by decide
  exact ⟨by decide, h, (spelling_unambiguous hs ht h).1⟩

end FunctionService.TypeDesc
