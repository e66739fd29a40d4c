import Mathlib
import FunctionService.Proofs.Regrouping
import FunctionService.Proofs.Tokens

/-!
# Reading written expressions back

A reader of expressions in which a field, a call and brackets bind tighter than `?:`, and `?:` goes from the
left. From the text of an expression without unknown text in it, it recovers what the text groups
(`read?_render`), so a text does not depend on more than that.

Grouping is kept where no field of a `?:` occurs, and nowhere else: `a ?: b` with a field of all of it and
`a ?: b` with a field of `b` are one text.
-/

namespace FunctionService

open Text

namespace Expression

/-! ## The reader -/

namespace Reading

/-- What an open bracket is for. -/
inductive Bracket where
  | group
  | list
  | call (function : String)
  | new (typeName : QualifiedName)

namespace Bracket

/-- The mark that closes a bracket. -/
def closing : Bracket → Char
  | .list => ']'
  | _ => ')'

theorem closing_cases (b : Bracket) : b.closing = ')' ∨ b.closing = ']' := by
  cases b with
  | list => exact Or.inr rfl
  | _ => exact Or.inl rfl

/-- The value of an argument that is not spread. -/
def item? : Argument → Option Expression
  | .positional value => some value
  | .rest _ => none

/-- What a bracket makes of the arguments inside it. A group is one expression, and nothing is spread
in a group or a list. -/
def enclose? : Bracket → List Argument → Option Expression
  | .group, [.positional e] => some e
  | .group, _ => none
  | .list, arguments => (arguments.mapM item?).map .list
  | .call function, arguments => some (.call function arguments)
  | .new typeName, arguments => some (.new typeName arguments)

end Bracket

/-- What has been read inside a bracket: the arguments before the present one, latest first, whether that
one is spread, and its operands before the present one, latest first. -/
structure Level where
  arguments : List Argument := []
  isSpread : Bool := false
  operands : List Expression := []

/-- What has been read of the present operand. -/
inductive Phase where
  | expecting
  /-- A word, which is an operand or, in front of `(` or another word, part of one. -/
  | word (letters : List Char)
  | complete (e : Expression)
  /-- The target of a field that has to follow. -/
  | target (e : Expression)
  /-- The name of a type that is constructed. -/
  | typeName (q : QualifiedName)
  /-- The module of such a type, whose name has to follow. -/
  | module (m : String)

/-- The expression that a word stands for: a name, or a number. -/
def ofWord? (letters : List Char) : Option Expression :=
  if isIdentifier letters then some (.name (String.ofList letters))
  else (String.ofList letters).toInt?.map fun value => .int (Int64.ofInt value)

/-- The operand that has been read, if it is complete. -/
def Phase.operand? : Phase → Option Expression
  | .word letters => ofWord? letters
  | .complete e => some e
  | _ => none

/-- The state of the reader: the open brackets, innermost first, with what was read in front of each, what
has been read since the last of them, and the present operand. -/
structure State where
  outer : List (Bracket × Level) := []
  level : Level := {}
  phase : Phase := .expecting

namespace State

/-- Opens a bracket. -/
def enter (s : State) (b : Bracket) : State :=
  ⟨(b, s.level) :: s.outer, {}, .expecting⟩

/-- The present argument, if it is complete. -/
def argument? (s : State) : Option Argument :=
  s.phase.operand?.map fun e =>
    let value := Chain.join e s.level.operands
    if s.level.isSpread then .rest value else .positional value

/-- The arguments since the last open bracket, of which there may be none. -/
def arguments? (s : State) : Option (List Argument) :=
  match s.level, s.phase with
  | ⟨[], false, []⟩, .expecting => some []
  | _, _ => s.argument?.map fun a => (a :: s.level.arguments).reverse

/-- Closes the innermost bracket. -/
def leave (s : State) (ch : Char) : Option State :=
  match s.outer with
  | (b, level) :: outer =>
    if ch = b.closing then
      (s.arguments?.bind b.enclose?).map fun e => ⟨outer, level, .complete e⟩
    else none
  | [] => none

/-- Reads a word. -/
def stepWord (s : State) (letters : List Char) : Option State :=
  match s.phase with
  | .expecting => some { s with phase := .word letters }
  | .word first =>
    if first = ['n', 'e', 'w'] then some { s with phase := .typeName ⟨none, String.ofList letters⟩ }
    else none
  | .target e => some { s with phase := .complete (.fieldAccess e (String.ofList letters)) }
  | .module m => some { s with phase := .typeName ⟨some m, String.ofList letters⟩ }
  | _ => none

/-- Reads a token. -/
def step (s : State) : Token → Option State
  | .word letters => s.stepWord letters
  | .elvis => s.phase.operand?.map fun e =>
    ⟨s.outer, { s.level with operands := e :: s.level.operands }, .expecting⟩
  | .spread =>
    match s.phase with
    | .expecting => some { s with level := { s.level with isSpread := true } }
    | _ => none
  | .mark ' ' => some s
  | .mark '.' => s.phase.operand?.map fun e => { s with phase := .target e }
  | .mark ':' =>
    match s.phase with
    | .typeName ⟨none, m⟩ => some { s with phase := .module m }
    | _ => none
  | .mark '(' =>
    match s.phase with
    | .expecting => some (s.enter .group)
    | .word letters => some (s.enter (.call (String.ofList letters)))
    | .typeName q => some (s.enter (.new q))
    | _ => none
  | .mark '[' =>
    match s.phase with
    | .expecting => some (s.enter .list)
    | _ => none
  | .mark ',' => s.argument?.map fun a => ⟨s.outer, ⟨a :: s.level.arguments, false, []⟩, .expecting⟩
  | .mark ch => s.leave ch

/-- The expression that has been read when the text ends, unless a bracket is open. -/
def result? (s : State) : Option Expression :=
  match s.outer with
  | [] => s.arguments?.bind Bracket.group.enclose?
  | _ => none

end State

end Reading

open Reading

/-- The expression that a text is read as. -/
def read? (text : String) : Option Expression :=
  ((tokens text.toList).foldlM State.step {}).bind State.result?

namespace Reading

variable {outer : List (Bracket × Level)} {level : Level} {cs : List Char} {e : Expression}

/-! ## Names and numbers -/

theorem ofWord?_name {n : String} (h : Identifier n.toList) : ofWord? n.toList = some (.name n) := by
  rw [ofWord?, if_pos (isIdentifier_iff.mpr h), String.ofList_toList]

/-- A digit is a character of identifiers that none starts with. -/
theorem isNumeric_of_isDigit {ch : Char} (h : ch.isDigit = true) :
    isNumeric ch = true ∧ isAlphabetic ch = false := by
  have hbounds : 48 ≤ ch.toNat ∧ ch.toNat ≤ 57 := by
    simpa [Char.isDigit, UInt32.le_iff_toNat_le] using h
  obtain ⟨hlow, hhigh⟩ := hbounds
  unfold isNumeric isAlphabetic
  generalize ch.toNat = n at hlow hhigh ⊢
  interval_cases n <;> decide

/-- A number starts with a digit or a sign and goes on with digits. -/
theorem toList_repr (n : Int) : ∃ first rest, n.repr.toList = first :: rest ∧
    (first = '-' ∨ first.isDigit = true) ∧ ∀ ch ∈ rest, ch.isDigit = true := by
  have hdigits (m : Nat) : ∀ ch ∈ m.repr.toList, ch.isDigit = true := by
    rw [Nat.toList_repr]
    exact fun ch hch => Nat.isDigit_of_mem_toDigits (by decide) (by decide) hch
  rw [Int.repr_eq_if]
  split
  · obtain ⟨first, rest, hcons⟩ : ∃ first rest, n.toNat.repr.toList = first :: rest := by
      rw [Nat.toList_repr]
      exact List.exists_cons_of_ne_nil Nat.toDigits_ne_nil
    have hall := hdigits n.toNat
    rw [hcons, List.forall_mem_cons] at hall
    exact ⟨first, rest, hcons, Or.inr hall.1, hall.2⟩
  · refine ⟨'-', (-n).toNat.repr.toList, ?_, Or.inl rfl, hdigits _⟩
    rw [String.toList_append]
    rfl

theorem isWordChar_of_isDigit {ch : Char} (h : ch.isDigit = true) : isWordChar ch = true :=
  isWordChar_of_isIdentifierChar (by simp [isIdentifierChar, isNumeric_of_isDigit h])

/-- A number is one word. -/
theorem isWordChar_repr (n : Int) : n.repr.toList ≠ [] ∧ ∀ ch ∈ n.repr.toList, isWordChar ch = true := by
  obtain ⟨first, rest, hcons, hfirst, hrest⟩ := toList_repr n
  rw [hcons, List.forall_mem_cons]
  refine ⟨List.cons_ne_nil first rest, ?_, fun ch hch => isWordChar_of_isDigit (hrest ch hch)⟩
  rcases hfirst with rfl | hfirst
  · decide
  · exact isWordChar_of_isDigit hfirst

theorem not_identifier_repr (n : Int) : ¬ Identifier n.repr.toList := by
  obtain ⟨first, rest, hcons, hfirst, hrest⟩ := toList_repr n
  rw [hcons]
  intro h
  cases h with
  | quoted _ => exact absurd hfirst (by decide)
  | plain hplain _ =>
      rcases hfirst with rfl | hfirst
      · exact absurd hplain (by decide)
      · rcases hplain with halphabetic | rfl
        · exact Bool.false_ne_true ((isNumeric_of_isDigit hfirst).2.symm.trans halphabetic)
        · exact absurd hfirst (by decide)

theorem ofWord?_int (value : Int64) : ofWord? value.toInt.repr.toList = some (.int value) := by
  rw [ofWord?, if_neg (mt isIdentifier_iff.mp (not_identifier_repr _)), String.ofList_toList,
    Int.toInt?_repr, Option.map_some, Int64.ofInt_toInt]

/-! ## Arguments and brackets -/

/-- A text is that of an argument: it is read as one, behind the arguments in front of it. -/
def WritesArgument (cs : List Char) (a : Argument) : Prop :=
  ∀ outer earlier, ∃ s : State, s.outer = outer ∧ s.level.arguments = earlier ∧
    s.argument? = some a ∧ Reads State.step cs ⟨outer, ⟨earlier, false, []⟩, .expecting⟩ s

theorem arguments?_of_argument? {s : State} {a : Argument} (h : s.argument? = some a) :
    s.arguments? = some (a :: s.level.arguments).reverse := by
  unfold State.arguments?
  split
  next hphase =>
    -- Nothing has been read, although an argument has.
    rw [State.argument?, hphase] at h
    cases h
  next => rw [h, Option.map_some]

/-- Arguments are read one after another. -/
theorem reads_arguments {a : Argument} {as : List Argument} {text : List Char} {texts : List (List Char)}
    (h : WritesArgument text a) (hs : List.Forall₂ (fun b t => WritesArgument t b) as texts)
    (outer : List (Bracket × Level)) (earlier : List Argument) :
    ∃ s : State, s.outer = outer ∧ s.arguments? = some (earlier.reverse ++ a :: as) ∧
      Reads State.step ([',', ' '].intercalate (text :: texts)) ⟨outer, ⟨earlier, false, []⟩, .expecting⟩
        s := by
  induction hs generalizing a text earlier with
  | nil =>
      obtain ⟨s, houter, hearlier, hargument, hreads⟩ := h outer earlier
      refine ⟨s, houter, ?_, ?_⟩
      · rw [arguments?_of_argument? hargument, hearlier, List.reverse_cons]
      · rwa [List.intercalate_singleton]
  | @cons b t bs ts hb hbs ih =>
      obtain ⟨s, rfl, rfl, hargument, hreads⟩ := h outer earlier
      obtain ⟨s', houter, harguments, hreads'⟩ := ih hb (a :: s.level.arguments)
      have hcomma : s.step (.mark ',') =
          some ⟨s.outer, ⟨a :: s.level.arguments, false, []⟩, .expecting⟩ := by
        show s.argument?.map _ = _
        rw [hargument]
        rfl
      refine ⟨s', houter, ?_, ?_⟩
      · rw [harguments, List.reverse_cons, List.append_assoc]
        rfl
      · rw [List.intercalate_cons_cons, List.append_assoc]
        refine hreads.append (.mark (by decide) hcomma (.mark (by decide) rfl hreads')) ?_
        exact apart_cons (by decide) _

/-- What stands between a bracket and the mark that closes it is read as what the bracket makes of it. -/
theorem reads_enclosed {b : Bracket} {as : List Argument} {texts : List (List Char)}
    (hs : List.Forall₂ (fun a t => WritesArgument t a) as texts) (he : b.enclose? as = some e)
    (outer : List (Bracket × Level)) (level : Level) :
    Reads State.step ([',', ' '].intercalate texts ++ [b.closing]) ⟨(b, level) :: outer, {}, .expecting⟩
      ⟨outer, level, .complete e⟩ := by
  obtain ⟨s, houter, harguments, hreads⟩ : ∃ s : State, s.outer = (b, level) :: outer ∧
      s.arguments? = some as ∧
      Reads State.step ([',', ' '].intercalate texts) ⟨(b, level) :: outer, {}, .expecting⟩ s := by
    cases hs with
    | nil => exact ⟨_, rfl, rfl, .refl _⟩
    | cons h hs => exact reads_arguments h hs _ []
  have hleave : s.leave b.closing = some ⟨outer, level, .complete e⟩ := by
    simp [State.leave, houter, harguments, he]
  have hstep : s.step (.mark b.closing) = some ⟨outer, level, .complete e⟩ := by
    rw [← hleave]
    cases b <;> rfl
  have hclosing : isMark b.closing = true ∧ isWordChar b.closing = false := by
    rcases b.closing_cases with h | h <;> rw [h] <;> decide
  exact hreads.append (.mark hclosing.1 hstep (.refl _)) (apart_cons hclosing.2 [])

/-! ## Reading an expression -/

/-- A text is that of an expression: from where an operand is expected, the operands of the expression are
read and nothing else. -/
def Writes (cs : List Char) (e : Expression) : Prop :=
  ∀ outer level, ∃ phase : Phase, phase.operand? = some e.chain.last ∧
    Reads State.step cs ⟨outer, level, .expecting⟩
      ⟨outer, { level with operands := e.chain.earlier ++ level.operands }, phase⟩

/-- A text that is read as one complete operand is that of the operand. -/
theorem writes_of_chain_eq {u : Expression} (phase : Phase) (he : e.chain = .single u)
    (hphase : phase.operand? = some u)
    (h : ∀ outer level, Reads State.step cs ⟨outer, level, .expecting⟩ ⟨outer, level, phase⟩) :
    Writes cs e := by
  intro outer level
  rw [he]
  exact ⟨phase, hphase, h outer level⟩

theorem Writes.positional (h : Writes cs e) : WritesArgument cs (.positional e.regrouped) := by
  intro outer earlier
  obtain ⟨phase, hphase, hreads⟩ := h outer ⟨earlier, false, []⟩
  refine ⟨_, rfl, rfl, ?_, hreads⟩
  rw [State.argument?, hphase, List.append_nil]
  rfl

/-- Parentheses make one operand of an expression. -/
theorem Writes.group (h : Writes cs e) (outer : List (Bracket × Level)) (level : Level) :
    Reads State.step ('(' :: (cs ++ [')'])) ⟨outer, level, .expecting⟩
      ⟨outer, level, .complete e.regrouped⟩ := by
  have henclosed := reads_enclosed (b := .group) (.cons h.positional .nil) rfl outer level
  rw [List.intercalate_singleton] at henclosed
  exact .mark (by decide) rfl henclosed

/-- A list is spread with or without parentheses around it. -/
theorem Writes.rest {text : String} (h : Writes text.toList e) (asked : Bool) :
    WritesArgument ("..." ++ parenthesizeIf asked text).toList (.rest e.regrouped) := by
  intro outer earlier
  rw [String.toList_append, parenthesizeIf]
  cases asked with
  | true =>
      refine ⟨⟨outer, ⟨earlier, true, []⟩, .complete e.regrouped⟩, rfl, rfl, rfl, ?_⟩
      rw [if_pos rfl, String.toList_append, String.toList_append]
      exact .spread rfl (h.group outer ⟨earlier, true, []⟩)
  | false =>
      obtain ⟨phase, hphase, hreads⟩ := h outer ⟨earlier, true, []⟩
      refine ⟨⟨outer, ⟨earlier, true, e.chain.earlier ++ []⟩, phase⟩, rfl, rfl, ?_, .spread rfl hreads⟩
      rw [State.argument?, hphase, List.append_nil]
      rfl

/-- A field behind an expression is read as a field of its last operand. -/
theorem Writes.fieldAccess (h : Writes cs e) {field : String} (hfield : Identifier field.toList) :
    Writes (cs ++ '.' :: field.toList) (.fieldAccess e field) := by
  intro outer level
  obtain ⟨phase, hphase, hreads⟩ := h outer level
  have hpoint : State.step ⟨outer, { level with operands := e.chain.earlier ++ level.operands }, phase⟩
      (.mark '.') = some ⟨outer, { level with operands := e.chain.earlier ++ level.operands },
        .target e.chain.last⟩ := by
    show phase.operand?.map _ = _
    rw [hphase]
    rfl
  have hhead : field.toList.head? ≠ some '.' := by
    intro hhead
    have hword := hfield.isWordChar '.' (List.mem_of_mem_head? hhead)
    exact absurd hword (by decide)
  refine ⟨.complete (.fieldAccess e.chain.last field), rfl, ?_⟩
  refine hreads.append (.point hfield.ne_nil hhead hpoint (.identifier hfield ?_)) ?_
  · show some _ = _
    rw [String.ofList_toList]
    rfl
  · exact apart_cons (by decide) _

/-- The right operand of a `?:` is read as one operand if it is parenthesized. -/
theorem Writes.right {text : String} (h : Writes text.toList e) (outer : List (Bracket × Level))
    (level : Level) :
    let c := if e.isAtomic then e.chain else .single e.chain.joined
    ∃ phase : Phase, phase.operand? = some c.last ∧
      Reads State.step (parenthesizeIf (!e.isAtomic) text).toList ⟨outer, level, .expecting⟩
        ⟨outer, { level with operands := c.earlier ++ level.operands }, phase⟩ := by
  rw [parenthesizeIf]
  cases e.isAtomic with
  | true => exact h outer level
  | false =>
      refine ⟨.complete e.regrouped, rfl, ?_⟩
      rw [Bool.not_false, if_pos rfl, String.toList_append, String.toList_append]
      exact h.group outer level

/-- The operands of a `?:` are read from left to right. -/
theorem Writes.elvis {left right : Expression} {l r : String} (hl : Writes l.toList left)
    (hr : Writes r.toList right) :
    Writes (l ++ " ?: " ++ parenthesizeIf (!right.isAtomic) r).toList (.elvis left right) := by
  intro outer level
  obtain ⟨phase, hphase, hreads⟩ := hl outer level
  obtain ⟨phase', hphase', hreads'⟩ :=
    hr.right outer { level with operands := left.chain.last :: (left.chain.earlier ++ level.operands) }
  have helvis : State.step ⟨outer, { level with operands := left.chain.earlier ++ level.operands }, phase⟩
      .elvis = some ⟨outer, { level with
        operands := left.chain.last :: (left.chain.earlier ++ level.operands) }, .expecting⟩ := by
    show phase.operand?.map _ = _
    rw [hphase]
    rfl
  refine ⟨phase', hphase', ?_⟩
  rw [String.toList_append, String.toList_append, List.append_assoc, chain, Chain.after,
    List.append_assoc]
  refine hreads.append (.mark (by decide) rfl (.elvis helvis (.mark (by decide) rfl hreads'))) ?_
  exact apart_cons (by decide) _

/-- The name of a constructed type is read behind `new`. -/
theorem reads_typeName {q : QualifiedName} (hmodule : ∀ m ∈ q.module, Identifier m.toList)
    (hname : Identifier q.name.toList) :
    Reads State.step q.spelling.toList ⟨outer, level, .word ['n', 'e', 'w']⟩
      ⟨outer, level, .typeName q⟩ := by
  obtain ⟨module, name⟩ := q
  have hnew {n : String} (hn : Identifier n.toList) :
      Reads State.step n.toList ⟨outer, level, .word ['n', 'e', 'w']⟩
        ⟨outer, level, .typeName ⟨none, n⟩⟩ := by
    refine .identifier hn ?_
    show some _ = _
    rw [String.ofList_toList]
  cases module with
  | none => exact hnew hname
  | some m =>
      have hmember : Reads State.step name.toList ⟨outer, level, .module m⟩
          ⟨outer, level, .typeName ⟨some m, name⟩⟩ := by
        refine .identifier hname ?_
        show some _ = _
        rw [String.ofList_toList]
      rw [QualifiedName.spelling, String.toList_append, String.toList_append, List.append_assoc]
      refine (hnew (hmodule m rfl)).append (.mark (by decide) rfl hmember) ?_
      exact apart_cons (by decide) _

theorem mapM_item?_positional (es : List Expression) :
    (es.map Argument.positional).mapM Bracket.item? = some es := by
  induction es with
  | nil => rfl
  | cons e es ih =>
      rw [List.map_cons, List.mapM_cons, ih]
      rfl

section Brackets

variable {arguments : List Argument} {texts : List (List Char)}

theorem writes_list {items : List Expression}
    (h : List.Forall₂ (fun a t => WritesArgument t a) ((regroupedItems items).map .positional) texts) :
    Writes ('[' :: ([',', ' '].intercalate texts ++ [']'])) (.list items) := by
  have henclose : Bracket.enclose? .list ((regroupedItems items).map .positional) =
      some (.list (regroupedItems items)) := by
    rw [Bracket.enclose?, mapM_item?_positional]
    rfl
  refine writes_of_chain_eq (.complete (.list (regroupedItems items))) rfl rfl fun outer level => ?_
  exact .mark (by decide) rfl (reads_enclosed h henclose outer level)

theorem writes_call {function : String} (hfunction : Identifier function.toList)
    (h : List.Forall₂ (fun a t => WritesArgument t a) (regroupedArguments arguments) texts) :
    Writes (function.toList ++ '(' :: ([',', ' '].intercalate texts ++ [')']))
      (.call function arguments) := by
  refine writes_of_chain_eq (.complete (.call function (regroupedArguments arguments))) rfl rfl
    fun outer level => ?_
  have hopen : State.step ⟨outer, level, .word function.toList⟩ (.mark '(') =
      some ⟨(.call function, level) :: outer, {}, .expecting⟩ := by
    show some (State.enter _ (.call (String.ofList function.toList))) = _
    rw [String.ofList_toList]
    rfl
  refine Reads.append (.identifier hfunction rfl) ?_ (apart_cons (by decide) _)
  exact .mark (by decide) hopen (reads_enclosed h rfl outer level)

theorem writes_new {q : QualifiedName} (hmodule : ∀ m ∈ q.module, Identifier m.toList)
    (hname : Identifier q.name.toList)
    (h : List.Forall₂ (fun a t => WritesArgument t a) (regroupedArguments arguments) texts) :
    Writes (['n', 'e', 'w'] ++ ' ' :: (q.spelling.toList ++
      '(' :: ([',', ' '].intercalate texts ++ [')']))) (.new q arguments) := by
  refine writes_of_chain_eq (.complete (.new q (regroupedArguments arguments))) rfl rfl
    fun outer level => ?_
  have hnew : Reads State.step ['n', 'e', 'w'] ⟨outer, level, .expecting⟩
      ⟨outer, level, .word ['n', 'e', 'w']⟩ :=
    .identifier (isIdentifier_iff.mp (by decide)) rfl
  refine hnew.append (.mark (by decide) rfl ((reads_typeName hmodule hname).append ?_ ?_)) ?_
  · exact .mark (by decide) rfl (reads_enclosed h rfl outer level)
  · exact apart_cons (by decide) _
  · exact apart_cons (by decide) _

end Brackets

end Reading

/-! ## Texts of expressions -/

theorem identifier_of_checkIdentifier {n : String} {u : Unit} (h : checkIdentifier n = .ok u) :
    Identifier n.toList := by
  unfold checkIdentifier at h
  split at h
  next hn => exact isIdentifier_iff.mp hn
  next => cases h

theorem forall₂_of_mapM_eq_ok {α β : Type} {f : α → Except FormatFault β} {xs : List α} {ys : List β}
    (h : xs.mapM f = .ok ys) : List.Forall₂ (fun x y => f x = .ok y) xs ys := by
  induction xs generalizing ys with
  | nil =>
      cases h
      exact .nil
  | cons x xs ih =>
      rw [List.mapM_cons] at h
      obtain ⟨y, hy, h⟩ := exists_of_bind_eq_ok h
      obtain ⟨zs, hzs, h⟩ := exists_of_bind_eq_ok h
      cases h
      exact .cons hy (ih hzs)

/-- A construction is written if the parts of the name of its type are identifiers, and its arguments can be
written. -/
theorem exists_of_render_new {q : QualifiedName} {arguments : List Argument} {text : String}
    (h : (Expression.new q arguments).render = .ok text) :
    (∀ m ∈ q.module, Identifier m.toList) ∧ Identifier q.name.toList ∧
      ∃ texts, renderArguments arguments = .ok texts ∧
        text = "new " ++ q.spelling ++ "(" ++ String.intercalate ", " texts ++ ")" := by
  obtain ⟨module, name⟩ := q
  rw [render] at h
  cases module with
  | none =>
      obtain ⟨_, hname, h⟩ := exists_of_bind_eq_ok h
      obtain ⟨texts, htexts, h⟩ := exists_of_bind_eq_ok h
      cases h
      exact ⟨fun _ hm => (Option.not_mem_none _ hm).elim, identifier_of_checkIdentifier hname, texts,
        htexts, rfl⟩
  | some m =>
      obtain ⟨_, hmodule, h⟩ := exists_of_bind_eq_ok h
      obtain ⟨_, hname, h⟩ := exists_of_bind_eq_ok h
      obtain ⟨texts, htexts, h⟩ := exists_of_bind_eq_ok h
      cases h
      refine ⟨fun _ hm => ?_, identifier_of_checkIdentifier hname, texts, htexts, rfl⟩
      cases hm
      exact identifier_of_checkIdentifier hmodule

namespace Reading

/-- The texts of arguments are those of what they are regrouped to. -/
theorem writesArguments {arguments : List Argument} {texts : List String}
    (ih : ∀ a ∈ arguments, ∀ text, a.value.render = .ok text → Writes text.toList a.value)
    (h : renderArguments arguments = .ok texts) :
    List.Forall₂ (fun a t => WritesArgument t a) (regroupedArguments arguments)
      (texts.map String.toList) := by
  rw [renderArguments_eq_mapM] at h
  rw [regroupedArguments_eq_map, List.forall₂_map_left_iff, List.forall₂_map_right_iff]
  refine ((List.forall₂_and_left _ _).mpr ⟨ih, forall₂_of_mapM_eq_ok h⟩).imp ?_
  rintro a text ⟨hvalue, hrender⟩
  cases a with
  | positional value => exact (hvalue text hrender).positional
  | rest values =>
      obtain ⟨inner, hinner, hrender⟩ := exists_of_bind_eq_ok hrender
      cases hrender
      exact (hvalue inner hinner).rest _

/-- The items of a list are positional arguments. -/
theorem writesItems {items : List Expression} {texts : List String}
    (ih : ∀ item ∈ items, ∀ text, item.render = .ok text → Writes text.toList item)
    (h : renderExpressions items = .ok texts) :
    List.Forall₂ (fun a t => WritesArgument t a) ((regroupedItems items).map .positional)
      (texts.map String.toList) := by
  rw [renderExpressions_eq_mapM] at h
  rw [regroupedItems_eq_map, List.map_map, List.forall₂_map_left_iff, List.forall₂_map_right_iff]
  refine ((List.forall₂_and_left _ _).mpr ⟨ih, forall₂_of_mapM_eq_ok h⟩).imp ?_
  rintro item text ⟨hitem, hrender⟩
  exact (hitem text hrender).positional

/-- The text of an expression without unknown text in it is read as the operands of the expression. -/
theorem writes_render {e : Expression} (he : e.Without isSource) {text : String}
    (h : e.render = .ok text) : Writes text.toList e := by
  induction e using Expression.induction generalizing text with
  | name n =>
      rw [render] at h
      obtain ⟨_, hn, h⟩ := exists_of_bind_eq_ok h
      cases h
      have hn := identifier_of_checkIdentifier hn
      exact writes_of_chain_eq (.word n.toList) rfl (ofWord?_name hn) fun _ _ => .identifier hn rfl
  | fieldAccess target field ih =>
      rw [render] at h
      obtain ⟨_, hfield, h⟩ := exists_of_bind_eq_ok h
      obtain ⟨inner, hinner, h⟩ := exists_of_bind_eq_ok h
      cases h
      have htarget := (without_iff.mp he).2 target List.mem_cons_self
      rw [String.toList_append, String.toList_append, List.append_assoc]
      exact (ih htarget hinner).fieldAccess (identifier_of_checkIdentifier hfield)
  | elvis left right ihleft ihright =>
      rw [render] at h
      obtain ⟨r, hr, h⟩ := exists_of_bind_eq_ok h
      obtain ⟨l, hl, h⟩ := exists_of_bind_eq_ok h
      cases h
      have hchildren := (without_iff.mp he).2
      have hleft := ihleft (hchildren left List.mem_cons_self) hl
      have hright := ihright (hchildren right (List.mem_cons_of_mem _ List.mem_cons_self)) hr
      exact hleft.elvis hright
  | list items ih =>
      rw [render] at h
      obtain ⟨texts, htexts, h⟩ := exists_of_bind_eq_ok h
      cases h
      have hitems := writesItems (fun item hitem text => ih item hitem
        ((without_iff.mp he).2 item hitem)) htexts
      rw [String.toList_append, String.toList_append, String.toList_intercalate]
      exact writes_list hitems
  | call function arguments ih =>
      rw [render] at h
      obtain ⟨_, hfunction, h⟩ := exists_of_bind_eq_ok h
      obtain ⟨texts, htexts, h⟩ := exists_of_bind_eq_ok h
      cases h
      have harguments := writesArguments (fun a ha text => ih a ha
        ((without_iff.mp he).2 a.value (List.mem_map_of_mem ha))) htexts
      rw [String.toList_append, String.toList_append, String.toList_append, String.toList_intercalate,
        List.append_assoc, List.append_assoc]
      exact writes_call (identifier_of_checkIdentifier hfunction) harguments
  | new q arguments ih =>
      obtain ⟨hmodule, hname, texts, htexts, rfl⟩ := exists_of_render_new h
      have harguments := writesArguments (fun a ha text => ih a ha
        ((without_iff.mp he).2 a.value (List.mem_map_of_mem ha))) htexts
      rw [String.toList_append, String.toList_append, String.toList_append, String.toList_append,
        String.toList_intercalate, List.append_assoc, List.append_assoc, List.append_assoc]
      exact writes_new hmodule hname harguments
  | int value =>
      rw [render] at h
      cases h
      have hword := isWordChar_repr value.toInt
      exact writes_of_chain_eq (.word value.toInt.repr.toList) rfl (ofWord?_int value)
        fun _ _ => .word hword.1 hword.2 rfl
  | source text => cases (without_iff.mp he).1

end Reading

/-- The text of an expression without unknown text in it is read as what the expression is regrouped to. -/
theorem read?_render {e : Expression} (he : e.Without isSource) {text : String}
    (h : e.render = .ok text) : read? text = some e.regrouped := by
  obtain ⟨s, houter, hearlier, hargument, hreads⟩ := (writes_render he h).positional [] []
  have hresult : s.result? = some e.regrouped := by
    rw [State.result?, houter, arguments?_of_argument? hargument, hearlier]
    rfl
  rw [read?, hreads.foldlM_eq, Option.bind_some, hresult]

/-- **What a text keeps of the grouping.** Expressions without unknown text in them that are written as one
text are regrouped to one expression. That is read from the text, and is the expression that was written
exactly if no field of a `?:` occurs in it. So a text is that of at most one expression in which none
occurs, and one occurs in every other expression with that text. -/
theorem render_grouping {a b : Expression} {text : String} (ha : a.Without isSource)
    (hb : b.Without isSource) (hatext : a.render = .ok text) (hbtext : b.render = .ok text) :
    a.regrouped = b.regrouped ∧
      (read? text = some a ↔ a.Without isFieldOfElvis) ∧
      (b.Without isFieldOfElvis → (a.Without isFieldOfElvis ↔ a = b)) := by
  have hread := read?_render ha hatext
  have hsame : a.regrouped = b.regrouped :=
    Option.some.inj (hread.symm.trans (read?_render hb hbtext))
  refine ⟨hsame, ?_, fun hbfields => ⟨fun hafields => ?_, fun heq => heq ▸ hbfields⟩⟩
  · rw [hread, Option.some.injEq, regrouped_eq_self_iff]
  · calc
      a = a.regrouped := ((regrouped_eq_self_iff a).mpr hafields).symm
      _ = b.regrouped := hsame
      _ = b := (regrouped_eq_self_iff b).mpr hbfields

/-- A field of the result of `?:`, and one of its right operand, a call with a list that is spread. -/
theorem render_grouping_limits :
    let call : Expression := .call "limits" [.rest (.list [.int (-1), .name "size"])]
    let whole : Expression := .fieldAccess (.elvis (.name "given") call) "upper"
    let last : Expression := .elvis (.name "given") (.fieldAccess call "upper")
    let text := "given ?: limits(...[-1, size]).upper"
    whole.render = .ok text ∧ last.render = .ok text ∧ whole.regrouped = last.regrouped ∧
      read? text = some last ∧ read? text ≠ some whole := by
  intro call whole last text
  have hwithout : whole.Without isSource ∧ last.Without isSource ∧ last.Without isFieldOfElvis := by
    simp [whole, last, call, without_iff (e := .name _), without_iff (e := .fieldAccess _ _),
      without_iff (e := .elvis _ _), without_iff (e := .call _ _), without_iff (e := .list _),
      without_iff (e := .int _), children, Argument.value, isSource, isFieldOfElvis]
  obtain ⟨hwhole, hlast, hfields⟩ := hwithout
  have hwholetext : whole.render = .ok text := by decide +kernel
  have hlasttext : last.render = .ok text := by decide +kernel
  have hfield : ¬ whole.Without isFieldOfElvis := fun h => Bool.noConfusion (h whole .self)
  obtain ⟨hsame, hread, _⟩ := render_grouping hwhole hlast hwholetext hlasttext
  obtain ⟨_, hread', _⟩ := render_grouping hlast hwhole hlasttext hwholetext
  exact ⟨hwholetext, hlasttext, hsame, hread'.mpr hfields, mt hread.mp hfield⟩

/-- Behind a `?:` with an atomic right operand, a field is written as one of the right operand. -/
theorem render_fieldAccess_elvis {left right : Expression} (h : right.isAtomic = true) (field : String) :
    (Expression.fieldAccess (.elvis left right) field).render =
      (Expression.elvis left (.fieldAccess right field)).render := by
  have hfield : (Expression.fieldAccess right field).isAtomic = true := rfl
  simp only [render, h, hfield, bind_assoc, pure_bind, parenthesizeIf, Bool.not_true,
    Bool.false_eq_true, if_false, String.append_assoc]

/-- A field of the result of `?:` and a field of its right operand are different expressions of known
structure with one text. -/
theorem render_forgets_grouping :
    let whole : Expression := .fieldAccess (.elvis (.name "a") (.name "b")) "f"
    let last : Expression := .elvis (.name "a") (.fieldAccess (.name "b") "f")
    whole.Without isSource ∧ last.Without isSource ∧ whole.render = .ok "a ?: b.f" ∧
      last.render = .ok "a ?: b.f" ∧ whole ≠ last := by
  intro whole last
  have hwithout : whole.Without isSource ∧ last.Without isSource := by
    simp [whole, last, without_iff (e := .name _), without_iff (e := .fieldAccess _ _),
      without_iff (e := .elvis _ _), children, isSource]
  have htext : last.render = .ok "a ?: b.f" := by decide +kernel
  have hne : whole ≠ last := Expression.noConfusion
  exact ⟨hwithout.1, hwithout.2, (render_fieldAccess_elvis rfl "f").trans htext, htext, hne⟩

end Expression

end FunctionService
