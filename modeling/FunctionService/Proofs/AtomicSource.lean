import FunctionService.Proofs.Checks

/-!
# Atomic source texts

A default value of unknown structure is written behind `?:` as it stands if it is atomic, and in
parentheses otherwise. `AtomicText` is the grammar of atomic texts: nil, one string literal, or a word.
The test by which parentheses are left out decides exactly that grammar (`isAtomicSource_iff`), and the
white space around a text plays no part in it (`isAtomic_source_iff`).

A literal is a sequence of items between two quotes. A backslash belongs to the character behind it, so
whether the last quote of a text closes the literal is decided item by item from the left. The scanner takes
both quotes off first and then goes character by character, with a flag for a backslash just passed;
`scanLiteral_eq` is the invariant that ties it to the grammar.
-/

namespace FunctionService

/-! ## White space around a text -/

namespace Text

/-- The code points of intervals, one by one. -/
def Ranges.points (r : Ranges) : List Nat :=
  r.intervals.flatMap fun i => List.range' i.1 (i.2 + 1 - i.1)

theorem Ranges.mem_points_of_has {r : Ranges} {n : Nat} (h : r.has n = true) : n ∈ r.points := by
  obtain ⟨i, hi, hlo, hhi⟩ := has_iff.mp h
  exact List.mem_flatMap.mpr ⟨i, hi, List.mem_range'_1.mpr ⟨hlo, by omega⟩⟩

/-- No character of an identifier is white space. -/
theorem isWhiteSpace_of_isIdentifierChar {ch : Char} (h : isIdentifierChar ch = true) :
    isWhiteSpace ch = false := by
  have hpoints : ∀ n ∈ whiteSpace.points,
      (!alphabetic.has n && !numeric.has n && n != '_'.toNat) = true :=
    List.all_eq_true.mp (by decide +kernel)
  rw [Bool.eq_false_iff]
  intro hwhite
  have hnone := hpoints _ (Ranges.mem_points_of_has hwhite)
  simp only [Bool.and_eq_true, Bool.not_eq_true', bne_iff_ne] at hnone
  obtain ⟨⟨halphabetic, hnumeric⟩, hunderscore⟩ := hnone
  have hne : ch ≠ '_' := fun heq => hunderscore (congrArg Char.toNat heq)
  simp [isIdentifierChar, isAlphabetic, isNumeric, halphabetic, hnumeric, hne] at h

theorem dropWhile_of_head {p : Char → Bool} {cs : List Char} (h : ∀ ch ∈ cs.head?, p ch = false) :
    cs.dropWhile p = cs := by
  cases cs with
  | nil => rfl
  | cons ch cs => exact List.dropWhile_cons_of_neg (by simp [h ch rfl])

/-- A text is what trimming leaves of it, between white space. -/
theorem exists_append_trim (cs : List Char) :
    ∃ before after, cs = before ++ trim cs ++ after ∧ isBlank before = true ∧ isBlank after = true := by
  refine ⟨cs.takeWhile isWhiteSpace,
    ((cs.dropWhile isWhiteSpace).reverse.takeWhile isWhiteSpace).reverse, ?_, List.all_takeWhile, ?_⟩
  · rw [trim, List.append_assoc, ← List.reverse_append, List.takeWhile_append_dropWhile,
      List.reverse_reverse, List.takeWhile_append_dropWhile]
  · rw [isBlank, List.all_reverse]
    exact List.all_takeWhile

/-- Trimming finds a text between white space if white space neither starts nor ends it. -/
theorem trim_append {before core after : List Char} (hbefore : isBlank before = true)
    (hafter : isBlank after = true) (hne : core ≠ [])
    (hhead : ∀ ch ∈ core.head?, isWhiteSpace ch = false)
    (hlast : ∀ ch ∈ core.getLast?, isWhiteSpace ch = false) :
    trim (before ++ core ++ after) = core := by
  have hleft : (before ++ (core ++ after)).dropWhile isWhiteSpace = core ++ after := by
    rw [List.dropWhile_append_of_pos (List.all_eq_true.mp hbefore)]
    refine dropWhile_of_head fun ch hch => hhead ch ?_
    rwa [List.head?_append_of_ne_nil _ hne] at hch
  have hright : (after.reverse ++ core.reverse).dropWhile isWhiteSpace = core.reverse := by
    rw [List.dropWhile_append_of_pos fun ch hch =>
      List.all_eq_true.mp hafter ch (List.mem_reverse.mp hch)]
    exact dropWhile_of_head fun ch hch => hlast ch (by rwa [List.head?_reverse] at hch)
  rw [trim, List.append_assoc, hleft, List.reverse_append, hright, List.reverse_reverse]

end Text

/-! ## The grammar of atomic texts -/

/-- What stands between the quotes of a string literal, item by item: a character other than a quote and
a backslash, or a backslash and any one character. -/
inductive LiteralItem where
  | plain (ch : Char) (not_quote : ch ≠ '"') (not_backslash : ch ≠ '\\')
  | escaped (ch : Char)

/-- The characters of an item. -/
def LiteralItem.text : LiteralItem → List Char
  | .plain ch _ _ => [ch]
  | .escaped ch => ['\\', ch]

/-- The characters of which words and numbers are made. -/
def IsWordPart (ch : Char) : Prop :=
  Text.isIdentifierChar ch = true ∨ ch = '.' ∨ ch = '\''

/-- The texts that need no parentheses: nil, one string literal, or a word. -/
inductive AtomicText : List Char → Prop
  | nil : AtomicText ['(', ')']
  | literal (items : List LiteralItem) :
      AtomicText ('"' :: (items.flatMap LiteralItem.text ++ ['"']))
  | word {cs : List Char} : cs ≠ [] → (∀ ch ∈ cs, IsWordPart ch) → AtomicText cs

/-- What follows the opening quote of a string literal, up to the closing quote that ends the text. A
backslash takes the next character with it. -/
def isLiteralTail : List Char → Bool
  | [] => false
  | ['"'] => true
  | '\\' :: _ :: rest => isLiteralTail rest
  | c :: rest => c != '"' && c != '\\' && isLiteralTail rest

/-- An item in front of the rest of a literal makes no difference to where the literal ends. -/
theorem isLiteralTail_append (item : LiteralItem) (cs : List Char) :
    isLiteralTail (item.text ++ cs) = isLiteralTail cs := by
  cases item with
  | plain ch hquote hbackslash =>
      show isLiteralTail (ch :: cs) = _
      rw [isLiteralTail]
      · simp [hquote, hbackslash]
      · exact fun h _ => hquote h
      · exact fun _ _ h _ => hbackslash h
  | escaped ch => rfl

theorem isLiteralTail_iff {cs : List Char} :
    isLiteralTail cs = true ↔ ∃ items : List LiteralItem, cs = items.flatMap LiteralItem.text ++ ['"'] := by
  constructor
  · intro h
    fun_induction isLiteralTail cs with
    | case1 => cases h
    | case2 => exact ⟨[], rfl⟩
    | case3 ch rest ih =>
        obtain ⟨items, rfl⟩ := ih h
        exact ⟨.escaped ch :: items, rfl⟩
    | case4 ch rest _ _ ih =>
        obtain ⟨⟨hquote, hbackslash⟩, hrest⟩ : (ch ≠ '"' ∧ ch ≠ '\\') ∧ isLiteralTail rest = true := by
          simpa using h
        obtain ⟨items, rfl⟩ := ih hrest
        exact ⟨.plain ch hquote hbackslash :: items, rfl⟩
  · rintro ⟨items, rfl⟩
    induction items with
    | nil => rfl
    | cons item items ih =>
        rw [List.flatMap_cons, List.append_assoc, isLiteralTail_append]
        exact ih

/-! ## The scanner -/

/-- The text between two quotes, as the scanner sees it on its way: a backslash that was just passed still
belongs to what lies ahead, and the closing quote is the end. -/
def literalAhead (escaped : Bool) (inner : List Char) : List Char :=
  (if escaped then ['\\'] else []) ++ (inner ++ ['"'])

/-- **Invariant of the scanner.** From every character on, the scanner answers whether what lies ahead of it,
with the backslash it remembers, is the rest of a literal. -/
theorem scanLiteral_eq (escaped : Bool) (inner : List Char) :
    scanLiteral escaped inner = isLiteralTail (literalAhead escaped inner) := by
  induction inner generalizing escaped with
  | nil => cases escaped <;> rfl
  | cons ch rest ih =>
      cases escaped with
      | true =>
          show scanLiteral false rest = isLiteralTail (rest ++ ['"'])
          exact ih false
      | false =>
          show scanLiteral false (ch :: rest) = isLiteralTail (ch :: (rest ++ ['"']))
          by_cases hbackslash : ch = '\\'
          · subst hbackslash
            show scanLiteral true rest = _
            exact ih true
          by_cases hquote : ch = '"'
          · -- A quote in the middle closes the literal before the text ends.
            subst hquote
            show false = _
            rw [isLiteralTail]
            · rfl
            · exact fun _ h => List.append_ne_nil_of_right_ne_nil rest (List.cons_ne_nil _ _) h
            · exact fun _ _ h _ => absurd h (by decide)
          have hplain := isLiteralTail_append (.plain ch hquote hbackslash) (rest ++ ['"'])
          rw [scanLiteral, if_neg Bool.false_ne_true, if_neg hbackslash, if_neg hquote, ih false]
          exact hplain.symm

theorem stripQuotes_eq_some_iff {cs inner : List Char} :
    stripQuotes cs = some inner ↔ cs = '"' :: (inner ++ ['"']) := by
  constructor
  · intro h
    unfold stripQuotes at h
    split at h
    next rest =>
      split at h
      next hlast =>
        cases h
        rw [List.dropLast_append_getLast? _ hlast]
      next => cases h
    next => cases h
  · rintro rfl
    simp [stripQuotes]

/-- The scanner accepts exactly the literals among the texts between two quotes. -/
theorem scanLiteral_iff {inner : List Char} :
    scanLiteral false inner = true ↔ ∃ items : List LiteralItem, inner = items.flatMap LiteralItem.text := by
  rw [scanLiteral_eq, isLiteralTail_iff]
  simp [literalAhead]

/-- Neither a parenthesis nor a quote is part of a word, so the three forms do not overlap. -/
theorem IsWordPart.ne {ch : Char} (h : IsWordPart ch) : ch ≠ '(' ∧ ch ≠ '"' := by
  rcases h with h | rfl | rfl
  · refine ⟨?_, ?_⟩
    · rintro rfl
      exact absurd h (by decide)
    · rintro rfl
      exact absurd h (by decide)
  · decide
  · decide

/-- The test for atomic texts accepts exactly the grammar. -/
theorem isAtomicSource_iff {cs : List Char} : isAtomicSource cs = true ↔ AtomicText cs := by
  have hparts : ∀ ch, (Text.isIdentifierChar ch || ch == '.' || ch == '\'') = true ↔ IsWordPart ch := by
    intro ch
    simp [IsWordPart, or_assoc]
  constructor
  · intro h
    unfold isAtomicSource at h
    split at h
    next hnil =>
      rw [hnil]
      exact .nil
    next =>
      split at h
      next inner hinner =>
        obtain ⟨items, rfl⟩ := scanLiteral_iff.mp h
        rw [stripQuotes_eq_some_iff.mp hinner]
        exact .literal items
      next =>
        obtain ⟨hne, hall⟩ := Bool.and_eq_true_iff.mp h
        refine .word (by simpa using hne) fun ch hch => (hparts ch).mp ?_
        exact List.all_eq_true.mp hall ch hch
  · intro h
    unfold isAtomicSource
    cases h with
    | nil => rfl
    | literal items =>
        rw [if_neg (by simp), stripQuotes_eq_some_iff.mpr rfl]
        exact scanLiteral_iff.mpr ⟨items, rfl⟩
    | word hne hall =>
        have hparen : cs ≠ ['(', ')'] := by
          rintro rfl
          exact (hall '(' List.mem_cons_self).ne.1 rfl
        have hquote : stripQuotes cs = none := by
          cases hstrip : stripQuotes cs with
          | none => rfl
          | some inner =>
              rw [stripQuotes_eq_some_iff.mp hstrip] at hall
              exact absurd rfl (hall '"' List.mem_cons_self).ne.2
        rw [if_neg hparen, hquote]
        refine Bool.and_eq_true_iff.mpr ⟨by simpa using hne, ?_⟩
        exact List.all_eq_true.mpr fun ch hch => (hparts ch).mpr (hall ch hch)

/-! ## The right operand of `?:` -/

/-- Atomic texts with white space around them. -/
def PaddedAtomicText (cs : List Char) : Prop :=
  ∃ before core after, cs = before ++ core ++ after ∧ Text.isBlank before = true ∧
    Text.isBlank after = true ∧ AtomicText core

theorem IsWordPart.isWhiteSpace {ch : Char} (h : IsWordPart ch) : Text.isWhiteSpace ch = false := by
  rcases h with h | rfl | rfl
  · exact Text.isWhiteSpace_of_isIdentifierChar h
  · decide
  · decide

theorem AtomicText.ne_nil {cs : List Char} (h : AtomicText cs) : cs ≠ [] := by
  cases h with
  | nil => simp
  | literal items => simp
  | word hne _ => exact hne

theorem AtomicText.isWhiteSpace_head {cs : List Char} (h : AtomicText cs) :
    ∀ ch ∈ cs.head?, Text.isWhiteSpace ch = false := by
  intro ch hch
  cases h with
  | nil => cases hch; decide
  | literal items => cases hch; decide
  | word _ hall => exact (hall ch (List.mem_of_mem_head? hch)).isWhiteSpace

theorem AtomicText.isWhiteSpace_last {cs : List Char} (h : AtomicText cs) :
    ∀ ch ∈ cs.getLast?, Text.isWhiteSpace ch = false := by
  intro ch hch
  cases h with
  | nil => cases hch; decide
  | literal items =>
      rw [← List.cons_append, List.getLast?_concat] at hch
      cases hch
      decide
  | word _ hall => exact (hall ch (List.mem_of_getLast? hch)).isWhiteSpace

/-- A default of unknown structure needs no parentheses exactly if it is an atomic text, whatever white
space surrounds it. -/
theorem Expression.isAtomic_source_iff {text : String} :
    (Expression.source text).isAtomic = true ↔ PaddedAtomicText text.toList := by
  rw [isAtomic, isAtomicSource_iff]
  constructor
  · intro h
    obtain ⟨before, after, htext, hbefore, hafter⟩ := Text.exists_append_trim text.toList
    exact ⟨before, _, after, htext, hbefore, hafter, h⟩
  · rintro ⟨before, core, after, htext, hbefore, hafter, hcore⟩
    rwa [htext, Text.trim_append hbefore hafter hcore.ne_nil hcore.isWhiteSpace_head
      hcore.isWhiteSpace_last]

/-- The text that a default of unknown structure has behind `?:`. -/
inductive RightOperand (text : String) : String → Prop
  | atomic : PaddedAtomicText text.toList → RightOperand text text
  | enclosed : ¬ PaddedAtomicText text.toList → RightOperand text ("(" ++ text ++ ")")

theorem rightOperand_iff {text operand : String} :
    RightOperand text operand ↔
      operand = Text.parenthesizeIf (!(Expression.source text).isAtomic) text := by
  by_cases hatomic : PaddedAtomicText text.toList
  · rw [Expression.isAtomic_source_iff.mpr hatomic]
    constructor
    · rintro (_ | hnot)
      · rfl
      · exact absurd hatomic hnot
    · rintro rfl
      exact .atomic hatomic
  · rw [Bool.eq_false_iff.mpr (mt Expression.isAtomic_source_iff.mp hatomic)]
    constructor
    · rintro (hpadded | _)
      · exact absurd hpadded hatomic
      · rfl
    · rintro rfl
      exact .enclosed hatomic

theorem Expression.render_source_eq_ok_iff {text r : String} :
    (Expression.source text).render = .ok r ↔
      (∃ ch ∈ text.toList, Text.isWhiteSpace ch = false) ∧ r = text := by
  rw [render, ← Text.isBlank_eq_false_iff]
  cases Text.isBlank text.toList with
  | true => simp [throw, throwThe, MonadExceptOf.throw]
  | false => simp [pure, Except.pure, eq_comm]

theorem Expression.render_elvis_eq_ok_iff {left right : Expression} {s : String} :
    (Expression.elvis left right).render = .ok s ↔
      ∃ l r, left.render = .ok l ∧ right.render = .ok r ∧
        s = l ++ " ?: " ++ Text.parenthesizeIf (!right.isAtomic) r := by
  rw [render]
  cases right.render with
  | error fault => simp [bind, Except.bind]
  | ok r =>
      cases left.render with
      | error fault => simp [bind, Except.bind]
      | ok l => simp [bind, Except.bind, pure, Except.pure, eq_comm]

/-- **Which defaults are written without parentheses.** The test for atomic texts accepts exactly the
grammar. A default of unknown structure behind `?:` is written whenever it is not blank and the left
operand is written: as it stands if it is an atomic text between white space, and in parentheses
otherwise. -/
theorem isAtomicSource_exact :
    (∀ cs : List Char, isAtomicSource cs = true ↔ AtomicText cs) ∧
    ∀ (left : Expression) (text s : String),
      (Expression.elvis left (.source text)).render = .ok s ↔
        ∃ l operand, left.render = .ok l ∧ (∃ ch ∈ text.toList, Text.isWhiteSpace ch = false) ∧
          RightOperand text operand ∧ s = l ++ " ?: " ++ operand := by
  refine ⟨fun _ => isAtomicSource_iff, fun left text s => ?_⟩
  constructor
  · intro h
    obtain ⟨l, r, hleft, hright, rfl⟩ := Expression.render_elvis_eq_ok_iff.mp h
    obtain ⟨hblank, rfl⟩ := Expression.render_source_eq_ok_iff.mp hright
    exact ⟨l, _, hleft, hblank, rightOperand_iff.mpr rfl, rfl⟩
  · rintro ⟨l, operand, hleft, hblank, hoperand, rfl⟩
    have hright := Expression.render_source_eq_ok_iff.mpr ⟨hblank, rfl⟩
    rw [rightOperand_iff.mp hoperand]
    exact Expression.render_elvis_eq_ok_iff.mpr ⟨l, text, hleft, hright, rfl⟩

-- Of two texts that end in a backslash and a quote, only the second ends with its literal.
example : isAtomicSource ['"', '\\', '"'] = false ∧ isAtomicSource ['"', '\\', '\\', '"'] = true := by
  decide

end FunctionService
