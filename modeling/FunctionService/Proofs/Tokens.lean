import FunctionService.Proofs.Checks

/-!
# Reading source text back

Source text falls into words and marks. A word is a longest stretch of characters that identifiers and
numbers are made of; `?:` and `...` are marks of their own, and every other character is one too.

A reader is a step function on states that takes a token at a time. `Reads step cs s s'` says that the
text `cs` takes it from `s` to `s'`, whatever text follows that does not run on in a word. Texts are
put together by one rule for each kind of token, so a proof about a reader follows the writer of the text
and does not look at tokens.
-/

namespace FunctionService.Text

/-! ## Tokens -/

/-- The characters that hold a word together: those of identifiers, the quote in front of one, and the
sign of a number. -/
def isWordChar (ch : Char) : Bool :=
  isIdentifierChar ch || ch == '\'' || ch == '-'

/-- The characters that are marks wherever they stand. -/
def isMark (ch : Char) : Bool :=
  !isWordChar ch && ch != '?' && ch != '.'

/-- A piece of source text. -/
inductive Token where
  | word (letters : List Char)
  | mark (ch : Char)
  /-- The mark `?:`. -/
  | elvis
  /-- The mark `...`. -/
  | spread
  deriving DecidableEq

/-- Puts a character of a word in front of tokens: the word they start with goes on to the left, or a new
one starts. -/
def Token.glue (ch : Char) : List Token → List Token
  | .word letters :: ts => .word (ch :: letters) :: ts
  | ts => .word [ch] :: ts

/-- The tokens of a text. -/
def tokens : List Char → List Token
  | [] => []
  | '?' :: ':' :: cs => .elvis :: tokens cs
  | '.' :: '.' :: '.' :: cs => .spread :: tokens cs
  | ch :: cs => if isWordChar ch then Token.glue ch (tokens cs) else .mark ch :: tokens cs

/-- A text does not start with a character of a word. -/
def Apart (cs : List Char) : Prop :=
  ∀ ch ∈ cs.head?, isWordChar ch = false

theorem apart_nil : Apart [] := by
  intro ch h
  cases h

theorem apart_cons {ch : Char} (h : isWordChar ch = false) (cs : List Char) : Apart (ch :: cs) := by
  intro d hd
  cases hd
  exact h

theorem Apart.append {as bs : List Char} (ha : Apart as) (hb : Apart bs) : Apart (as ++ bs) := by
  cases as with
  | nil => exact hb
  | cons ch as => exact apart_cons (ha ch rfl) (as ++ bs)

/-- A character that starts no longer mark is a mark, or belongs to a word. -/
theorem tokens_cons {ch : Char} (helvis : ch ≠ '?') (hspread : ch ≠ '.') (cs : List Char) :
    tokens (ch :: cs) =
      if isWordChar ch then Token.glue ch (tokens cs) else .mark ch :: tokens cs := by
  rw [tokens]
  · intro _ heq
    exact absurd heq helvis
  · intro _ heq
    exact absurd heq hspread

theorem tokens_of_isWordChar {ch : Char} (h : isWordChar ch = true) (cs : List Char) :
    tokens (ch :: cs) = Token.glue ch (tokens cs) := by
  have helvis : ch ≠ '?' := by
    rintro rfl
    exact absurd h (by decide)
  have hspread : ch ≠ '.' := by
    rintro rfl
    exact absurd h (by decide)
  rw [tokens_cons helvis hspread, if_pos h]

theorem tokens_of_isMark {ch : Char} (h : isMark ch = true) (cs : List Char) :
    tokens (ch :: cs) = .mark ch :: tokens cs := by
  simp only [isMark, Bool.and_eq_true, Bool.not_eq_true', bne_iff_ne] at h
  obtain ⟨⟨hword, helvis⟩, hspread⟩ := h
  rw [tokens_cons helvis hspread, hword]
  rfl

/-- A point is a mark of its own unless another one follows. -/
theorem tokens_point {cs : List Char} (h : cs.head? ≠ some '.') :
    tokens ('.' :: cs) = .mark '.' :: tokens cs := by
  cases cs with
  | nil => rfl
  | cons ch cs =>
      have hne : ch ≠ '.' := by
        rintro rfl
        exact h rfl
      rw [tokens]
      · exact if_neg (by decide)
      · intro _ heq
        cases heq
      · intro _ _ heq
        exact hne (List.cons.inj heq).1

theorem Apart.tokens_ne_word {cs : List Char} (h : Apart cs) (letters : List Char) (ts : List Token) :
    tokens cs ≠ .word letters :: ts := by
  unfold tokens
  split
  next => simp
  next => simp
  next => simp
  next ch cs _ _ =>
    have hch : isWordChar ch = false := h ch rfl
    simp [hch]

/-- The characters of a word make up one token where the text behind them does not go on with it. -/
theorem tokens_word {letters : List Char} (hne : letters ≠ [])
    (hletters : ∀ ch ∈ letters, isWordChar ch = true) {cs : List Char} (h : Apart cs) :
    tokens (letters ++ cs) = .word letters :: tokens cs := by
  induction letters with
  | nil => exact absurd rfl hne
  | cons ch letters ih =>
      rw [List.cons_append, tokens_of_isWordChar (hletters ch List.mem_cons_self)]
      cases letters with
      | nil =>
          have hword := h.tokens_ne_word
          show Token.glue ch (tokens cs) = .word [ch] :: tokens cs
          unfold Token.glue
          split
          next letters ts heq => exact absurd heq (hword letters ts)
          next => rfl
      | cons d letters =>
          rw [ih (List.cons_ne_nil d letters) fun e he => hletters e (List.mem_cons_of_mem ch he)]
          rfl

/-! ## Readers -/

section Readers

variable {σ : Type} {step : σ → Token → Option σ} {s s' s'' : σ} {as bs : List Char}

/-- A text takes a reader from one state to another, whatever follows it that starts a new token. -/
def Reads (step : σ → Token → Option σ) (cs : List Char) (s s' : σ) : Prop :=
  ∀ rest, Apart rest → (tokens (cs ++ rest)).foldlM step s = (tokens rest).foldlM step s'

theorem Reads.refl (s : σ) : Reads step [] s s :=
  fun _ _ => rfl

/-- A text that is read to its end leaves the reader in its last state. -/
theorem Reads.foldlM_eq (h : Reads step as s s') : (tokens as).foldlM step s = some s' := by
  have hend := h [] apart_nil
  rwa [List.append_nil] at hend

theorem Reads.append (ha : Reads step as s s') (hb : Reads step bs s' s'') (hbs : Apart bs) :
    Reads step (as ++ bs) s s'' := by
  intro rest hrest
  rw [List.append_assoc, ha (bs ++ rest) (hbs.append hrest), hb rest hrest]

theorem Reads.word (hne : as ≠ []) (has : ∀ ch ∈ as, isWordChar ch = true)
    (h : step s (.word as) = some s') : Reads step as s s' := by
  intro rest hrest
  rw [tokens_word hne has hrest, List.foldlM_cons, h]
  rfl

theorem Reads.mark {ch : Char} (hch : isMark ch = true) (h : step s (.mark ch) = some s')
    (hbs : Reads step bs s' s'') : Reads step (ch :: bs) s s'' := by
  intro rest hrest
  rw [List.cons_append, tokens_of_isMark hch, List.foldlM_cons, h]
  exact hbs rest hrest

theorem Reads.point (hne : bs ≠ []) (hhead : bs.head? ≠ some '.') (h : step s (.mark '.') = some s')
    (hbs : Reads step bs s' s'') : Reads step ('.' :: bs) s s'' := by
  intro rest hrest
  have hhead' : (bs ++ rest).head? ≠ some '.' := by
    rwa [List.head?_append_of_ne_nil bs hne]
  rw [List.cons_append, tokens_point hhead', List.foldlM_cons, h]
  exact hbs rest hrest

theorem Reads.elvis (h : step s .elvis = some s') (hbs : Reads step bs s' s'') :
    Reads step ('?' :: ':' :: bs) s s'' := by
  intro rest hrest
  show (tokens ('?' :: ':' :: (bs ++ rest))).foldlM step s = _
  rw [tokens, List.foldlM_cons, h]
  exact hbs rest hrest

theorem Reads.spread (h : step s .spread = some s') (hbs : Reads step bs s' s'') :
    Reads step ('.' :: '.' :: '.' :: bs) s s'' := by
  intro rest hrest
  show (tokens ('.' :: '.' :: '.' :: (bs ++ rest))).foldlM step s = _
  rw [tokens, List.foldlM_cons, h]
  exact hbs rest hrest

end Readers

/-! ## Identifiers as words -/

theorem Identifier.ne_nil {cs : List Char} (h : Identifier cs) : cs ≠ [] := by
  cases h <;> exact List.cons_ne_nil _ _

theorem isWordChar_of_isIdentifierChar {ch : Char} (h : isIdentifierChar ch = true) :
    isWordChar ch = true := by
  simp [isWordChar, h]

theorem Identifier.isWordChar {cs : List Char} (h : Identifier cs) :
    ∀ ch ∈ cs, isWordChar ch = true := by
  cases h with
  | quoted hall =>
      intro ch hch
      rcases List.mem_cons.mp hch with rfl | hch
      · decide
      · exact isWordChar_of_isIdentifierChar (hall ch hch)
  | plain hfirst hall =>
      intro ch hch
      rcases List.mem_cons.mp hch with rfl | hch
      · rcases hfirst with hfirst | rfl
        · simp [Text.isWordChar, isIdentifierChar, hfirst]
        · decide
      · exact isWordChar_of_isIdentifierChar (hall ch hch)

/-- An identifier is read as one word. -/
theorem Reads.identifier {σ : Type} {step : σ → Token → Option σ} {s s' : σ} {cs : List Char}
    (hcs : Identifier cs) (h : step s (.word cs) = some s') : Reads step cs s s' :=
  .word hcs.ne_nil hcs.isWordChar h

end FunctionService.Text
