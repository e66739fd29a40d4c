import Mathlib
import FunctionService.Proofs.Grouping

/-!
# Argument lists keep their arguments apart

The arguments of a call are written one behind another with `, ` between them, and an argument may hold
such separators itself. They then stand inside brackets: `Balanced p` is the grammar of texts in which
brackets match and every character outside all brackets satisfies `p`, and the text of an expression of
known structure is balanced without a comma outside (`isItem_render`). So a text can be cut at the
separators outside all brackets, and what it falls into are the arguments
(`renderArguments_splitOutside`).
-/

namespace FunctionService

namespace Text

/-! ## Brackets that match -/

/-- The pairs of brackets. -/
def brackets : List (Char × Char) :=
  [('(', ')'), ('[', ']')]

/-- Whether a character is a bracket. -/
def isBracket : Char → Bool
  | '(' | ')' | '[' | ']' => true
  | _ => false

/-- Every bracket of a text matches another one of its kind, and every character outside all brackets
satisfies `p`. What stands inside brackets is free. -/
inductive Balanced : (Char → Prop) → List Char → Prop
  | nil {p : Char → Prop} : Balanced p []
  | plain {p : Char → Prop} {ch : Char} {cs : List Char} :
      isBracket ch = false → p ch → Balanced p cs → Balanced p (ch :: cs)
  | enclosed {p : Char → Prop} {opening closing : Char} {as bs : List Char} :
      (opening, closing) ∈ brackets → Balanced (fun _ => True) as → Balanced p bs →
      Balanced p (opening :: (as ++ closing :: bs))

namespace Balanced

variable {p q : Char → Prop} {as bs cs : List Char}

theorem mono (h : Balanced p cs) (hpq : ∀ ch, p ch → q ch) : Balanced q cs := by
  induction h with
  | nil => exact .nil
  | plain hch hp _ ih => exact .plain hch (hpq _ hp) (ih hpq)
  | enclosed hb has _ _ ih => exact .enclosed hb has (ih hpq)

theorem append (ha : Balanced p as) (hb : Balanced p bs) : Balanced p (as ++ bs) := by
  induction ha with
  | nil => exact hb
  | plain hch hp _ ih => exact .plain hch hp (ih hb)
  | enclosed hbracket hinner _ _ ih =>
      rw [List.cons_append, List.append_assoc]
      exact .enclosed hbracket hinner (ih hb)

theorem of_forall (h : ∀ ch ∈ cs, isBracket ch = false ∧ p ch) : Balanced p cs := by
  induction cs with
  | nil => exact .nil
  | cons ch cs ih =>
      obtain ⟨hch, hcs⟩ := List.forall_mem_cons.mp h
      exact .plain hch.1 hch.2 (ih hcs)

/-- Brackets around a balanced text leave nothing of it outside. -/
theorem enclose {b : Char × Char} (hb : b ∈ brackets) (h : Balanced q cs) :
    Balanced p (b.1 :: (cs ++ [b.2])) :=
  .enclosed hb (h.mono fun _ _ => trivial) .nil

theorem intercalate {texts : List (List Char)} (h : ∀ t ∈ texts, Balanced (· ≠ ',') t) :
    Balanced (fun _ => True) ([',', ' '].intercalate texts) := by
  induction texts with
  | nil => exact .nil
  | cons t texts ih =>
      obtain ⟨ht, htexts⟩ := List.forall_mem_cons.mp h
      have ht := ht.mono (q := fun _ => True) fun _ _ => trivial
      cases texts with
      | nil => rwa [List.intercalate_singleton]
      | cons t' texts =>
          rw [List.intercalate_cons_cons]
          exact (ht.append (.of_forall (by simp [isBracket]))).append (ih htexts)

end Balanced

/-! ## Cutting a text outside its brackets -/

/-- How many brackets are open behind a character, if `depth` are open in front of it. -/
def depthAfter (depth : Nat) : Char → Nat
  | '(' | '[' => depth + 1
  | ')' | ']' => depth - 1
  | _ => depth

/-- The parts of a text between the separators `, ` that stand outside all brackets, where `depth` brackets
are open in front of the text. -/
def splitOutside (depth : Nat) : List Char → List (List Char)
  | [] => [[]]
  | ',' :: ' ' :: cs =>
    if depth = 0 then [] :: splitOutside 0 cs
    else (splitOutside depth (' ' :: cs)).modifyHead (',' :: ·)
  | ch :: cs => (splitOutside (depthAfter depth ch) cs).modifyHead (ch :: ·)

variable {depth : Nat} {p : Char → Prop}

theorem depthAfter_of_plain {ch : Char} (h : isBracket ch = false) : depthAfter depth ch = depth := by
  unfold isBracket at h
  unfold depthAfter
  split at h
  · cases h
  · cases h
  · cases h
  · cases h
  next => split <;> simp_all

/-- A character that no separator outside brackets starts with belongs to the first part. -/
theorem splitOutside_cons {ch : Char} (h : depth = 0 → ch ≠ ',') (cs : List Char) :
    splitOutside depth (ch :: cs) =
      (splitOutside (depthAfter depth ch) cs).modifyHead (ch :: ·) := by
  by_cases hch : ch = ','
  · subst hch
    have hdepth : depth ≠ 0 := fun hzero => h hzero rfl
    cases cs with
    | nil => rfl
    | cons d cs =>
        by_cases hd : d = ' '
        · subst hd
          rw [splitOutside, if_neg hdepth]
          rfl
        · rw [splitOutside]
          simpa using hd
  · rw [splitOutside]
    intro _ heq
    exact absurd heq hch

/-- A balanced text is not cut if it stands inside brackets, or has no comma outside its own. -/
theorem Balanced.splitOutside_append {cs : List Char} (h : Balanced p cs) (depth : Nat)
    (hp : depth = 0 → ∀ ch, p ch → ch ≠ ',') (rest : List Char) :
    splitOutside depth (cs ++ rest) = (splitOutside depth rest).modifyHead (cs ++ ·) := by
  induction h generalizing depth rest with
  | nil =>
      rw [List.nil_append]
      cases splitOutside depth rest <;> rfl
  | @plain p ch cs hch hpch _ ih =>
      rw [List.cons_append, splitOutside_cons fun hzero => hp hzero ch hpch, depthAfter_of_plain hch,
        ih depth hp, List.modifyHead_modifyHead]
      rfl
  | @enclosed p opening closing as bs hb _ _ ihas ihbs =>
      have hbracket : opening ≠ ',' ∧ closing ≠ ',' ∧ depthAfter depth opening = depth + 1 ∧
          depthAfter (depth + 1) closing = depth := by
        simp only [brackets, List.mem_cons, List.not_mem_nil, or_false, Prod.mk.injEq] at hb
        rcases hb with ⟨rfl, rfl⟩ | ⟨rfl, rfl⟩ <;> exact ⟨by decide, by decide, rfl, rfl⟩
      obtain ⟨hopening, hclosing, hdeeper, hback⟩ := hbracket
      -- Inside the brackets every comma is at a depth at which nothing is cut.
      rw [List.cons_append, splitOutside_cons fun _ => hopening, hdeeper, List.append_assoc,
        ihas (depth + 1) fun hzero => absurd hzero (Nat.succ_ne_zero depth), List.cons_append,
        splitOutside_cons fun _ => hclosing, hback, ihbs depth hp]
      simp only [List.modifyHead_modifyHead]
      congr 1
      funext part
      simp

/-- Texts without a comma outside their brackets are what is left between separators. -/
theorem splitOutside_intercalate {texts : List (List Char)} (hne : texts ≠ [])
    (h : ∀ t ∈ texts, Balanced (· ≠ ',') t) :
    splitOutside 0 ([',', ' '].intercalate texts) = texts := by
  induction texts with
  | nil => exact absurd rfl hne
  | cons t texts ih =>
      obtain ⟨ht, htexts⟩ := List.forall_mem_cons.mp h
      cases texts with
      | nil =>
          have hcut := ht.splitOutside_append 0 (fun _ _ hch => hch) []
          rw [List.append_nil] at hcut
          rw [List.intercalate_singleton, hcut]
          simp [splitOutside]
      | cons t' texts =>
          rw [List.intercalate_cons_cons, List.append_assoc,
            ht.splitOutside_append 0 fun _ _ hch => hch]
          show List.modifyHead (t ++ ·) ([] :: splitOutside 0 ([',', ' '].intercalate (t' :: texts))) = _
          rw [ih (List.cons_ne_nil t' texts) htexts, List.modifyHead_cons, List.append_nil]

/-! ## Items -/

/-- A text that may stand between separators: there is something in it, its brackets match, and there is no
comma outside them. -/
structure IsItem (cs : List Char) : Prop where
  ne_nil : cs ≠ []
  balanced : Balanced (· ≠ ',') cs

/-- A word has no brackets and no commas. -/
theorem balanced_word {cs : List Char} (h : ∀ ch ∈ cs, isWordChar ch = true) : Balanced (· ≠ ',') cs := by
  refine .of_forall fun ch hch => ?_
  have hne (d : Char) (hd : isWordChar d = false) : ch ≠ d := by
    rintro rfl
    exact Bool.false_ne_true (hd.symm.trans (h ch hch))
  refine ⟨?_, hne ',' (by decide)⟩
  unfold isBracket
  split
  · exact absurd rfl (hne '(' (by decide))
  · exact absurd rfl (hne ')' (by decide))
  · exact absurd rfl (hne '[' (by decide))
  · exact absurd rfl (hne ']' (by decide))
  · rfl

theorem Identifier.isItem {cs : List Char} (h : Identifier cs) : IsItem cs :=
  ⟨h.ne_nil, balanced_word h.isWordChar⟩

namespace IsItem

variable {as bs : List Char}

theorem append (ha : IsItem as) (hb : Balanced (· ≠ ',') bs) : IsItem (as ++ bs) :=
  ⟨fun h => ha.ne_nil (List.append_eq_nil_iff.mp h).1, ha.balanced.append hb⟩

/-- Items between separators and in brackets are an item. -/
theorem enclosing {b : Char × Char} (hb : b ∈ brackets) {texts : List String}
    (h : ∀ t ∈ texts, IsItem t.toList) :
    IsItem (b.1 :: ((String.intercalate ", " texts).toList ++ [b.2])) := by
  rw [String.toList_intercalate]
  exact ⟨List.cons_ne_nil _ _,
    .enclose hb (.intercalate (List.forall_mem_map.mpr fun t ht => (h t ht).balanced))⟩

theorem parenthesizeIf {text : String} (h : IsItem text.toList) (asked : Bool) :
    IsItem (Text.parenthesizeIf asked text).toList := by
  rw [Text.parenthesizeIf]
  cases asked with
  | true =>
      rw [if_pos rfl, String.toList_append, String.toList_append]
      exact ⟨List.cons_ne_nil _ _, .enclose (b := ('(', ')')) (by decide) h.balanced⟩
  | false => exact h

end IsItem

end Text

/-! ## Texts of expressions -/

open Text

/-- The qualified name of a type is an item if its parts are identifiers. -/
theorem QualifiedName.isItem_spelling {q : QualifiedName} (hmodule : ∀ m ∈ q.module, Identifier m.toList)
    (hname : Identifier q.name.toList) : IsItem q.spelling.toList := by
  obtain ⟨module, name⟩ := q
  cases module with
  | none => exact hname.isItem
  | some m =>
      rw [spelling, String.toList_append, String.toList_append, List.append_assoc]
      exact (hmodule m rfl).isItem.append (.plain (by decide) (by decide) hname.isItem.balanced)

/-- The text of an argument is an item if that of its expression is. -/
theorem Argument.isItem_render {a : Argument} {text : String}
    (hvalue : ∀ text, a.value.render = .ok text → IsItem text.toList) (h : a.render = .ok text) :
    IsItem text.toList := by
  cases a with
  | positional value => exact hvalue text h
  | rest values =>
      obtain ⟨inner, hinner, h⟩ := exists_of_bind_eq_ok h
      cases h
      have hspread : IsItem ['.', '.', '.'] := ⟨List.cons_ne_nil _ _, .of_forall (by simp [isBracket])⟩
      rw [String.toList_append]
      exact hspread.append ((hvalue inner hinner).parenthesizeIf _).balanced

theorem forall₂_render_of_renderArguments {arguments : List Argument} {texts : List String}
    (h : renderArguments arguments = .ok texts) :
    List.Forall₂ (fun a t => a.render = .ok t) arguments texts := by
  rw [renderArguments_eq_mapM] at h
  exact Expression.forall₂_of_mapM_eq_ok h

theorem isItem_of_renderArguments {arguments : List Argument} {texts : List String}
    (hvalues : ∀ a ∈ arguments, ∀ text, a.value.render = .ok text → IsItem text.toList)
    (h : renderArguments arguments = .ok texts) : ∀ t ∈ texts, IsItem t.toList := by
  have hrendered := (List.forall₂_and_left _ _).mpr ⟨hvalues, forall₂_render_of_renderArguments h⟩
  have hitems : List.Forall₂ (fun t a => IsItem t.toList ∧ a.render = .ok t) texts arguments := by
    refine hrendered.flip.imp ?_
    rintro t a ⟨hvalue, hrender⟩
    exact ⟨a.isItem_render hvalue hrender, hrender⟩
  exact ((List.forall₂_and_left _ _).mp hitems).1

/-- The items of a list are written as positional arguments are. -/
theorem renderExpressions_eq_renderArguments (items : List Expression) :
    renderExpressions items = renderArguments (items.map .positional) := by
  induction items with
  | nil => rfl
  | cons item items ih => rw [renderExpressions, ih, List.map_cons, renderArguments, Argument.render]

namespace Expression

/-- The text of an expression without unknown text in it is an item. -/
theorem isItem_render {e : Expression} (he : e.Without isSource) {text : String}
    (h : e.render = .ok text) : IsItem text.toList := by
  induction e using Expression.induction generalizing text with
  | name n =>
      rw [render] at h
      obtain ⟨_, hn, h⟩ := exists_of_bind_eq_ok h
      cases h
      exact (identifier_of_checkIdentifier hn).isItem
  | fieldAccess target field ih =>
      rw [render] at h
      obtain ⟨_, hfield, h⟩ := exists_of_bind_eq_ok h
      obtain ⟨inner, hinner, h⟩ := exists_of_bind_eq_ok h
      cases h
      have hitem := ih ((without_iff.mp he).2 target List.mem_cons_self) hinner
      have hfield := (identifier_of_checkIdentifier hfield).isItem
      rw [String.toList_append, String.toList_append, List.append_assoc]
      exact hitem.append (.plain (by decide) (by decide) hfield.balanced)
  | elvis left right ihleft ihright =>
      rw [render] at h
      obtain ⟨r, hr, h⟩ := exists_of_bind_eq_ok h
      obtain ⟨l, hl, h⟩ := exists_of_bind_eq_ok h
      cases h
      have hchildren := (without_iff.mp he).2
      have hleft := ihleft (hchildren left List.mem_cons_self) hl
      have hright := ihright (hchildren right (List.mem_cons_of_mem _ List.mem_cons_self)) hr
      have hmark : Balanced (· ≠ ',') [' ', '?', ':', ' '] := .of_forall (by simp [isBracket])
      rw [String.toList_append, String.toList_append]
      exact (hleft.append hmark).append (hright.parenthesizeIf _).balanced
  | list items ih =>
      rw [render] at h
      obtain ⟨texts, htexts, h⟩ := exists_of_bind_eq_ok h
      cases h
      rw [renderExpressions_eq_renderArguments] at htexts
      have hitems : ∀ a ∈ items.map Argument.positional, ∀ text,
          a.value.render = .ok text → IsItem text.toList := by
        intro a ha text hrender
        obtain ⟨item, hitem, rfl⟩ := List.mem_map.mp ha
        exact ih item hitem ((without_iff.mp he).2 item hitem) hrender
      rw [String.toList_append, String.toList_append]
      exact .enclosing (b := ('[', ']')) (by decide) (isItem_of_renderArguments hitems htexts)
  | call function arguments ih =>
      rw [render] at h
      obtain ⟨_, hfunction, h⟩ := exists_of_bind_eq_ok h
      obtain ⟨texts, htexts, h⟩ := exists_of_bind_eq_ok h
      cases h
      have harguments := isItem_of_renderArguments (fun a ha text => ih a ha
        ((without_iff.mp he).2 a.value (List.mem_map_of_mem ha))) htexts
      rw [String.toList_append, String.toList_append, String.toList_append, List.append_assoc,
        List.append_assoc]
      exact (identifier_of_checkIdentifier hfunction).isItem.append
        (IsItem.enclosing (b := ('(', ')')) (by decide) harguments).balanced
  | new q arguments ih =>
      obtain ⟨hmodule, hname, texts, htexts, rfl⟩ := exists_of_render_new h
      have harguments := isItem_of_renderArguments (fun a ha text => ih a ha
        ((without_iff.mp he).2 a.value (List.mem_map_of_mem ha))) htexts
      have hnew : IsItem ['n', 'e', 'w', ' '] := ⟨List.cons_ne_nil _ _, .of_forall (by simp [isBracket])⟩
      rw [String.toList_append, String.toList_append, String.toList_append, String.toList_append,
        List.append_assoc, List.append_assoc]
      exact (hnew.append (QualifiedName.isItem_spelling hmodule hname).balanced).append
        (IsItem.enclosing (b := ('(', ')')) (by decide) harguments).balanced
  | int value =>
      rw [render] at h
      cases h
      have hword := Reading.isWordChar_repr value.toInt
      exact ⟨hword.1, balanced_word hword.2⟩
  | source text => cases (without_iff.mp he).1

end Expression

/-! ## Texts of calls -/

theorem checkIdentifier_of_identifier {n : String} (h : Identifier n.toList) :
    checkIdentifier n = .ok () :=
  if_pos (isIdentifier_iff.mpr h)

namespace Expression

variable {arguments : List Argument} {texts : List String}

theorem render_call {function : String} (hfunction : Identifier function.toList)
    (h : renderArguments arguments = .ok texts) :
    (call function arguments).render = .ok (function ++ "(" ++ String.intercalate ", " texts ++ ")") := by
  rw [render, checkIdentifier_of_identifier hfunction, h]
  rfl

theorem render_new {q : QualifiedName} (hmodule : ∀ m ∈ q.module, Identifier m.toList)
    (hname : Identifier q.name.toList) (h : renderArguments arguments = .ok texts) :
    (new q arguments).render =
      .ok ("new " ++ q.spelling ++ "(" ++ String.intercalate ", " texts ++ ")") := by
  obtain ⟨module, name⟩ := q
  rw [render, checkIdentifier_of_identifier hname, h]
  cases module with
  | none => rfl
  | some m =>
      show (checkIdentifier m >>= _) = _
      rw [checkIdentifier_of_identifier (hmodule m rfl)]
      rfl

end Expression

/-- **The text of a call keeps its arguments apart.** Let arguments without unknown text in them be written,
one or more of them. The text between the parentheses of the call or construction is balanced; the text of
each argument is not empty and is balanced without a comma outside all brackets; and cutting the whole text
at the separators outside all brackets gives the texts of the arguments, one for each and in order. -/
theorem renderArguments_splitOutside {arguments : List Argument} {texts : List String}
    (hne : arguments ≠ []) (hsource : ∀ a ∈ arguments, a.value.Without Expression.isSource)
    (h : renderArguments arguments = .ok texts) :
    let text := String.intercalate ", " texts
    (∀ function : String, Identifier function.toList →
      (Expression.call function arguments).render = .ok (function ++ "(" ++ text ++ ")")) ∧
    (∀ q : QualifiedName, (∀ m ∈ q.module, Identifier m.toList) → Identifier q.name.toList →
      (Expression.new q arguments).render = .ok ("new " ++ q.spelling ++ "(" ++ text ++ ")")) ∧
    Balanced (fun _ => True) text.toList ∧
    List.Forall₂ (fun a t => a.render = .ok t) arguments texts ∧
    (∀ t ∈ texts, t.toList ≠ [] ∧ Balanced (· ≠ ',') t.toList) ∧
    splitOutside 0 text.toList = texts.map String.toList := by
  intro text
  have hitems := isItem_of_renderArguments
    (fun a ha text => Expression.isItem_render (hsource a ha)) h
  have hbalanced : ∀ cs ∈ texts.map String.toList, Balanced (· ≠ ',') cs :=
    List.forall_mem_map.mpr fun t ht => (hitems t ht).balanced
  have hrendered := forall₂_render_of_renderArguments h
  have htexts : texts.map String.toList ≠ [] := by
    rintro hnil
    rw [List.map_eq_nil_iff.mp hnil, List.forall₂_nil_right_iff] at hrendered
    exact hne hrendered
  have htext : text.toList = [',', ' '].intercalate (texts.map String.toList) :=
    String.toList_intercalate
  refine ⟨fun function hfunction => Expression.render_call hfunction h,
    fun q hmodule hname => Expression.render_new hmodule hname h, ?_, hrendered,
    fun t ht => ⟨(hitems t ht).ne_nil, (hitems t ht).balanced⟩, ?_⟩
  · rw [htext]
    exact .intercalate hbalanced
  · rw [htext, splitOutside_intercalate htexts hbalanced]

/-- Three arguments with separators inside the brackets of each. -/
theorem renderArguments_splitOutside_nested :
    let arguments : List Argument :=
      [.positional (.list [.name "a", .int (-1)]),
        .rest (.elvis (.name "ys") (.list [.name "b", .name "c"])),
        .positional (.new ⟨some "http", "Client"⟩ [.positional (.call "f" [.rest (.name "x"), .rest (.name "y")])])]
    renderArguments arguments =
        .ok ["[a, -1]", "...(ys ?: [b, c])", "new http:Client(f(...x, ...y))"] ∧
      (Expression.call "g" arguments).render =
        .ok "g([a, -1], ...(ys ?: [b, c]), new http:Client(f(...x, ...y)))" ∧
      splitOutside 0 "[a, -1], ...(ys ?: [b, c]), new http:Client(f(...x, ...y))".toList =
        ["[a, -1]".toList, "...(ys ?: [b, c])".toList, "new http:Client(f(...x, ...y))".toList] := by
  intro arguments
  have hsource : ∀ a ∈ arguments, a.value.Without Expression.isSource := by
    simp [arguments, Expression.without_iff (e := .name _), Expression.without_iff (e := .elvis _ _),
      Expression.without_iff (e := .call _ _), Expression.without_iff (e := .new _ _),
      Expression.without_iff (e := .list _), Expression.without_iff (e := .int _), Expression.children,
      Argument.value, Expression.isSource]
  have hrender : renderArguments arguments =
      .ok ["[a, -1]", "...(ys ?: [b, c])", "new http:Client(f(...x, ...y))"] := by decide +kernel
  obtain ⟨hcall, _, _, _, _, hsplit⟩ :=
    renderArguments_splitOutside (List.cons_ne_nil _ _) hsource hrender
  refine ⟨hrender, ?_, hsplit⟩
  exact hcall "g" (isIdentifier_iff.mp (by decide))

end FunctionService
