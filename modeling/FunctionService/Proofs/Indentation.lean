import Mathlib.Data.List.Forall2
import FunctionService.Service.Source

/-!
# Indentation is layout

A unit is written twice, with two indents. Both runs check the same names in the same order, so they stop
at the same fault or both have a text (`Agree`). The two texts are built from the same stretches of
complete lines, and the indent shows in front of a stretch only (`Aligned`). A type, a base path or a
source expression may bring line breaks and spaces of its own into a stretch; the padding still reaches
no line but the first of it, and so a line of one text differs from the line of the other in the number
of its leading spaces (`ServiceUnit.render_lines_unindented`).
-/

namespace FunctionService

/-! ## Two runs that agree -/

/-- Two computations fail alike, or have results that are related. -/
inductive Agree {ε α β : Type} (R : α → β → Prop) : Except ε α → Except ε β → Prop
  | error (fault : ε) : Agree R (.error fault) (.error fault)
  | ok {a : α} {b : β} : R a b → Agree R (.ok a) (.ok b)

namespace Agree

variable {ε α β γ δ : Type} {R : α → β → Prop} {S : γ → δ → Prop}

theorem refl (r : Except ε α) : Agree Eq r r := by
  cases r with
  | error fault => exact .error fault
  | ok a => exact .ok rfl

theorem bind {r : Except ε α} {r' : Except ε β} {f : α → Except ε γ} {g : β → Except ε δ}
    (h : Agree R r r') (hfg : ∀ a b, R a b → Agree S (f a) (g b)) : Agree S (r >>= f) (r' >>= g) := by
  cases h with
  | error fault => exact .error fault
  | ok hab => exact hfg _ _ hab

/-- Both runs begin with the same computation. -/
theorem bind_same (r : Except ε α) {f : α → Except ε γ} {g : α → Except ε δ}
    (hfg : ∀ a, Agree S (f a) (g a)) : Agree S (r >>= f) (r >>= g) := by
  refine (refl r).bind fun a b hab => ?_
  rw [← hab]
  exact hfg a

theorem mapM {f : γ → Except ε α} {g : γ → Except ε β} (xs : List γ)
    (h : ∀ x ∈ xs, Agree R (f x) (g x)) : Agree (List.Forall₂ R) (xs.mapM f) (xs.mapM g) := by
  induction xs with
  | nil => exact .ok .nil
  | cons x xs ih =>
      rw [List.mapM_cons, List.mapM_cons]
      refine (h x List.mem_cons_self).bind fun a b hab => ?_
      refine (ih fun y hy => h y (List.mem_cons_of_mem x hy)).bind fun as bs habs => ?_
      exact .ok (.cons hab habs)

end Agree

namespace Text

/-! ## Lines -/

/-- The lines of a text, without the line breaks. -/
def lines (text : String) : List (List Char) :=
  text.toList.splitOn '\n'

/-- A line without its leading spaces. -/
def unindented (line : List Char) : List Char :=
  line.dropWhile (· == ' ')

theorem lines_append_newline (a b : String) : lines (a ++ "\n" ++ b) = lines a ++ lines b := by
  have hchars : (a ++ "\n" ++ b).toList = a.toList ++ '\n' :: b.toList := by simp
  rw [lines, hchars]
  exact List.splitOn_append_cons_self _ _

theorem toList_pad (indent level : Nat) : (pad indent level).toList = List.replicate (indent * level) ' ' :=
  String.toList_ofList

/-- Padding goes to the first line. -/
theorem lines_pad_append (indent level : Nat) (text : String) :
    lines (pad indent level ++ text) =
      (lines text).modifyHead (List.replicate (indent * level) ' ' ++ ·) := by
  rw [lines, String.toList_append, toList_pad, lines]
  induction indent * level with
  | zero =>
      rw [List.replicate_zero, List.nil_append]
      cases text.toList.splitOn '\n' <;> rfl
  | succ n ih =>
      rw [List.replicate_succ, List.cons_append, List.splitOn_cons_eq_if_modifyHead, if_neg (by decide), ih]
      cases text.toList.splitOn '\n' <;> rfl

/-- A line of a text written with the indent `v`, and the same line with the indent `w`: some level of
padding in front of what they share. -/
def Shifted (v w : Nat) (a b : List Char) : Prop :=
  ∃ level ≤ 2, ∃ rest,
    a = List.replicate (v * level) ' ' ++ rest ∧ b = List.replicate (w * level) ' ' ++ rest

variable {v w : Nat}

theorem forall₂_shifted_refl (ls : List (List Char)) : List.Forall₂ (Shifted v w) ls ls :=
  List.forall₂_same.mpr fun line _ => ⟨0, Nat.zero_le 2, line, rfl, rfl⟩

theorem unindented_replicate_append (n : Nat) (rest : List Char) :
    unindented (List.replicate n ' ' ++ rest) = unindented rest := by
  refine List.dropWhile_append_of_pos fun ch hch => ?_
  rw [List.eq_of_mem_replicate hch]
  rfl

theorem Shifted.unindented_eq {a b : List Char} (h : Shifted v w a b) : unindented a = unindented b := by
  obtain ⟨level, -, rest, rfl, rfl⟩ := h
  rw [unindented_replicate_append, unindented_replicate_append]

/-! ## Texts of complete lines -/

/-- The last line of a text is complete. -/
def EndsLine (text : String) : Prop :=
  ∃ front, text = front ++ "\n"

theorem EndsLine.append {b : String} (h : EndsLine b) (a : String) : EndsLine (a ++ b) := by
  obtain ⟨front, rfl⟩ := h
  exact ⟨a ++ front, String.append_assoc.symm⟩

/-- A text with the indent `v` and a text with the indent `w` are built from the same stretches of complete
lines, each with the padding of its level in front. -/
inductive Aligned (v w : Nat) : String → String → Prop
  | nil : Aligned v w "" ""
  | cons {level : Nat} {text s t : String} : level ≤ 2 → EndsLine text → Aligned v w s t →
      Aligned v w (pad v level ++ text ++ s) (pad w level ++ text ++ t)

namespace Aligned

variable {s t s' t' : String}

theorem stretch {level : Nat} {text : String} (hlevel : level ≤ 2) (htext : EndsLine text) :
    Aligned v w (pad v level ++ text) (pad w level ++ text) := by
  simpa only [String.append_empty] using Aligned.cons (v := v) (w := w) hlevel htext .nil

theorem same {text : String} (htext : EndsLine text) : Aligned v w text text := by
  simpa [pad] using stretch (v := v) (w := w) (Nat.zero_le 2) htext

theorem append (h : Aligned v w s t) (h' : Aligned v w s' t') : Aligned v w (s ++ s') (t ++ t') := by
  induction h with
  | nil => simpa only [String.empty_append] using h'
  | cons hlevel htext _ ih =>
      simpa only [String.append_assoc] using Aligned.cons hlevel htext ih

theorem join {ss ts : List String} (h : List.Forall₂ (Aligned v w) ss ts) :
    Aligned v w (String.join ss) (String.join ts) := by
  induction h with
  | nil => exact .nil
  | cons h _ ih =>
      rw [String.join_cons, String.join_cons]
      exact h.append ih

/-- Blank lines between texts. -/
theorem intercalate {ss ts : List String} (h : List.Forall₂ (Aligned v w) ss ts) :
    Aligned v w (String.intercalate "\n" ss) (String.intercalate "\n" ts) := by
  induction h with
  | nil => exact .nil
  | cons h hrest ih =>
      cases hrest with
      | nil =>
          rw [String.intercalate_singleton, String.intercalate_singleton]
          exact h
      | cons h' hrest' =>
          rw [String.intercalate_cons_cons, String.intercalate_cons_cons]
          exact (h.append (same ⟨"", rfl⟩)).append ih

theorem isEmpty_eq (h : Aligned v w s t) : s.isEmpty = t.isEmpty := by
  cases h with
  | nil => rfl
  | cons _ htext _ =>
      obtain ⟨front, rfl⟩ := htext
      rw [Bool.eq_iff_iff, String.isEmpty_iff, String.isEmpty_iff]
      simp

theorem filter_nonempty {ss ts : List String} (h : List.Forall₂ (Aligned v w) ss ts) :
    List.Forall₂ (Aligned v w) (ss.filter fun s => !s.isEmpty) (ts.filter fun t => !t.isEmpty) := by
  induction h with
  | nil => exact .nil
  | @cons s t ss ts h _ ih =>
      rw [List.filter_cons, List.filter_cons, h.isEmpty_eq]
      cases t.isEmpty with
      | true => exact ih
      | false => exact .cons h ih

/-- Line by line, aligned texts differ in their padding. -/
theorem lines_shifted (h : Aligned v w s t) : List.Forall₂ (Shifted v w) (lines s) (lines t) := by
  induction h with
  | nil => exact forall₂_shifted_refl _
  | @cons level text s t hlevel htext _ ih =>
      obtain ⟨front, rfl⟩ := htext
      rw [← String.append_assoc, ← String.append_assoc, lines_append_newline, lines_append_newline,
        lines_pad_append, lines_pad_append]
      -- A stretch may span several lines of its own, which carry no padding.
      refine List.rel_append ?_ ih
      cases lines front with
      | nil => exact .nil
      | cons first rest => exact .cons ⟨level, hlevel, first, rfl, rfl⟩ (forall₂_shifted_refl rest)

end Aligned

end Text

/-! ## Writing with two indents -/

section Writing

open Text

variable (v w : Nat)

theorem Import.render_aligned (i : Import) : Agree (Aligned v w) i.render i.render :=
  .bind_same _ fun _ => .bind_same _ fun _ => .ok (.same (.append ⟨";", rfl⟩ _))

theorem Configurable.render_aligned (c : Configurable) : Agree (Aligned v w) c.render c.render :=
  .bind_same _ fun _ => .bind_same _ fun _ => .ok (.same (.append ⟨";", rfl⟩ _))

theorem Resource.render_aligned (r : Resource) : Agree (Aligned v w) (r.render v) (r.render w) := by
  refine .bind_same _ fun _ => .bind_same _ fun _ => .bind_same _ fun payload =>
    .bind_same _ fun body => .ok ?_
  have hhead : EndsLine ("resource function " ++ r.accessor ++ " " ++ r.path ++ "(" ++ payload ++
      ") returns " ++ Text.parenthesizeIf r.returns.isUnion r.returns.spelling ++ "|error \x7b\n") :=
    EndsLine.append ⟨"|error \x7b", rfl⟩ _
  have hbody : EndsLine ("return " ++ body ++ ";\n") := EndsLine.append ⟨";", rfl⟩ _
  have hfoot : EndsLine "\x7d\n" := ⟨"\x7d", rfl⟩
  have hlines := ((Aligned.stretch (v := v) (w := w) (Nat.le_succ 1) hhead).append
    (.stretch (Nat.le_refl 2) hbody)).append (.stretch (Nat.le_succ 1) hfoot)
  simpa only [String.append_assoc] using hlines

theorem Service.render_aligned (s : Service) : Agree (Aligned v w) (s.render v) (s.render w) := by
  refine .bind_same _ fun listener => ?_
  refine (Agree.mapM s.resources fun r _ => r.render_aligned v w).bind fun _ _ hresources => .ok ?_
  have hhead : EndsLine ("service " ++ s.basePath ++ " on " ++ listener ++ " \x7b\n") :=
    EndsLine.append ⟨" \x7b", rfl⟩ _
  exact ((Aligned.same hhead).append (.intercalate hresources)).append (.same ⟨"\x7d", rfl⟩)

theorem RecordField.render_aligned (f : RecordField) :
    Agree (Aligned v w) (f.render v) (f.render w) := by
  refine .bind_same _ fun _ => .ok ?_
  have hfield : EndsLine
      (f.type.spelling ++ " " ++ f.name ++ (if f.isOptional then "?" else "") ++ ";\n") :=
    EndsLine.append ⟨";", rfl⟩ _
  simpa only [String.append_assoc] using Aligned.stretch (v := v) (w := w) (Nat.le_succ 1) hfield

theorem PayloadRecord.render_aligned (r : PayloadRecord) :
    Agree (Aligned v w) (r.render v) (r.render w) := by
  refine .bind_same _ fun _ => ?_
  refine (Agree.mapM r.fields fun f _ => f.render_aligned v w).bind fun _ _ hfields => .ok ?_
  have hhead : EndsLine ("public type " ++ r.name ++ " record \x7b\n") :=
    EndsLine.append ⟨" record \x7b", rfl⟩ _
  exact ((Aligned.same hhead).append (.join hfields)).append (.same ⟨"\x7d;", rfl⟩)

theorem ServiceUnit.render_aligned (u : ServiceUnit) :
    Agree (Aligned v w) (u.render v) (u.render w) := by
  refine (Agree.mapM u.imports fun i _ => i.render_aligned v w).bind fun _ _ himports => ?_
  refine (Agree.mapM u.configurables fun c _ => c.render_aligned v w).bind fun _ _ hconfigurables => ?_
  refine (u.service.render_aligned v w).bind fun _ _ hservice => ?_
  refine (Agree.mapM u.records fun r _ => r.render_aligned v w).bind fun _ _ hrecords => .ok ?_
  have hsections := List.Forall₂.cons (Aligned.join himports)
    (.cons (Aligned.join hconfigurables) (.cons hservice hrecords))
  -- A section is empty in both texts or in neither, so the same ones are left out.
  exact .intercalate (Aligned.filter_nonempty hsections)

/-- **Indentation is layout.** With any two indents a unit fails to be written with the same fault, or has
two texts with as many lines that are equal once every line has lost its leading spaces. Line by line, one
text has a level of padding where the other has the same level. -/
theorem ServiceUnit.render_lines_unindented (u : ServiceUnit) :
    (∃ fault, u.render v = .error fault ∧ u.render w = .error fault) ∨
      ∃ s t, u.render v = .ok s ∧ u.render w = .ok t ∧
        (lines s).length = (lines t).length ∧
        (lines s).map unindented = (lines t).map unindented ∧
        List.Forall₂ (Shifted v w) (lines s) (lines t) := by
  have hagree := u.render_aligned v w
  generalize u.render v = r, u.render w = r' at hagree ⊢
  cases hagree with
  | error fault => exact .inl ⟨fault, rfl, rfl⟩
  | @ok s t h =>
      have hlines := h.lines_shifted
      refine .inr ⟨s, t, rfl, rfl, hlines.length_eq, ?_, hlines⟩
      rw [← List.forall₂_eq_eq_eq, List.forall₂_map_left_iff, List.forall₂_map_right_iff]
      exact hlines.imp fun _ _ hline => hline.unindented_eq

end Writing

end FunctionService
