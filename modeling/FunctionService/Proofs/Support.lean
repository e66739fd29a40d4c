import FunctionService.Support
import Mathlib.Logic.Relation
import Mathlib.Order.WellFounded

/-!
# Support is exact

`SymbolTable.supportsSymbol` judges a name under the table that no longer binds it. Here that judgement
is compared with three descriptions that know nothing of erased names:

* `SymbolTable.Supports`, the least relation that holds of primitives and records, passes from the
  member of a container to the container, and from what a name is bound to to the name;
* the paths of `SymbolTable.Follows`, which go from a container to its member and from a name to what it
  is bound to, and either end or do not;
* `SymbolTable.supportsUnseen`, which follows one symbol at a time under the whole table and gives up at
  a name that it has met before.

The first is equivalent to the judgement, the second describes its negation, and the third computes the
same value. What makes it so is that a name is never needed twice: if a symbol is supported under a
table, then it is supported without the name `n`, or `n` itself is supported (`supportsSymbol_erase`).
-/

namespace FunctionService

/-! ## Symbols and the names in them -/

namespace TypeSymbol

/-- A symbol names at most one name, so whatever is to be shown of a supported symbol has to be shown of
that name only. -/
theorem supportedWith_weaken {f g : String → Bool} {P : Prop}
    (h : ∀ n, f n = true → g n = true ∨ P) (s : TypeSymbol) (hs : s.supportedWith f = true) :
    s.supportedWith g = true ∨ P := by
  induction s with
  | primitive kind => exact Or.inl rfl
  | record => exact Or.inl rfl
  | array element ih => exact ih hs
  | map value ih => exact ih hs
  | table row ih => exact ih hs
  | «alias» n => exact h n hs
  | other text => exact absurd hs Bool.false_ne_true

theorem supportedWith_mono {f g : String → Bool} (h : ∀ n, f n = true → g n = true)
    (s : TypeSymbol) (hs : s.supportedWith f = true) : s.supportedWith g = true := by
  rcases supportedWith_weaken (P := False) (fun n hn => Or.inl (h n hn)) s hs with hs | hs
  · exact hs
  · exact hs.elim

end TypeSymbol

namespace SymbolTable

variable {t u : SymbolTable} {m n : String} {s s' : TypeSymbol}

/-! ## Tables without some of their names -/

theorem resolve_erase_self (t : SymbolTable) (n : String) : (t.erase n).resolve n = none := by
  rw [resolve, List.lookup_eq_none_iff]
  intro e he
  have hne : e.1 ≠ n := by simpa [erase] using (List.mem_filter.mp he).2
  simpa using fun h => hne h.symm

theorem resolve_erase_ne (t : SymbolTable) (h : m ≠ n) : (t.erase n).resolve m = t.resolve m := by
  have hlookup : ∀ entries : List (String × TypeSymbol),
      (entries.filter fun e => e.1 != n).lookup m = entries.lookup m := by
    intro entries
    induction entries with
    | nil => rfl
    | cons e rest ih =>
        obtain ⟨k, v⟩ := e
        by_cases hk : k = n
        · have hmk : (m == k) = false := by simpa [hk] using h
          rw [List.filter_cons_of_neg (by simp [hk]), List.lookup_cons, hmk, ih]
        · rw [List.filter_cons_of_pos (by simp [hk]), List.lookup_cons, List.lookup_cons, ih]
  exact hlookup t.entries

theorem resolve_erase_eq_some :
    (t.erase n).resolve m = some s ↔ m ≠ n ∧ t.resolve m = some s := by
  by_cases h : m = n
  · subst h
    simp [resolve_erase_self]
  · rw [resolve_erase_ne t h]
    simp [h]

theorem erase_comm (t : SymbolTable) (m n : String) : (t.erase m).erase n = (t.erase n).erase m := by
  simp only [erase, List.filter_filter, Bool.and_comm]

/-- `u` binds every name that `t` binds, and to the same symbol. -/
def ExtendedBy (t u : SymbolTable) : Prop :=
  ∀ n s, t.resolve n = some s → u.resolve n = some s

theorem erase_extendedBy (t : SymbolTable) (n : String) : (t.erase n).ExtendedBy t :=
  fun _ _ h => (resolve_erase_eq_some.mp h).2

theorem ExtendedBy.erase (h : t.ExtendedBy u) (n : String) : (t.erase n).ExtendedBy (u.erase n) := by
  intro m s hm
  obtain ⟨hne, hm⟩ := resolve_erase_eq_some.mp hm
  exact resolve_erase_eq_some.mpr ⟨hne, h m s hm⟩

/-! ## The judgement under different tables -/

theorem supportsName_iff :
    t.supportsName n = true ↔ ∃ s, t.resolve n = some s ∧ (t.erase n).supportsSymbol s = true := by
  rw [supportsName]
  split
  · next h => simp [h]
  · next s h => simp [h, supportsSymbol]

/-- Induction on the judgement of a name: what the name is bound to is judged without the name. -/
theorem supportsName_induction {P : SymbolTable → String → Prop}
    (step : ∀ {t n s}, t.resolve n = some s → (t.erase n).supportsSymbol s = true →
      (∀ m, (t.erase n).supportsName m = true → P (t.erase n) m) → P t n)
    (hn : t.supportsName n = true) : P t n := by
  induction t, n using supportsName.induct with
  | case1 t n hnone =>
      obtain ⟨s, hs, _⟩ := supportsName_iff.mp hn
      rw [hnone] at hs
      cases hs
  | case2 t n s hs ih =>
      obtain ⟨s', hs', hsup⟩ := supportsName_iff.mp hn
      rw [hs] at hs'
      cases hs'
      exact step hs hsup ih

/-- A larger table supports no fewer names. -/
theorem supportsName_mono (h : t.ExtendedBy u) (hn : t.supportsName n = true) :
    u.supportsName n = true := by
  refine supportsName_induction (P := fun t n => ∀ u, t.ExtendedBy u → u.supportsName n = true)
    ?_ hn u h
  intro t n s hs hsup ih u h
  refine supportsName_iff.mpr ⟨s, h n s hs, ?_⟩
  exact TypeSymbol.supportedWith_mono (fun m hm => ih m hm _ (h.erase n)) s hsup

/-- A name that is supported does not need another name `n`, unless `n` is supported too. -/
theorem supportsName_erase (hm : t.supportsName m = true) :
    (t.erase n).supportsName m = true ∨ t.supportsName n = true := by
  refine supportsName_induction
    (P := fun t m => (t.erase n).supportsName m = true ∨ t.supportsName n = true) ?_ hm
  intro t m s hs hsup ih
  by_cases hmn : m = n
  · exact Or.inr (hmn ▸ supportsName_iff.mpr ⟨s, hs, hsup⟩)
  · -- The names in `s` are judged without `m`; the induction erases `n` from there as well.
    have hstep : ∀ k, (t.erase m).supportsName k = true →
        ((t.erase m).erase n).supportsName k = true ∨ t.supportsName n = true := by
      intro k hk
      rcases ih k hk with hk | hk
      · exact Or.inl hk
      · exact Or.inr (supportsName_mono (erase_extendedBy t m) hk)
    rcases TypeSymbol.supportedWith_weaken hstep s hsup with hsup | hn
    · refine Or.inl (supportsName_iff.mpr ⟨s, resolve_erase_eq_some.mpr ⟨hmn, hs⟩, ?_⟩)
      rw [erase_comm] at hsup
      exact hsup
    · exact Or.inr hn

/-- A symbol that is supported does not need the name `n`, unless `n` is supported too. -/
theorem supportsSymbol_erase (hs : t.supportsSymbol s = true) :
    (t.erase n).supportsSymbol s = true ∨ t.supportsName n = true :=
  TypeSymbol.supportedWith_weaken (fun _ hm => supportsName_erase hm) s hs

/-! ## Support as a least relation -/

/-- The symbols that have a finite derivation from primitives and records. -/
inductive Supports (t : SymbolTable) : TypeSymbol → Prop
  | primitive (kind : Primitive) : Supports t (.primitive kind)
  | record : Supports t .record
  | array {element : TypeSymbol} : Supports t element → Supports t (.array element)
  | map {value : TypeSymbol} : Supports t value → Supports t (.map value)
  | table {row : TypeSymbol} : Supports t row → Supports t (.table row)
  | bound {name : String} {symbol : TypeSymbol} :
      t.resolve name = some symbol → Supports t symbol → Supports t (.alias name)

theorem Supports.extend (h : t.ExtendedBy u) (hs : t.Supports s) : u.Supports s := by
  induction hs with
  | primitive kind => exact .primitive kind
  | record => exact .record
  | array _ ih => exact .array ih
  | map _ ih => exact .map ih
  | table _ ih => exact .table ih
  | bound hn _ ih => exact .bound (h _ _ hn) ih

/-- A symbol has a derivation if every name that it is judged by has one. -/
theorem Supports.of_supportedWith {f : String → Bool}
    (h : ∀ n, f n = true → t.Supports (.alias n)) (hs : s.supportedWith f = true) :
    t.Supports s := by
  induction s with
  | primitive kind => exact .primitive kind
  | record => exact .record
  | array element ih => exact .array (ih hs)
  | map value ih => exact .map (ih hs)
  | table row ih => exact .table (ih hs)
  | «alias» n => exact h n hs
  | other text => exact absurd hs Bool.false_ne_true

theorem supportsName_sound (hn : t.supportsName n = true) : t.Supports (.alias n) := by
  refine supportsName_induction (P := fun t n => t.Supports (.alias n)) ?_ hn
  intro t n s hs hsup ih
  have hderiv : (t.erase n).Supports s := Supports.of_supportedWith ih hsup
  exact .bound hs (hderiv.extend (erase_extendedBy t n))

theorem supportsSymbol_complete (hs : t.Supports s) : t.supportsSymbol s = true := by
  induction hs with
  | primitive kind => rfl
  | record => rfl
  | array _ ih => exact ih
  | map _ ih => exact ih
  | table _ ih => exact ih
  | @bound n s hn _ ih =>
      -- The target may have been derived through `n` again; then `n` is supported anyway.
      rcases supportsSymbol_erase (n := n) ih with hsup | hsup
      · exact supportsName_iff.mpr ⟨s, hn, hsup⟩
      · exact hsup

theorem supportsSymbol_iff_supports : t.supportsSymbol s = true ↔ t.Supports s :=
  ⟨Supports.of_supportedWith fun _ => supportsName_sound, supportsSymbol_complete⟩

/-! ## Support as the end of a path -/

/-- One step from a symbol: into a container, or from a name to what it is bound to. -/
inductive Follows (t : SymbolTable) : TypeSymbol → TypeSymbol → Prop
  | array (element : TypeSymbol) : Follows t (.array element) element
  | map (value : TypeSymbol) : Follows t (.map value) value
  | table (row : TypeSymbol) : Follows t (.table row) row
  | bound {name : String} {symbol : TypeSymbol} :
      t.resolve name = some symbol → Follows t (.alias name) symbol

/-- The symbols at which a path ends without having reached a primitive or a record. -/
inductive DeadEnd (t : SymbolTable) : TypeSymbol → Prop
  | other (text : String) : DeadEnd t (.other text)
  | unbound {name : String} : t.resolve name = none → DeadEnd t (.alias name)

/-- Following a symbol never ends. -/
def Diverges (t : SymbolTable) (s : TypeSymbol) : Prop :=
  ∃ path : Nat → TypeSymbol, path 0 = s ∧ ∀ i, t.Follows (path i) (path (i + 1))

/-- Every symbol is an end of one of the two kinds, or can be followed. -/
theorem supports_or_deadEnd_or_follows (t : SymbolTable) (s : TypeSymbol) :
    t.Supports s ∨ t.DeadEnd s ∨ ∃ s', t.Follows s s' := by
  cases s with
  | primitive kind => exact Or.inl (.primitive kind)
  | record => exact Or.inl .record
  | array element => exact Or.inr (Or.inr ⟨element, .array element⟩)
  | map value => exact Or.inr (Or.inr ⟨value, .map value⟩)
  | table row => exact Or.inr (Or.inr ⟨row, .table row⟩)
  | «alias» n =>
      cases h : t.resolve n with
      | none => exact Or.inr (Or.inl (.unbound h))
      | some s' => exact Or.inr (Or.inr ⟨s', .bound h⟩)
  | other text => exact Or.inr (Or.inl (.other text))

theorem Follows.supports_iff (h : t.Follows s s') : t.Supports s ↔ t.Supports s' := by
  cases h with
  | array _ => exact ⟨fun | .array h => h, .array⟩
  | map _ => exact ⟨fun | .map h => h, .map⟩
  | table _ => exact ⟨fun | .table h => h, .table⟩
  | bound hn =>
      constructor
      · rintro (_ | _ | _ | _ | _ | ⟨hn', hs'⟩)
        rw [hn] at hn'
        cases hn'
        exact hs'
      · exact .bound hn

theorem DeadEnd.not_supports (h : t.DeadEnd s) : ¬ t.Supports s := by
  intro hs
  cases h with
  | other text => cases hs
  | unbound hnone =>
      obtain _ | _ | _ | _ | _ | ⟨hn, _⟩ := hs
      rw [hnone] at hn
      cases hn

theorem supports_iff_of_path (h : Relation.ReflTransGen t.Follows s s') :
    t.Supports s ↔ t.Supports s' := by
  induction h with
  | refl => exact Iff.rfl
  | tail _ hstep ih => exact ih.trans hstep.supports_iff

/-- A derivation bounds every path from its symbol. -/
theorem Supports.acc (hs : t.Supports s) : Acc (fun b a => t.Follows a b) s := by
  induction hs with
  | primitive kind => exact ⟨_, fun _ h => by cases h⟩
  | record => exact ⟨_, fun _ h => by cases h⟩
  | array _ ih => exact ⟨_, fun | _, .array _ => ih⟩
  | map _ ih => exact ⟨_, fun | _, .map _ => ih⟩
  | table _ ih => exact ⟨_, fun | _, .table _ => ih⟩
  | bound hn _ ih =>
      refine ⟨_, fun s' h => ?_⟩
      obtain _ | _ | _ | hn' := h
      rw [hn] at hn'
      cases hn'
      exact ih

theorem diverges_iff_not_acc : t.Diverges s ↔ ¬ Acc (fun b a => t.Follows a b) s := by
  rw [not_acc_iff_exists_descending_chain]
  rfl

/-- A path that ends, and not in support, ends at a dead end. -/
theorem exists_deadEnd_of_acc (hacc : Acc (fun b a => t.Follows a b) s) (hs : ¬ t.Supports s) :
    ∃ e, Relation.ReflTransGen t.Follows s e ∧ t.DeadEnd e := by
  induction hacc with
  | intro s _ ih =>
      rcases supports_or_deadEnd_or_follows t s with h | h | ⟨s', h⟩
      · exact absurd h hs
      · exact ⟨s, .refl, h⟩
      · obtain ⟨e, hpath, he⟩ := ih s' h (h.supports_iff.not.mp hs)
        exact ⟨e, .head h hpath, he⟩

theorem not_supports_iff :
    ¬ t.Supports s ↔
      (∃ e, Relation.ReflTransGen t.Follows s e ∧ t.DeadEnd e) ∨ t.Diverges s := by
  constructor
  · intro hs
    -- Paths are bounded or not; only a bounded path has an end to look at.
    by_cases hacc : Acc (fun b a => t.Follows a b) s
    · exact Or.inl (exists_deadEnd_of_acc hacc hs)
    · exact Or.inr (diverges_iff_not_acc.mpr hacc)
  · rintro (⟨e, hpath, he⟩ | hdiv) hs
    · exact he.not_supports ((supports_iff_of_path hpath).mp hs)
    · exact diverges_iff_not_acc.mp hdiv hs.acc

/-! ## The judgement by remembering names -/

/-- The table without any of the names of a list. -/
def eraseAll (t : SymbolTable) (names : List String) : SymbolTable :=
  names.foldr (fun n u => u.erase n) t

theorem resolve_eraseAll {names : List String} (h : n ∉ names) :
    (t.eraseAll names).resolve n = t.resolve n := by
  induction names with
  | nil => rfl
  | cons k rest ih =>
      have hne : n ≠ k := fun hk => h (hk ▸ List.mem_cons_self)
      calc (t.eraseAll (k :: rest)).resolve n
          = (t.eraseAll rest).resolve n := resolve_erase_ne _ hne
        _ = t.resolve n := ih fun hn => h (List.mem_cons_of_mem k hn)

theorem resolve_eraseAll_mem {names : List String} (h : n ∈ names) :
    (t.eraseAll names).resolve n = none := by
  induction names with
  | nil => cases h
  | cons k rest ih =>
      by_cases hk : n = k
      · exact hk ▸ resolve_erase_self _ n
      · rcases List.mem_cons.mp h with h | h
        · exact absurd h hk
        · exact (resolve_erase_ne _ hk).trans (ih h)

/-- Whether a symbol is supported, judged by following it under the whole table. A name that was seen
before is not followed again. -/
def supportsUnseen (t : SymbolTable) (seen : List String) : TypeSymbol → Bool
  | .primitive _ => true
  | .record => true
  | .array element => t.supportsUnseen seen element
  | .map value => t.supportsUnseen seen value
  | .table row => t.supportsUnseen seen row
  | .alias name =>
    if _hseen : name ∈ seen then false
    else match _hname : t.resolve name with
      | none => false
      | some symbol => t.supportsUnseen (name :: seen) symbol
  | .other _ => false
termination_by s => ((t.eraseAll seen).size, sizeOf s)
decreasing_by
  · exact Prod.Lex.right _ (by simp)
  · exact Prod.Lex.right _ (by simp)
  · exact Prod.Lex.right _ (by simp)
  · exact Prod.Lex.left _ _ (size_erase_lt ((resolve_eraseAll _hseen).trans _hname))

/-- Remembering names under the whole table is the same as erasing them from it. -/
theorem supportsUnseen_eq (t : SymbolTable) (seen : List String) (s : TypeSymbol) :
    t.supportsUnseen seen s = (t.eraseAll seen).supportsSymbol s := by
  fun_induction supportsUnseen t seen s with
  | case1 seen kind => rfl
  | case2 seen => rfl
  | case3 seen element ih => exact ih
  | case4 seen value ih => exact ih
  | case5 seen row ih => exact ih
  | case6 seen n hseen =>
      show false = (t.eraseAll seen).supportsName n
      rw [supportsName, resolve_eraseAll_mem hseen]
  | case7 seen n hseen hnone =>
      show false = (t.eraseAll seen).supportsName n
      rw [supportsName, resolve_eraseAll hseen, hnone]
  | case8 seen n hseen s hs ih =>
      show _ = (t.eraseAll seen).supportsName n
      rw [ih, supportsName, resolve_eraseAll hseen, hs]
      rfl
  | case9 seen text => rfl

/-- A name written in a signature is judged by what it is bound to, with the name itself as seen. -/
theorem supported_named_eq (t : SymbolTable) (n : String) :
    (TypeDesc.named n).supported t = (t.resolve n).any (t.supportsUnseen [n]) := by
  show t.supportsName n = _
  rw [supportsName]
  split
  · next h => rw [h]; rfl
  · next s h =>
      rw [h, Option.any_some, supportsUnseen_eq]
      rfl

/-- **Support is exact.** The judgement accepts the symbols with a finite derivation and no others; it
rejects those whose path reaches a dead end or never ends; a name in a signature is judged as the alias
of that name; and the same values are computed by following symbols while remembering the names met,
from no names for a symbol and from the name itself for a name in a signature. -/
theorem supportsSymbol_exact (t : SymbolTable) :
    (∀ s, t.supportsSymbol s = true ↔ t.Supports s) ∧
    (∀ s, t.supportsSymbol s = false ↔
      (∃ e, Relation.ReflTransGen t.Follows s e ∧ t.DeadEnd e) ∨ t.Diverges s) ∧
    (∀ n, (TypeDesc.named n).supported t = t.supportsSymbol (.alias n)) ∧
    (∀ s, t.supportsSymbol s = t.supportsUnseen [] s) ∧
    (∀ n, (TypeDesc.named n).supported t = (t.resolve n).any (t.supportsUnseen [n])) := by
  refine ⟨fun s => supportsSymbol_iff_supports, fun s => ?_, fun n => rfl, fun s => ?_,
    supported_named_eq t⟩
  · rw [← not_supports_iff, ← supportsSymbol_iff_supports, Bool.not_eq_true]
  · exact (supportsUnseen_eq t [] s).symm

end SymbolTable

end FunctionService
